import Mathlib.Data.List.Basic
import Mathlib.Data.Set.Finite.List
import FastDdsSh.Lib.Transition

/-!
# Threads that lock in order

Threads lock and unlock mutexes, and start other threads, to which they may hand mutexes over.  A
mutex does not know who has locked it, and anybody may unlock it.  If each thread only waits for
mutexes of a higher rank than those it has, then no schedule makes them wait for each other.
-/

namespace Locking

open Transition

/-- What a thread has ahead of it; `spawn` starts a thread that has the given mutexes from then on.
-/
inductive Program (M : Type*) where
  | done
  | lock (m : M) (rest : Program M)
  | unlock (m : M) (rest : Program M)
  | spawn (handed : List M) (child rest : Program M)
  deriving DecidableEq, Repr

structure Thread (M : Type*) where
  held : List M
  program : Program M
  deriving DecidableEq, Repr

/-- The mutexes that are locked, and those among them that were locked before there were threads and
that nobody has unlocked. -/
structure State (M : Type*) where
  locked : List M
  closed : List M
  threads : List (Thread M)
  deriving DecidableEq, Repr

/-- A thread is started with the program for `e`, or the thread with the number `i` takes a step. -/
inductive Event (E : Type*) where
  | start (e : E)
  | step (i : Nat)

variable {M E : Type*}

namespace Program

def size : Program M → Nat
  | done => 0
  | lock _ rest | unlock _ rest => rest.size + 1
  | spawn _ child rest => child.size + rest.size + 1

variable [DecidableEq M]

/-- A thread with the given mutexes that goes on like this waits for mutexes of higher rank only,
and has none in the end. -/
def Ordered (rank : M → Nat) : List M → Program M → Prop
  | held, done => held = []
  | held, lock m rest => (∀ h ∈ held, rank h < rank m) ∧ Ordered rank (m :: held) rest
  | held, unlock m rest => Ordered rank (held.erase m) rest
  | held, spawn handed child rest =>
      Ordered rank handed child ∧ Ordered rank (held.diff handed) rest

end Program

namespace Thread

def waitsFor (t : Thread M) : Option M :=
  match t.program with
  | .lock m _ => some m
  | _ => none

end Thread

namespace State

def size (s : State M) : Nat :=
  (s.threads.map fun t => t.program.size).sum

variable [DecidableEq M]

def stepThread (s : State M) (i : Nat) (t : Thread M) : Option (State M) :=
  match t.program with
  | .done => none
  | .lock m rest =>
      if m ∈ s.locked then none
      else some { s with
        locked := m :: s.locked
        threads := s.threads.set i ⟨m :: t.held, rest⟩ }
  | .unlock m rest =>
      -- whoever has locked it
      some { locked := s.locked.filter fun l => l ≠ m
             closed := s.closed.filter fun l => l ≠ m
             threads := s.threads.set i ⟨t.held.erase m, rest⟩ }
  | .spawn handed child rest =>
      some { s with threads := s.threads.set i ⟨t.held.diff handed, rest⟩ ++ [⟨handed, child⟩] }

def step (program : E → Program M) (s : State M) : Event E → Option (State M)
  | .start e => some { s with threads := s.threads ++ [⟨[], program e⟩] }
  | .step i => (s.threads[i]?).bind (s.stepThread i)

/-- Every thread goes by the ranks, and who has a mutex that is locked is a thread, unless it was
locked before. -/
structure Sound (rank : M → Nat) (s : State M) : Prop where
  ordered : ∀ t ∈ s.threads, t.program.Ordered rank t.held
  owners : ∀ m ∈ s.locked, m ∈ s.closed ∨ ∃ t ∈ s.threads, m ∈ t.held

end State

variable [DecidableEq M]

def machine (closable : M → Prop) (program : E → Program M) : Machine (State M) (Event E) where
  init s := s.threads = [] ∧ s.locked = s.closed ∧ ∀ m ∈ s.closed, closable m
  step := State.step program

namespace State

variable {rank : M → Nat} {s s' : State M} {i : Nat} {t : Thread M}

/-! ## Steps -/

/-- The threads after one of them has moved on, and those it has started. -/
theorem size_lt_of_stepThread (ht : s.threads[i]? = some t) (h : s.stepThread i t = some s') :
    s'.size < s.size := by
  obtain ⟨held, program⟩ := t
  cases program with
  | done => cases h
  | lock m rest =>
    unfold stepThread at h
    dsimp only at h
    split at h
    · cases h
    · cases h
      exact sum_map_set_lt ht (Nat.lt_succ_self _)
  | unlock m rest =>
    cases h
    exact sum_map_set_lt ht (Nat.lt_succ_self _)
  | spawn handed child rest =>
    cases h
    have hset := sum_map_set (f := fun t : Thread M => t.program.size)
      (q := ⟨held.diff handed, rest⟩) ht
    have hold : (⟨held, .spawn handed child rest⟩ : Thread M).program.size =
      child.size + rest.size + 1 := rfl
    have hnew : (⟨held.diff handed, rest⟩ : Thread M).program.size = rest.size := rfl
    unfold size
    rw [List.map_append, List.sum_append, List.map_singleton, List.sum_singleton]
    show ((s.threads.set i ⟨held.diff handed, rest⟩).map fun t => t.program.size).sum +
      child.size < _
    omega

/-- When one thread moves on, somebody has a mutex as before, unless it was this thread. -/
theorem exists_held_set {m : M} {q : Thread M} (ht : s.threads[i]? = some t)
    (h : ∃ u ∈ s.threads, m ∈ u.held) :
    (∃ u ∈ s.threads.set i q, m ∈ u.held) ∨ (m ∈ t.held ∧ m ∉ q.held) := by
  obtain ⟨u, hu, hm⟩ := h
  obtain ⟨j, hj⟩ := List.getElem?_of_mem hu
  by_cases hij : j = i
  · rw [hij, ht] at hj
    cases hj
    by_cases hq : m ∈ q.held
    · exact .inl ⟨q, List.mem_set (lt_length_of_getElem? ht) q, hq⟩
    · exact .inr ⟨hm, hq⟩
  · refine .inl ⟨u, ?_, hm⟩
    exact List.mem_of_getElem? ((List.getElem?_set_ne (Ne.symm hij)).trans hj)

theorem Sound.stepThread (h : s.Sound rank) (ht : s.threads[i]? = some t)
    (hstep : s.stepThread i t = some s') : s'.Sound rank := by
  obtain ⟨hordered, howners⟩ := h
  have hthread := hordered t (List.mem_of_getElem? ht)
  have hset : ∀ {q : Thread M}, q.program.Ordered rank q.held →
      ∀ u ∈ s.threads.set i q, u.program.Ordered rank u.held := by
    intro q hq u hu
    rcases List.mem_or_eq_of_mem_set hu with hu | rfl
    · exact hordered u hu
    · exact hq
  obtain ⟨held, program⟩ := t
  cases program with
  | done => cases hstep
  | lock m rest =>
    unfold State.stepThread at hstep
    dsimp only at hstep
    split at hstep
    · cases hstep
    · cases hstep
      refine ⟨hset hthread.2, fun l hl => ?_⟩
      rcases List.mem_cons.mp hl with rfl | hl
      · exact .inr ⟨_, List.mem_set (lt_length_of_getElem? ht) _, List.mem_cons_self⟩
      · refine (howners l hl).imp_right fun howner => ?_
        rcases exists_held_set ht howner with howner | ⟨hin, hout⟩
        · exact howner
        · exact absurd (List.mem_cons_of_mem m hin) hout
  | unlock m rest =>
    cases hstep
    refine ⟨hset hthread, fun l hl => ?_⟩
    obtain ⟨hl, hne⟩ := List.mem_filter.mp hl
    refine (howners l hl).imp (fun hclosed => List.mem_filter.mpr ⟨hclosed, hne⟩) fun howner => ?_
    rcases exists_held_set ht howner with howner | ⟨hin, hout⟩
    · exact howner
    · exact absurd ((List.mem_erase_of_ne (of_decide_eq_true hne)).mpr hin) hout
  | spawn handed child rest =>
    cases hstep
    refine ⟨List.forall_mem_append.mpr ⟨hset hthread.2, List.forall_mem_singleton.mpr hthread.1⟩,
      fun l hl => (howners l hl).imp_right fun howner => ?_⟩
    rcases exists_held_set ht howner with ⟨u, hu, hin⟩ | ⟨hin, hout⟩
    · exact ⟨u, List.mem_append_left _ hu, hin⟩
    · -- what the thread does not have any more it has handed over
      have hhanded : l ∈ handed := by
        by_contra hnot
        exact hout (List.mem_diff_of_mem hin hnot)
      exact ⟨_, List.mem_append_right _ List.mem_cons_self, hhanded⟩

theorem closed_subset (hstep : s.stepThread i t = some s') : ∀ m ∈ s'.closed, m ∈ s.closed := by
  obtain ⟨held, program⟩ := t
  cases program with
  | done => cases hstep
  | lock l rest =>
    unfold stepThread at hstep
    dsimp only at hstep
    split at hstep
    · cases hstep
    · cases hstep
      exact fun m hm => hm
  | unlock l rest =>
    cases hstep
    exact fun m hm => List.mem_of_mem_filter hm
  | spawn handed child rest =>
    cases hstep
    exact fun m hm => hm

/-! ## Progress -/

/-- A thread that does not move waits for a mutex, or has nothing ahead. -/
theorem waits_of_stepThread_eq_none (h : s.stepThread i t = none) :
    t.program = .done ∨ ∃ m ∈ s.locked, t.waitsFor = some m := by
  obtain ⟨held, program⟩ := t
  cases program with
  | done => exact .inl rfl
  | lock m rest =>
    unfold stepThread at h
    dsimp only at h
    split at h
    · rename_i hm
      exact .inr ⟨m, hm, rfl⟩
    · cases h
  | unlock | spawn => cases h

/-- If nobody can move, then either nobody has anything ahead, or somebody waits for a mutex that
was locked before.  Otherwise the mutex of highest rank among those that are waited for is held by a
thread that waits for one of yet higher rank. -/
theorem Sound.all_done_or_closed (h : s.Sound rank)
    (hstuck : ∀ i t, s.threads[i]? = some t → s.stepThread i t = none) :
    (∀ t ∈ s.threads, t.program = .done) ∨
      ∃ t ∈ s.threads, ∃ m ∈ s.closed, t.waitsFor = some m := by
  have hwaits : ∀ t ∈ s.threads, t.program = .done ∨ ∃ m ∈ s.locked, t.waitsFor = some m := by
    intro t ht
    obtain ⟨i, hi⟩ := List.getElem?_of_mem ht
    exact waits_of_stepThread_eq_none (hstuck i t hi)
  by_contra hneither
  obtain ⟨hunfinished, hopen⟩ := not_or.mp hneither
  push Not at hunfinished hopen
  have hnonempty : {m | m ∈ s.threads.filterMap Thread.waitsFor}.Nonempty := by
    obtain ⟨t, ht, hne⟩ := hunfinished
    obtain ⟨m, -, hm⟩ := (hwaits t ht).resolve_left hne
    exact ⟨m, List.mem_filterMap.mpr ⟨t, ht, hm⟩⟩
  obtain ⟨m, hm, hmax⟩ := Set.exists_max_image _ rank (List.finite_toSet _) hnonempty
  obtain ⟨t, ht, hm⟩ := List.mem_filterMap.mp hm
  have hlocked : m ∈ s.locked := by
    rcases hwaits t ht with hdone | ⟨l, hl, hwait⟩
    · rw [Thread.waitsFor, hdone] at hm
      cases hm
    · rw [hm] at hwait
      cases hwait
      exact hl
  obtain ⟨u, hu, hheld⟩ := (h.owners m hlocked).resolve_left fun hclosed => hopen t ht m hclosed hm
  have hordered := h.ordered u hu
  rcases hwaits u hu with hdone | ⟨l, -, hwait⟩
  · rw [hdone] at hordered
    have hnil : u.held = [] := hordered
    rw [hnil] at hheld
    cases hheld
  · have hlt : rank m < rank l := by
      unfold Thread.waitsFor at hwait
      split at hwait
      · rename_i m' rest hprogram
        cases hwait
        rw [hprogram] at hordered
        exact hordered.1 m hheld
      · cases hwait
    exact absurd (hmax l (List.mem_filterMap.mpr ⟨u, hu, hwait⟩)) (Nat.not_le_of_lt hlt)

/-- With nothing ahead of anybody, only what was locked before is locked. -/
theorem Sound.locked_subset_closed (h : s.Sound rank) (hdone : ∀ t ∈ s.threads, t.program = .done) :
    ∀ m ∈ s.locked, m ∈ s.closed := by
  intro m hm
  refine (h.owners m hm).resolve_right fun howner => ?_
  obtain ⟨t, ht, hheld⟩ := howner
  have hordered := h.ordered t ht
  rw [hdone t ht] at hordered
  have hnil : t.held = [] := hordered
  rw [hnil] at hheld
  cases hheld

end State

/-! ## Runs -/

variable {closable : M → Prop} {program : E → Program M} {rank : M → Nat} {s s' : State M}

theorem sound_of_reachable (hordered : ∀ e, (program e).Ordered rank [])
    (h : (machine closable program).Reachable s) :
    s.Sound rank ∧ ∀ m ∈ s.closed, closable m := by
  refine h.invariant (I := fun s => s.Sound rank ∧ ∀ m ∈ s.closed, closable m) (fun s hs => ?_)
    fun s a s' hs hstep => ?_
  · obtain ⟨hthreads, hlocked, hclosable⟩ := hs
    refine ⟨⟨?_, fun m hm => .inl (hlocked ▸ hm)⟩, hclosable⟩
    rw [hthreads]
    exact List.forall_mem_nil _
  · have hstep : s.step program a = some s' := hstep
    cases a with
    | start e =>
      cases hstep
      refine ⟨⟨List.forall_mem_append.mpr
        ⟨hs.1.ordered, List.forall_mem_singleton.mpr (hordered e)⟩, fun m hm => ?_⟩, hs.2⟩
      exact (hs.1.owners m hm).imp_right fun howner =>
        howner.imp fun t ht => ⟨List.mem_append_left _ ht.1, ht.2⟩
    | step i =>
      obtain ⟨t, ht, hstep⟩ := Option.bind_eq_some_iff.mp hstep
      refine ⟨hs.1.stepThread ht hstep, fun m hm => hs.2 m ?_⟩
      exact State.closed_subset hstep m hm

/-- Steps of threads that are there already come to an end. -/
theorem length_steps_le {is : List Nat}
    (hrun : (machine closable program).run s (is.map .step) = some s') :
    is.length + s'.size ≤ s.size := by
  induction is generalizing s with
  | nil =>
    cases hrun
    exact Nat.le_of_eq (Nat.zero_add _)
  | cons i is ih =>
    obtain ⟨s₁, hstep, hrun⟩ := Option.bind_eq_some_iff.mp hrun
    obtain ⟨t, ht, hstep⟩ := Option.bind_eq_some_iff.mp hstep
    have hlt := State.size_lt_of_stepThread ht hstep
    have hle := ih hrun
    rw [List.length_cons]
    omega

end Locking
