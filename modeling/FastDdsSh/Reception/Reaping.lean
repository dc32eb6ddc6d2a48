import FastDdsSh.Lib.Lookup
import FastDdsSh.Reception

/-!
# Reaping reception threads

What `on_data_available`, `receive`, `cleaner_function` and the destructor do with
`reception_threads_` and `finished_threads_`.  Threads are called by the number of their creation;
the containers hold their `std::thread::id`, which the system may give to a new thread once the old
one has been joined.
-/

namespace FastDdsSh.Reception.Reaping

open Transition

/-- How far a thread is in `receive`: before it locks `cleaner_mtx_`, with the mutex before and
after `push_back`, and past its end. -/
inductive Progress where
  | running
  | notify
  | leave
  | ended
  deriving DecidableEq, Repr

structure Thread (Id : Type) where
  id : Id
  progress : Progress
  deriving DecidableEq, Repr

inductive ListenerPc where
  | idle
  | create
  | leave
  deriving DecidableEq, Repr

/-- Program points of `cleaner_function`, as in `Reception.CleanerPc`; a thread that is joined is
kept by its number, the pointer that was in the map. -/
inductive CleanerPc (Id : Type) where
  | start
  | test
  | waitTest
  | wait
  | scan (rest stopped : List Id)
  | join (id : Id) (thread : Nat) (rest stopped : List Id)
  | prune (stopped : List Id)
  | sleep
  | drain (rest : List Nat)
  | drainJoin (thread : Nat) (rest : List Nat)
  | done
  deriving DecidableEq, Repr

inductive DestructorPc where
  | idle
  | setStop
  | stopped
  deriving DecidableEq, Repr

structure State (Id : Type) where
  cleanerMtx : Option Activity
  stopCleaner : Bool
  receptionThreads : List (Id × Nat)
  finishedThreads : List Id
  threads : List (Thread Id)
  listener : ListenerPc
  cleaner : CleanerPc Id
  destructor : DestructorPc
  joined : List Nat
  deriving DecidableEq, Repr

/-- `created` is the id of the thread that `on_data_available` creates if it takes a sample;
`notifies` tells whether `receive` goes on to its end. -/
inductive Event (Id : Type) where
  | listener (created : Option Id)
  | thread (number : Nat) (notifies : Bool)
  | cleaner
  | destructor
  deriving DecidableEq, Repr

variable {Id : Type} [DecidableEq Id]

def State.initial : State Id where
  cleanerMtx := none
  stopCleaner := false
  receptionThreads := []
  finishedThreads := []
  threads := []
  listener := .idle
  cleaner := .start
  destructor := .idle
  joined := []

namespace State

def setProgress (s : State Id) (i : Nat) (th : Thread Id) (progress : Progress) : State Id :=
  { s with threads := s.threads.set i { th with progress := progress } }

def hasEnded (s : State Id) (i : Nat) : Bool :=
  match s.threads[i]? with
  | some th => decide (th.progress = .ended)
  | none => false

/-- Every thread with this id has been joined. -/
def isFree (s : State Id) (id : Id) : Bool :=
  (s.threads.zipIdx).all fun t => decide (t.1.id = id → t.2 ∈ s.joined)

/-- `reception_threads_.emplace(id, thread)`, which keeps an entry that is there. -/
def emplace (s : State Id) (id : Id) (i : Nat) : List (Id × Nat) :=
  if id ∈ s.receptionThreads.map Prod.fst then s.receptionThreads
  else s.receptionThreads ++ [(id, i)]

end State

def stepListener (s : State Id) (created : Option Id) : Option (State Id) :=
  match s.listener with
  | .idle =>
      if s.cleanerMtx = none then some { s with cleanerMtx := some .listener, listener := .create }
      else none
  | .create =>
      -- whether a sample is taken, and with it the id of the new thread
      match created with
      | none => some { s with listener := .leave }
      | some id =>
          -- an id is given again only once its thread has been joined
          if s.stopCleaner = false ∧ s.isFree id = true then
            some { s with
              threads := s.threads ++ [⟨id, .running⟩]
              receptionThreads := s.emplace id s.threads.length
              listener := .leave }
          else none
  | .leave => some { s with cleanerMtx := none, listener := .idle }

def stepThread (r : Receiver) (s : State Id) (i : Nat) (notifies : Bool) : Option (State Id) :=
  match s.threads[i]? with
  | none => none
  | some th =>
      match th.progress with
      | .running =>
          if notifies then
            if s.cleanerMtx = none then
              some { s.setProgress i th .notify with cleanerMtx := some (.thread i) }
            else none
          -- "Received reply from unasked request" in `Server::receive`
          else if r = .server then some (s.setProgress i th .ended)
          else none
      | .notify =>
          some { s.setProgress i th .leave with finishedThreads := s.finishedThreads ++ [th.id] }
      | .leave => some { s.setProgress i th .ended with cleanerMtx := none }
      | .ended => none

def stepCleaner (s : State Id) : Option (State Id) :=
  match s.cleaner with
  | .start =>
      if s.cleanerMtx = none then some { s with cleanerMtx := some .cleaner, cleaner := .test }
      else none
  | .test =>
      if s.stopCleaner then some { s with cleaner := .drain (s.receptionThreads.map Prod.snd) }
      else some { s with cleaner := .waitTest }
  | .waitTest =>
      if s.stopCleaner ∨ s.finishedThreads ≠ [] then
        some { s with cleaner := .scan s.finishedThreads [] }
      else some { s with cleanerMtx := none, cleaner := .wait }
  | .wait =>
      if s.cleanerMtx = none then some { s with cleanerMtx := some .cleaner, cleaner := .waitTest }
      else none
  | .scan [] stopped => some { s with cleaner := .prune stopped }
  | .scan (id :: rest) stopped =>
      -- an id that is not there is left for the next iteration
      match s.receptionThreads.lookup id with
      | some i =>
          some { s with
            receptionThreads := s.receptionThreads.filter fun e => e.1 ≠ id
            cleaner := .join id i rest stopped }
      | none => some { s with cleaner := .scan rest stopped }
  -- a pointer to the thread is what is joined and deleted
  | .join id i rest stopped =>
      if s.hasEnded i then
        some { s with joined := s.joined ++ [i], cleaner := .scan rest (stopped ++ [id]) }
      else none
  | .prune [] => some { s with cleanerMtx := none, cleaner := .sleep }
  -- `finished_threads_` loses one entry for each thread that was joined
  | .prune (id :: stopped) =>
      some { s with finishedThreads := s.finishedThreads.erase id, cleaner := .prune stopped }
  | .sleep =>
      if s.cleanerMtx = none then some { s with cleanerMtx := some .cleaner, cleaner := .test }
      else none
  | .drain [] => some { s with cleanerMtx := none, cleaner := .done }
  | .drain (i :: rest) => some { s with cleaner := .drainJoin i rest }
  | .drainJoin i rest =>
      if s.hasEnded i then some { s with joined := s.joined ++ [i], cleaner := .drain rest }
      else none
  | .done => none

def stepDestructor (s : State Id) : Option (State Id) :=
  match s.destructor with
  | .idle =>
      if s.cleanerMtx = none then
        some { s with cleanerMtx := some .destructor, destructor := .setStop }
      else none
  -- `stop_cleaner_` is set under `cleaner_mtx_`
  | .setStop => some { s with stopCleaner := true, cleanerMtx := none, destructor := .stopped }
  | .stopped => none

def step (r : Receiver) (s : State Id) : Event Id → Option (State Id)
  | .listener created => stepListener s created
  | .thread i notifies => stepThread r s i notifies
  | .cleaner => stepCleaner s
  | .destructor => stepDestructor s

/-- Every interleaving, with ids that are not given again before their thread is joined. -/
def machine (r : Receiver) : Machine (State Id) (Event Id) where
  init s := s = .initial
  step := step r

/-! ## What the cleaner is about -/

namespace CleanerPc

def holds : CleanerPc Id → Bool
  | start | wait | sleep | done => false
  | _ => true

/-- The ids whose threads this iteration has taken out of the map, not yet out of
`finished_threads_`. -/
def taken : CleanerPc Id → List Id
  | scan _ stopped | prune stopped => stopped
  | join id _ _ stopped => stopped ++ [id]
  | _ => []

def toVisit : CleanerPc Id → List Id
  | scan rest _ | join _ _ rest _ => rest
  | _ => []

def joining : CleanerPc Id → Option Nat
  | join _ i _ _ => some i
  | _ => none

def toDrain : CleanerPc Id → List Nat
  | drain rest => rest
  | drainJoin i rest => i :: rest
  | _ => []

def draining : CleanerPc Id → Bool
  | drain _ | drainJoin _ _ | done => true
  | _ => false

omit [DecidableEq Id] in
theorem of_not_holds {pc : CleanerPc Id} (h : pc.holds = false) :
    pc.taken = [] ∧ pc.joining = none ∧ pc.toDrain = [] := by
  cases pc <;> first | exact ⟨rfl, rfl, rfl⟩ | cases h

end CleanerPc

def Progress.holds : Progress → Bool
  | notify | leave => true
  | running | ended => false

def Progress.notified : Progress → Bool
  | leave | ended => true
  | running | notify => false

/-! ## The invariant -/

structure Locked (s : State Id) : Prop where
  cleaner : s.cleaner.holds = true → s.cleanerMtx = some .cleaner
  thread : ∀ (i : Nat) (th : Thread Id), s.threads[i]? = some th → th.progress.holds = true →
    s.cleanerMtx = some (.thread i)
  listener : s.listener ≠ .idle → s.cleanerMtx = some .listener
  destructor : s.destructor = .setStop → s.cleanerMtx = some .destructor

structure View (Id : Type) where
  receptionThreads : List (Id × Nat)
  finishedThreads : List Id
  threads : List (Thread Id)
  taken : List Id
  toVisit : List Id
  joining : Option Nat
  toDrain : List Nat
  draining : Bool
  joined : List Nat
  stopCleaner : Bool

def State.view (s : State Id) : View Id where
  receptionThreads := s.receptionThreads
  finishedThreads := s.finishedThreads
  threads := s.threads
  taken := s.cleaner.taken
  toVisit := s.cleaner.toVisit
  joining := s.cleaner.joining
  toDrain := s.cleaner.toDrain
  draining := s.cleaner.draining
  joined := s.joined
  stopCleaner := s.stopCleaner

def View.Awaits (v : View Id) (id : Id) : Prop :=
  ∃ (i : Nat) (th : Thread Id), (id, i) ∈ v.receptionThreads ∧ v.threads[i]? = some th ∧
    th.progress.notified = true

structure Tables (v : View Id) : Prop where
  /-- An entry of the map is a thread with its id. -/
  entry : ∀ (id : Id) (i : Nat), (id, i) ∈ v.receptionThreads →
    ∃ th : Thread Id, v.threads[i]? = some th ∧ th.id = id
  keys : (v.receptionThreads.map Prod.fst).Nodup
  values : (v.receptionThreads.map Prod.snd).Nodup
  /-- Threads that are not joined have different ids. -/
  fresh : ∀ (i j : Nat) (th th' : Thread Id), v.threads[i]? = some th →
    v.threads[j]? = some th' → i ∉ v.joined → j ∉ v.joined → th.id = th'.id → i = j
  kept : ∀ i < v.threads.length,
    i ∈ v.receptionThreads.map Prod.snd ∨ i ∈ v.joined ∨ v.joining = some i
  unreaped : v.draining = false → ∀ i ∈ v.receptionThreads.map Prod.snd, i ∉ v.joined
  joining : ∀ i, v.joining = some i →
    v.draining = false ∧ i ∉ v.joined ∧ i ∉ v.receptionThreads.map Prod.snd
  ended : ∀ i ∈ v.joined, ∃ th : Thread Id, v.threads[i]? = some th ∧ th.progress = .ended
  joined : v.joined.Nodup
  finishedNodup : v.finishedThreads.Nodup
  finished : ∀ id ∈ v.finishedThreads, id ∈ v.taken ∨ v.Awaits id
  visitNodup : (v.taken ++ v.toVisit).Nodup
  visit : ∀ id ∈ v.taken ++ v.toVisit, id ∈ v.finishedThreads
  drain : v.draining = true → v.stopCleaner = true ∧
    ∀ i ∈ v.receptionThreads.map Prod.snd, i ∈ v.toDrain ∨ i ∈ v.joined
  toDrain : v.toDrain.Nodup ∧ ∀ i ∈ v.toDrain, i ∉ v.joined

structure Inv (s : State Id) : Prop where
  locked : Locked s
  tables : Tables s.view

omit [DecidableEq Id] in
theorem inv_initial : Inv (.initial : State Id) where
  locked := by
    constructor
    · intro h
      cases h
    · intro i th h
      cases h
    · intro h
      exact absurd rfl h
    · intro h
      cases h
  tables := by
    constructor <;> simp [State.view, State.initial, CleanerPc.taken, CleanerPc.toVisit,
      CleanerPc.joining, CleanerPc.toDrain, CleanerPc.draining]

/-! ## Locking and unlocking -/

variable {r : Receiver} {s s' : State Id}

omit [DecidableEq Id] in
/-- A step that does not change the mutex, and after which nobody else is at a locked point. -/
theorem Locked.of_same (h : Locked s) (hmtx : s'.cleanerMtx = s.cleanerMtx)
    (hcleaner : s'.cleaner.holds = true → s.cleaner.holds = true)
    (hthread : ∀ (i : Nat) (th : Thread Id), s'.threads[i]? = some th → th.progress.holds = true →
      ∃ th' : Thread Id, s.threads[i]? = some th' ∧ th'.progress.holds = true)
    (hlistener : s'.listener ≠ .idle → s.listener ≠ .idle)
    (hdestructor : s'.destructor = .setStop → s.destructor = .setStop) : Locked s' where
  cleaner := fun hholds => hmtx.trans (h.cleaner (hcleaner hholds))
  thread := by
    intro i th hth hholds
    obtain ⟨th', hth', hholds'⟩ := hthread i th hth hholds
    exact hmtx.trans (h.thread i th' hth' hholds')
  listener := fun hne => hmtx.trans (h.listener (hlistener hne))
  destructor := fun hset => hmtx.trans (h.destructor (hdestructor hset))

omit [DecidableEq Id] in
/-- A step of `a`, which takes or releases the mutex: the others are where they were. -/
theorem Locked.of_step (h : Locked s) (a : Activity)
    (hmtx : s.cleanerMtx = none ∨ s.cleanerMtx = some a)
    (hcleaner : s'.cleaner.holds = true →
      s'.cleanerMtx = some .cleaner ∨ (a ≠ .cleaner ∧ s.cleaner.holds = true))
    (hthread : ∀ (i : Nat) (th : Thread Id), s'.threads[i]? = some th → th.progress.holds = true →
      s'.cleanerMtx = some (.thread i) ∨
        (a ≠ .thread i ∧ ∃ th' : Thread Id, s.threads[i]? = some th' ∧ th'.progress.holds = true))
    (hlistener : s'.listener ≠ .idle →
      s'.cleanerMtx = some .listener ∨ (a ≠ .listener ∧ s.listener ≠ .idle))
    (hdestructor : s'.destructor = .setStop →
      s'.cleanerMtx = some .destructor ∨ (a ≠ .destructor ∧ s.destructor = .setStop)) :
    Locked s' := by
  -- nobody but `a` can have been at a locked point
  have hnone {b : Activity} (hne : a ≠ b) (hb : s.cleanerMtx = some b) : False := by
    rcases hmtx with hmtx | hmtx <;> rw [hmtx] at hb <;> cases hb
    exact hne rfl
  constructor
  · intro hholds
    rcases hcleaner hholds with hnew | ⟨hne, hold⟩
    · exact hnew
    · exact (hnone hne (h.cleaner hold)).elim
  · intro i th hth hholds
    rcases hthread i th hth hholds with hnew | ⟨hne, th', hth', hold⟩
    · exact hnew
    · exact (hnone hne (h.thread i th' hth' hold)).elim
  · intro hbusy
    rcases hlistener hbusy with hnew | ⟨hne, hold⟩
    · exact hnew
    · exact (hnone hne (h.listener hold)).elim
  · intro hset
    rcases hdestructor hset with hnew | ⟨hne, hold⟩
    · exact hnew
    · exact (hnone hne (h.destructor hold)).elim

omit [DecidableEq Id] in
/-- Where a thread that moved is concerned, the others are as they were. -/
theorem holds_setProgress {i : Nat} {th : Thread Id} {progress : Progress}
    (hth : s.threads[i]? = some th) {j : Nat} {th' : Thread Id}
    (h : (s.setProgress i th progress).threads[j]? = some th')
    (hholds : th'.progress.holds = true) :
    (j = i ∧ progress.holds = true) ∨
      (j ≠ i ∧ ∃ th' : Thread Id, s.threads[j]? = some th' ∧ th'.progress.holds = true) := by
  rcases getElem?_set_cases hth h with ⟨hji, rfl⟩ | ⟨hji, hold⟩
  · exact .inl ⟨hji, hholds⟩
  · exact .inr ⟨hji, th', hold, hholds⟩

theorem stepListener_locked {created : Option Id} (h : Locked s)
    (hstep : stepListener s created = some s') : Locked s' := by
  unfold stepListener at hstep
  split at hstep
  · -- locks
    split at hstep
    · rename_i hfree
      cases hstep
      refine h.of_step .listener (.inl hfree) ?_ ?_ ?_ ?_
      · exact fun hholds => .inr ⟨by decide, hholds⟩
      · exact fun i th hth hholds => .inr ⟨by simp, th, hth, hholds⟩
      · exact fun _ => .inl rfl
      · exact fun hset => .inr ⟨by decide, hset⟩
    · cases hstep
  · rename_i hpc
    have hbusy : s.listener ≠ .idle := by
      rw [hpc]
      decide
    split at hstep
    · cases hstep
      exact h.of_same rfl id (fun i th hth hholds => ⟨th, hth, hholds⟩) (fun _ => hbusy) id
    · split at hstep
      · cases hstep
        refine h.of_same rfl id ?_ (fun _ => hbusy) id
        intro i th hth hholds
        -- the new thread has not come to `cleaner_mtx_`
        rcases getElem?_concat_cases hth with hold | ⟨-, rfl⟩
        · exact ⟨th, hold, hholds⟩
        · cases hholds
      · cases hstep
  · -- unlocks
    rename_i hpc
    cases hstep
    have hbusy : s.listener ≠ .idle := by
      rw [hpc]
      decide
    refine h.of_step .listener (.inr (h.listener hbusy)) ?_ ?_ ?_ ?_
    · exact fun hholds => .inr ⟨by decide, hholds⟩
    · exact fun i th hth hholds => .inr ⟨by simp, th, hth, hholds⟩
    · exact fun hne => absurd rfl hne
    · exact fun hset => .inr ⟨by decide, hset⟩

omit [DecidableEq Id] in
theorem stepThread_locked {i : Nat} {notifies : Bool} (h : Locked s)
    (hstep : stepThread r s i notifies = some s') : Locked s' := by
  unfold stepThread at hstep
  split at hstep
  · cases hstep
  · rename_i th hth
    split at hstep
    · split at hstep
      · split at hstep
        · -- locks
          rename_i hfree
          cases hstep
          refine h.of_step (.thread i) (.inl hfree) ?_ ?_ ?_ ?_
          · exact fun hholds => .inr ⟨by simp, hholds⟩
          · intro j th' hth' hholds
            rcases holds_setProgress hth hth' hholds with ⟨rfl, -⟩ | ⟨hji, hold⟩
            · exact .inl rfl
            · exact .inr ⟨by simpa using Ne.symm hji, hold⟩
          · exact fun hne => .inr ⟨by simp, hne⟩
          · exact fun hset => .inr ⟨by simp, hset⟩
        · cases hstep
      · split at hstep
        · cases hstep
          refine h.of_same rfl id ?_ id id
          intro j th' hth' hholds
          -- an early exit, for which no mutex is locked
          rcases holds_setProgress hth hth' hholds with ⟨-, hended⟩ | ⟨-, hold⟩
          · cases hended
          · exact hold
        · cases hstep
    · rename_i hpc
      cases hstep
      refine h.of_same rfl id ?_ id id
      intro j th' hth' hholds
      rcases holds_setProgress hth hth' hholds with ⟨rfl, -⟩ | ⟨-, hold⟩
      · exact ⟨th, hth, by rw [hpc]; rfl⟩
      · exact hold
    · -- unlocks
      rename_i hpc
      cases hstep
      have hmine : s.cleanerMtx = some (.thread i) := h.thread i th hth (by rw [hpc]; rfl)
      refine h.of_step (.thread i) (.inr hmine) ?_ ?_ ?_ ?_
      · exact fun hholds => .inr ⟨by simp, hholds⟩
      · intro j th' hth' hholds
        rcases holds_setProgress hth hth' hholds with ⟨-, hended⟩ | ⟨hji, hold⟩
        · cases hended
        · exact .inr ⟨by simpa using Ne.symm hji, hold⟩
      · exact fun hne => .inr ⟨by simp, hne⟩
      · exact fun hset => .inr ⟨by simp, hset⟩
    · cases hstep

omit [DecidableEq Id] in
/-- A step of the cleaner from the point `pc` to the point it is at now. -/
theorem Locked.of_cleaner (h : Locked s) (hthreads : s'.threads = s.threads)
    (hlistener : s'.listener = s.listener) (hdestructor : s'.destructor = s.destructor)
    (hbefore : s.cleanerMtx = none ∨ s.cleaner.holds = true)
    (hafter : s'.cleaner.holds = true → s'.cleanerMtx = some .cleaner) : Locked s' := by
  have hmtx : s.cleanerMtx = none ∨ s.cleanerMtx = some .cleaner := hbefore.imp_right h.cleaner
  refine h.of_step .cleaner hmtx ?_ ?_ ?_ ?_
  · exact fun hholds => .inl (hafter hholds)
  · rw [hthreads]
    exact fun i th hth hholds => .inr ⟨by simp, th, hth, hholds⟩
  · rw [hlistener]
    exact fun hne => .inr ⟨by decide, hne⟩
  · rw [hdestructor]
    exact fun hset => .inr ⟨by decide, hset⟩

theorem stepCleaner_locked (h : Locked s) (hstep : stepCleaner s = some s') : Locked s' := by
  -- the three points at which the cleaner comes to lock `cleaner_mtx_`
  have hlocks (hfree : s.cleanerMtx = none) (pc : CleanerPc Id) :
      Locked { s with cleanerMtx := some .cleaner, cleaner := pc } :=
    h.of_cleaner rfl rfl rfl (.inl hfree) fun _ => rfl
  unfold stepCleaner at hstep
  cases hpc : s.cleaner with
  | start | wait | sleep =>
    rw [hpc] at hstep
    simp only at hstep
    split at hstep
    · rename_i hfree
      cases hstep
      exact hlocks hfree _
    · cases hstep
  | test | waitTest =>
    have hheld : s.cleaner.holds = true := by
      rw [hpc]
      rfl
    rw [hpc] at hstep
    simp only at hstep
    split at hstep <;> cases hstep
    · exact h.of_cleaner rfl rfl rfl (.inr hheld) fun _ => h.cleaner hheld
    · first
        | exact h.of_cleaner rfl rfl rfl (.inr hheld) fun _ => h.cleaner hheld
        | exact h.of_cleaner rfl rfl rfl (.inr hheld) fun hholds => by cases hholds
  | scan rest stopped =>
    have hheld : s.cleaner.holds = true := by
      rw [hpc]
      rfl
    rw [hpc] at hstep
    cases rest with
    | nil =>
      cases hstep
      exact h.of_cleaner rfl rfl rfl (.inr hheld) fun _ => h.cleaner hheld
    | cons id rest =>
      simp only at hstep
      split at hstep <;> cases hstep <;>
        exact h.of_cleaner rfl rfl rfl (.inr hheld) fun _ => h.cleaner hheld
  | join id i rest stopped | drainJoin i rest =>
    have hheld : s.cleaner.holds = true := by
      rw [hpc]
      rfl
    rw [hpc] at hstep
    simp only at hstep
    split at hstep
    · cases hstep
      exact h.of_cleaner rfl rfl rfl (.inr hheld) fun _ => h.cleaner hheld
    · cases hstep
  | prune rest | drain rest =>
    have hheld : s.cleaner.holds = true := by
      rw [hpc]
      rfl
    rw [hpc] at hstep
    cases rest with
    | nil =>
      cases hstep
      exact h.of_cleaner rfl rfl rfl (.inr hheld) fun hholds => by cases hholds
    | cons id rest =>
      cases hstep
      exact h.of_cleaner rfl rfl rfl (.inr hheld) fun _ => h.cleaner hheld
  | done =>
    rw [hpc] at hstep
    cases hstep

omit [DecidableEq Id] in
theorem stepDestructor_locked (h : Locked s) (hstep : stepDestructor s = some s') : Locked s' := by
  unfold stepDestructor at hstep
  split at hstep
  · split at hstep
    · rename_i hfree
      cases hstep
      refine h.of_step .destructor (.inl hfree) ?_ ?_ ?_ ?_
      · exact fun hholds => .inr ⟨by decide, hholds⟩
      · exact fun i th hth hholds => .inr ⟨by simp, th, hth, hholds⟩
      · exact fun hne => .inr ⟨by decide, hne⟩
      · exact fun _ => .inl rfl
    · cases hstep
  · rename_i hpc
    cases hstep
    refine h.of_step .destructor (.inr (h.destructor hpc)) ?_ ?_ ?_ ?_
    · exact fun hholds => .inr ⟨by decide, hholds⟩
    · exact fun i th hth hholds => .inr ⟨by simp, th, hth, hholds⟩
    · exact fun hne => .inr ⟨by decide, hne⟩
    · exact fun hset => by cases hset
  · cases hstep

/-! ## The containers -/

section Tables

variable {v : View Id}

omit [DecidableEq Id] in
theorem View.mem_values {id : Id} {i : Nat} (hmem : (id, i) ∈ v.receptionThreads) :
    i ∈ v.receptionThreads.map Prod.snd :=
  List.mem_map_of_mem (f := Prod.snd) hmem

omit [DecidableEq Id] in
/-- A thread that is not at its end is in the map, under its id. -/
theorem Tables.entry_of_not_ended (h : Tables v) (hjoining : v.joining = none) {i : Nat}
    {th : Thread Id} (hth : v.threads[i]? = some th) (hne : th.progress ≠ .ended) :
    i ∉ v.joined ∧ (th.id, i) ∈ v.receptionThreads := by
  -- what is joined has ended
  have hnot : i ∉ v.joined := by
    intro hjoined
    obtain ⟨th', hth', hended⟩ := h.ended i hjoined
    rw [hth] at hth'
    cases hth'
    exact hne hended
  refine ⟨hnot, ?_⟩
  -- so it is in the map, as nothing is being joined
  rcases h.kept i (lt_length_of_getElem? hth) with hmem | hjoined | hjoin
  · obtain ⟨⟨id, j⟩, he, hj⟩ := List.mem_map.mp hmem
    have hji : j = i := hj
    subst hji
    obtain ⟨th', hth', hid⟩ := h.entry id j he
    rw [hth] at hth'
    cases hth'
    rw [hid]
    exact he
  · exact absurd hjoined hnot
  · rw [hjoining] at hjoin
    cases hjoin

omit [DecidableEq Id] in
/-- A thread that is not at its end goes on. -/
theorem Tables.setProgress (h : Tables v) {i : Nat} {th : Thread Id} {progress : Progress}
    (hth : v.threads[i]? = some th) (hne : th.progress ≠ .ended)
    (hnotified : th.progress.notified = true → progress.notified = true) :
    Tables { v with threads := v.threads.set i { th with progress := progress } } := by
  -- the thread keeps its id, and the other threads keep everything
  have hat {j : Nat} {th' : Thread Id} (hj : v.threads[j]? = some th') :
      ∃ th'' : Thread Id, (v.threads.set i { th with progress := progress })[j]? = some th'' ∧
        th''.id = th'.id ∧ (th'.progress.notified = true → th''.progress.notified = true) ∧
        (th'.progress = .ended → th''.progress = .ended) := by
    by_cases hji : j = i
    · subst hji
      rw [hth] at hj
      cases hj
      exact ⟨_, List.getElem?_set_self (lt_length_of_getElem? hth), rfl, hnotified,
        fun hended => absurd hended hne⟩
    · exact ⟨th', by rw [List.getElem?_set_ne (Ne.symm hji), hj], rfl, id, id⟩
  have hback {j : Nat} {th' : Thread Id}
      (hj : (v.threads.set i { th with progress := progress })[j]? = some th') :
      ∃ th'' : Thread Id, v.threads[j]? = some th'' ∧ th''.id = th'.id := by
    rcases getElem?_set_cases hth hj with ⟨rfl, rfl⟩ | ⟨-, hold⟩
    · exact ⟨th, hth, rfl⟩
    · exact ⟨th', hold, rfl⟩
  refine { h with
    entry := ?_
    fresh := ?_
    kept := ?_
    ended := ?_
    finished := ?_ }
  · intro id j he
    obtain ⟨th', hth', hid⟩ := h.entry id j he
    obtain ⟨th'', hth'', hid', -, -⟩ := hat hth'
    exact ⟨th'', hth'', hid'.trans hid⟩
  · intro j k tj tk hj hk hnj hnk hid
    obtain ⟨tj', hj', hidj⟩ := hback hj
    obtain ⟨tk', hk', hidk⟩ := hback hk
    exact h.fresh j k tj' tk' hj' hk' hnj hnk (by rw [hidj, hidk, hid])
  · intro j hj
    rw [List.length_set] at hj
    exact h.kept j hj
  · intro j hj
    obtain ⟨th', hth', hended⟩ := h.ended j hj
    obtain ⟨th'', hth'', -, -, hended'⟩ := hat hth'
    exact ⟨th'', hth'', hended' hended⟩
  · intro id hid
    rcases h.finished id hid with htaken | ⟨j, th', he, hth', hn⟩
    · exact .inl htaken
    · obtain ⟨th'', hth'', -, hn', -⟩ := hat hth'
      exact .inr ⟨j, th'', he, hth'', hn' hn⟩

omit [DecidableEq Id] in
/-- `finished_threads_.push_back` by a thread, with no cleaner in its critical section. -/
theorem Tables.push (h : Tables v) (htaken : v.taken = []) (hjoining : v.joining = none)
    (htoDrain : v.toDrain = []) {i : Nat} {th : Thread Id} (hth : v.threads[i]? = some th)
    (hpc : th.progress = .notify) :
    Tables { v with
      threads := v.threads.set i { th with progress := .leave }
      finishedThreads := v.finishedThreads ++ [th.id] } := by
  have hne : th.progress ≠ .ended := by
    rw [hpc]
    decide
  obtain ⟨hnot, hentry⟩ := h.entry_of_not_ended hjoining hth hne
  have hnotified : th.progress.notified = true → Progress.leave.notified = true := fun _ => rfl
  have hmoved := h.setProgress hth hne hnotified
  -- an id is pushed once, or two threads that are not joined would have it
  have hnew : th.id ∉ v.finishedThreads := by
    intro hmem
    rcases h.finished _ hmem with htake | ⟨j, th', he, hth', hn⟩
    · rw [htaken] at htake
      cases htake
    · -- the other thread would have the same id, and not be joined
      have hji : j ≠ i := by
        intro hji
        subst hji
        rw [hth] at hth'
        cases hth'
        rw [hpc] at hn
        cases hn
      -- the entry for the other thread is under its id as well
      obtain ⟨th'', hth'', hid⟩ := h.entry _ j he
      rw [hth'] at hth''
      cases hth''
      have hnotj : j ∉ v.joined := by
        cases hdraining : v.draining with
        | false => exact h.unreaped hdraining j (View.mem_values he)
        | true =>
          -- past the final loop every thread of the map is joined
          exfalso
          rcases (h.drain hdraining).2 i (View.mem_values hentry) with hdrain | hjoined
          · rw [htoDrain] at hdrain
            cases hdrain
          · exact hnot hjoined
      exact hji (h.fresh j i th' th hth' hth hnotj hnot hid)
  refine { hmoved with
    finishedNodup := ?_
    finished := ?_
    visit := ?_ }
  · show (v.finishedThreads ++ [th.id]).Nodup
    rw [← List.concat_eq_append]
    exact h.finishedNodup.concat hnew
  · intro id hid
    rcases List.mem_append.mp hid with hid | hid
    · exact hmoved.finished id hid
    · rw [List.mem_singleton.mp hid]
      exact .inr ⟨i, _, hentry, List.getElem?_set_self (lt_length_of_getElem? hth), rfl⟩
  · intro id hid
    exact List.mem_append_left _ (h.visit id hid)

omit [DecidableEq Id] in
/-- `on_data_available` creates a thread and inserts it. -/
theorem Tables.create (h : Tables v) (hdraining : v.draining = false)
    (hjoining : v.joining = none) {id : Id}
    (hid : ∀ (i : Nat) (th : Thread Id), v.threads[i]? = some th → th.id = id → i ∈ v.joined) :
    id ∉ v.receptionThreads.map Prod.fst ∧
      Tables { v with
        threads := v.threads ++ [⟨id, .running⟩]
        receptionThreads := v.receptionThreads ++ [(id, v.threads.length)] } := by
  -- `emplace` finds no entry: threads of the map are not joined, and this id is free
  have hkey : id ∉ v.receptionThreads.map Prod.fst := by
    intro hmem
    obtain ⟨⟨id', i⟩, he, hid'⟩ := List.mem_map.mp hmem
    have heq : id' = id := hid'
    subst heq
    obtain ⟨th, hth, hthid⟩ := h.entry id' i he
    exact h.unreaped hdraining i (View.mem_values he) (hid i th hth hthid)
  -- the new thread comes behind the others, whose numbers stay
  have hold {i : Nat} {th : Thread Id} (hth : v.threads[i]? = some th) :
      (v.threads ++ [⟨id, .running⟩])[i]? = some th := by
    rw [List.getElem?_append_left (lt_length_of_getElem? hth), hth]
  have hlt {i : Nat} (hi : i ∈ v.receptionThreads.map Prod.snd) : i < v.threads.length := by
    obtain ⟨⟨id', j⟩, he, hj⟩ := List.mem_map.mp hi
    obtain ⟨th, hth, -⟩ := h.entry id' j he
    have hji : j = i := hj
    rw [hji] at hth
    exact lt_length_of_getElem? hth
  have hjoinedLt {i : Nat} (hi : i ∈ v.joined) : i < v.threads.length := by
    obtain ⟨th, hth, -⟩ := h.ended i hi
    exact lt_length_of_getElem? hth
  refine ⟨hkey, ?_⟩
  refine { h with
    entry := ?_
    keys := ?_
    values := ?_
    fresh := ?_
    kept := ?_
    unreaped := ?_
    joining := ?_
    ended := ?_
    finished := ?_
    drain := ?_ }
  · intro id' i he
    rcases List.mem_append.mp he with he | he
    · obtain ⟨th, hth, hthid⟩ := h.entry id' i he
      exact ⟨th, hold hth, hthid⟩
    · cases List.mem_singleton.mp he
      exact ⟨⟨id, .running⟩, List.getElem?_concat_length, rfl⟩
  · show ((v.receptionThreads ++ [_]).map Prod.fst).Nodup
    rw [List.map_append, List.map_singleton, ← List.concat_eq_append]
    exact h.keys.concat hkey
  · show ((v.receptionThreads ++ [_]).map Prod.snd).Nodup
    rw [List.map_append, List.map_singleton, ← List.concat_eq_append]
    -- its number has not been given before
    exact h.values.concat fun hmem => absurd (hlt hmem) (Nat.lt_irrefl _)
  · -- the id is that of joined threads only
    intro i j ti tj hi hj hni hnj hidij
    rcases getElem?_concat_cases hi with hi | ⟨hlasti, rfl⟩
    · rcases getElem?_concat_cases hj with hj | ⟨-, rfl⟩
      · exact h.fresh i j ti tj hi hj hni hnj hidij
      · exact absurd (hid i ti hi hidij) hni
    · rcases getElem?_concat_cases hj with hj | ⟨hlastj, -⟩
      · exact absurd (hid j tj hj hidij.symm) hnj
      · rw [hlasti, hlastj]
  · intro i hi
    replace hi : i < (v.threads ++ [(⟨id, .running⟩ : Thread Id)]).length := hi
    rw [List.length_append, List.length_singleton] at hi
    show i ∈ (v.receptionThreads ++ [_]).map Prod.snd ∨ _
    rw [List.map_append, List.mem_append]
    by_cases hlast : i = v.threads.length
    · exact .inl (.inr (by rw [hlast]; exact List.mem_singleton_self _))
    · exact (h.kept i (by omega)).imp_left .inl
  · intro _ i hi hjoined
    have hi' : i ∈ (v.receptionThreads ++ [(id, v.threads.length)]).map Prod.snd := hi
    rw [List.map_append, List.mem_append] at hi'
    rcases hi' with hi | hi
    · exact h.unreaped hdraining i hi hjoined
    · rw [List.mem_singleton.mp hi] at hjoined
      exact absurd (hjoinedLt hjoined) (Nat.lt_irrefl _)
  · intro i hi
    have hi' : v.joining = some i := hi
    rw [hjoining] at hi'
    cases hi'
  · intro i hi
    obtain ⟨th, hth, hended⟩ := h.ended i hi
    exact ⟨th, hold hth, hended⟩
  · intro id' hid'
    rcases h.finished id' hid' with htaken | ⟨i, th, he, hth, hn⟩
    · exact .inl htaken
    · exact .inr ⟨i, th, List.mem_append_left _ he, hold hth, hn⟩
  -- drain: nothing is created any more once `stop_cleaner_` has been seen
  · intro hdrain
    have hdrain' : v.draining = true := hdrain
    rw [hdraining] at hdrain'
    cases hdrain'

/-- The cleaner takes the thread of an id it visits out of the map; it is always there. -/
theorem Tables.take (h : Tables v) {id : Id} {rest : List Id} (hvisit : v.toVisit = id :: rest)
    (hjoining : v.joining = none) (hdraining : v.draining = false) :
    ∃ i, v.receptionThreads.lookup id = some i ∧
      Tables { v with
        receptionThreads := v.receptionThreads.filter fun e => e.1 ≠ id
        taken := v.taken ++ [id]
        toVisit := rest
        joining := some i } := by
  have hnodup := h.visitNodup
  rw [hvisit] at hnodup
  have hfinished : id ∈ v.finishedThreads :=
    h.visit id (List.mem_append_right _ (by rw [hvisit]; exact List.mem_cons_self))
  have hnew : id ∉ v.taken := by
    intro hmem
    rw [List.nodup_append] at hnodup
    exact hnodup.2.2 id hmem id List.mem_cons_self rfl
  -- what is visited has not been taken yet, so its thread is in the map
  obtain ⟨i, th, hentry, hth, hn⟩ : v.Awaits id := (h.finished id hfinished).resolve_left hnew
  have hsub : (v.receptionThreads.filter fun e => e.1 ≠ id).Sublist v.receptionThreads :=
    List.filter_sublist
  have hmem {e : Id × Nat} (he : e ∈ v.receptionThreads.filter fun e => e.1 ≠ id) :
      e ∈ v.receptionThreads ∧ e.1 ≠ id := by
    rw [List.mem_filter, decide_eq_true_eq] at he
    exact he
  refine ⟨i, Lookup.lookup_of_mem h.keys hentry, ?_⟩
  refine { h with
    entry := ?_
    keys := (hsub.map Prod.fst).nodup h.keys
    values := (hsub.map Prod.snd).nodup h.values
    kept := ?_
    unreaped := ?_
    joining := ?_
    finished := ?_
    visitNodup := ?_
    visit := ?_
    drain := ?_ }
  · exact fun id' j he => h.entry id' j (hmem he).1
  · intro j hj
    rcases h.kept j hj with hvalue | hjoined | hjoin
    · obtain ⟨⟨id', j'⟩, he, hj'⟩ := List.mem_map.mp hvalue
      by_cases hid : id' = id
      -- the entry that is erased is the one of the thread to be joined
      · have heq := List.inj_on_of_nodup_map h.keys he hentry hid
        cases heq
        exact .inr (.inr (congrArg some hj'))
      · refine .inl (List.mem_map.mpr ⟨(id', j'), ?_, hj'⟩)
        rw [List.mem_filter, decide_eq_true_eq]
        exact ⟨he, hid⟩
    · exact .inr (.inl hjoined)
    · rw [hjoining] at hjoin
      cases hjoin
  · exact fun _ j hj => h.unreaped hdraining j ((hsub.map Prod.snd).subset hj)
  · intro j hj
    cases hj
    refine ⟨hdraining, h.unreaped hdraining i (View.mem_values hentry), ?_⟩
    intro hvalue
    obtain ⟨e, he, hei⟩ := List.mem_map.mp hvalue
    -- no other entry is for this thread
    have heq := List.inj_on_of_nodup_map h.values (hmem he).1 hentry hei
    rw [heq] at he
    exact (hmem he).2 rfl
  · intro id' hid'
    show id' ∈ v.taken ++ [id] ∨ _
    rw [List.mem_append, List.mem_singleton]
    by_cases hid : id' = id
    · exact .inl (.inr hid)
    · rcases h.finished id' hid' with htaken | ⟨j, th', he, hth', hn'⟩
      · exact .inl (.inl htaken)
      · refine .inr ⟨j, th', ?_, hth', hn'⟩
        show (id', j) ∈ v.receptionThreads.filter fun e => e.1 ≠ id
        rw [List.mem_filter, decide_eq_true_eq]
        exact ⟨he, hid⟩
  · show (v.taken ++ [id] ++ rest).Nodup
    rw [List.append_assoc, List.singleton_append]
    exact hnodup
  · show ∀ id' ∈ v.taken ++ [id] ++ rest, id' ∈ v.finishedThreads
    rw [List.append_assoc, List.singleton_append, ← hvisit]
    exact h.visit
  · intro hdrain
    have hdrain' : v.draining = true := hdrain
    rw [hdraining] at hdrain'
    cases hdrain'

omit [DecidableEq Id] in
theorem Tables.fresh_of_more (h : Tables v) (i : Nat) (j k : Nat) (tj tk : Thread Id)
    (hj : v.threads[j]? = some tj) (hk : v.threads[k]? = some tk) (hnj : j ∉ v.joined ++ [i])
    (hnk : k ∉ v.joined ++ [i]) (hid : tj.id = tk.id) : j = k :=
  h.fresh j k tj tk hj hk (fun hmem => hnj (List.mem_append_left _ hmem))
    (fun hmem => hnk (List.mem_append_left _ hmem)) hid

omit [DecidableEq Id] in
/-- The thread taken out of the map is joined and deleted. -/
theorem Tables.reap (h : Tables v) {i : Nat} (hjoining : v.joining = some i)
    (htoDrain : v.toDrain = []) {th : Thread Id} (hth : v.threads[i]? = some th)
    (hended : th.progress = .ended) :
    Tables { v with joined := v.joined ++ [i], joining := none } := by
  obtain ⟨hdraining, hnot, hvalue⟩ := h.joining i hjoining
  -- the thread goes from `joining` to `joined`
  refine { h with
    fresh := h.fresh_of_more i
    kept := ?_
    unreaped := ?_
    joining := fun j hj => by cases hj
    ended := ?_
    joined := by
      show (v.joined ++ [i]).Nodup
      rw [← List.concat_eq_append]
      exact h.joined.concat hnot
    drain := ?_
    toDrain := ?_ }
  · intro j hj
    show j ∈ _ ∨ j ∈ v.joined ++ [i] ∨ _
    rw [List.mem_append, List.mem_singleton]
    rcases h.kept j hj with hmem | hjoined | hjoin
    · exact .inl hmem
    · exact .inr (.inl (.inl hjoined))
    · rw [hjoining] at hjoin
      cases hjoin
      exact .inr (.inl (.inr rfl))
  · intro _ j hj hmem
    have hmem' : j ∈ v.joined ++ [i] := hmem
    rw [List.mem_append, List.mem_singleton] at hmem'
    rcases hmem' with hjoined | rfl
    · exact h.unreaped hdraining j hj hjoined
    · exact hvalue hj
  · intro j hj
    have hj' : j ∈ v.joined ++ [i] := hj
    rw [List.mem_append, List.mem_singleton] at hj'
    rcases hj' with hjoined | rfl
    · exact h.ended j hjoined
    · exact ⟨th, hth, hended⟩
  · intro hdrain
    have hdrain' : v.draining = true := hdrain
    rw [hdraining] at hdrain'
    cases hdrain'
  · show v.toDrain.Nodup ∧ ∀ j ∈ v.toDrain, j ∉ v.joined ++ [i]
    rw [htoDrain]
    exact ⟨List.nodup_nil, List.forall_mem_nil _⟩

/-- An id whose thread is deleted is erased from `finished_threads_`. -/
theorem Tables.prune (h : Tables v) {id : Id} {rest : List Id} (htaken : v.taken = id :: rest)
    (hvisit : v.toVisit = []) :
    Tables { v with finishedThreads := v.finishedThreads.erase id, taken := rest } := by
  -- `stopped` has each id once, so `erase` takes the right one out and no other
  have hnodup := h.visitNodup
  rw [htaken, hvisit, List.append_nil, List.nodup_cons] at hnodup
  refine { h with
    finishedNodup := h.finishedNodup.erase id
    finished := ?_
    visitNodup := ?_
    visit := ?_ }
  · intro id' hid'
    have hid : id' ≠ id ∧ id' ∈ v.finishedThreads := h.finishedNodup.mem_erase_iff.mp hid'
    rcases h.finished id' hid.2 with hmem | hawaits
    · rw [htaken, List.mem_cons] at hmem
      exact .inl (hmem.resolve_left hid.1)
    · exact .inr hawaits
  · show (rest ++ v.toVisit).Nodup
    rw [hvisit, List.append_nil]
    exact hnodup.2
  · show ∀ id' ∈ rest ++ v.toVisit, id' ∈ v.finishedThreads.erase id
    rw [hvisit, List.append_nil]
    intro id' hid'
    rw [h.finishedNodup.mem_erase_iff]
    refine ⟨fun heq => hnodup.1 (heq ▸ hid'), h.visit id' (List.mem_append_left _ ?_)⟩
    rw [htaken]
    exact List.mem_cons_of_mem _ hid'

omit [DecidableEq Id] in
theorem Tables.startScan (h : Tables v) (htaken : v.taken = []) :
    Tables { v with toVisit := v.finishedThreads } := by
  -- nothing is taken at the start, and everything is to be visited
  refine { h with
    visitNodup := ?_
    visit := ?_ }
  · show (v.taken ++ v.finishedThreads).Nodup
    rw [htaken, List.nil_append]
    exact h.finishedNodup
  · show ∀ id ∈ v.taken ++ v.finishedThreads, id ∈ v.finishedThreads
    rw [htaken, List.nil_append]
    exact fun _ hid => hid

omit [DecidableEq Id] in
/-- The final loop is over all threads that are still in the map. -/
theorem Tables.startDrain (h : Tables v) (hdraining : v.draining = false)
    (hjoining : v.joining = none) (hstop : v.stopCleaner = true) :
    Tables { v with toDrain := v.receptionThreads.map Prod.snd, draining := true } := by
  refine { h with
    unreaped := fun hfalse => by cases hfalse
    joining := ?_
    drain := fun _ => ⟨hstop, fun i hi => .inl hi⟩
    toDrain := ⟨h.values, h.unreaped hdraining⟩ }
  intro i hi
  have hi' : v.joining = some i := hi
  rw [hjoining] at hi'
  cases hi'

omit [DecidableEq Id] in
/-- The final loop joins and deletes a thread, and leaves the map as it is. -/
theorem Tables.drainOne (h : Tables v) {i : Nat} {rest : List Nat}
    (htoDrain : v.toDrain = i :: rest)
    (hdraining : v.draining = true) {th : Thread Id} (hth : v.threads[i]? = some th)
    (hended : th.progress = .ended) :
    Tables { v with joined := v.joined ++ [i], toDrain := rest } := by
  obtain ⟨hnodup, hnot⟩ := h.toDrain
  rw [htoDrain] at hnodup hnot
  rw [List.nodup_cons] at hnodup
  refine { h with
    fresh := h.fresh_of_more i
    kept := ?_
    unreaped := ?_
    joining := ?_
    ended := ?_
    joined := by
      show (v.joined ++ [i]).Nodup
      rw [← List.concat_eq_append]
      exact h.joined.concat (hnot i List.mem_cons_self)
    drain := ?_
    toDrain := ⟨hnodup.2, ?_⟩ }
  · intro j hj
    show j ∈ _ ∨ j ∈ v.joined ++ [i] ∨ _
    rw [List.mem_append]
    exact (h.kept j hj).imp_right fun hor => hor.imp_left .inl
  · intro hfalse
    have hfalse' : v.draining = false := hfalse
    rw [hdraining] at hfalse'
    cases hfalse'
  · intro j hj
    -- past the last iteration nothing is taken out of the map
    have hfalse := (h.joining j hj).1
    rw [hdraining] at hfalse
    cases hfalse
  · intro j hj
    have hj' : j ∈ v.joined ++ [i] := hj
    rw [List.mem_append, List.mem_singleton] at hj'
    rcases hj' with hjoined | rfl
    · exact h.ended j hjoined
    · exact ⟨th, hth, hended⟩
  · intro _
    obtain ⟨hstop, hall⟩ := h.drain hdraining
    refine ⟨hstop, ?_⟩
    intro j hj
    show j ∈ rest ∨ j ∈ v.joined ++ [i]
    rw [List.mem_append, List.mem_singleton]
    rcases hall j hj with hdrain | hjoined
    · rw [htoDrain, List.mem_cons] at hdrain
      exact hdrain.symm.imp_right .inr
    · exact .inr (.inl hjoined)
  · intro j hj hmem
    have hmem' : j ∈ v.joined ++ [i] := hmem
    rw [List.mem_append, List.mem_singleton] at hmem'
    rcases hmem' with hjoined | rfl
    · exact hnot j (List.mem_cons_of_mem _ hj) hjoined
    · exact hnodup.1 hj

omit [DecidableEq Id] in
theorem Tables.stop (h : Tables v) : Tables { v with stopCleaner := true } :=
  { h with drain := fun hdrain => ⟨rfl, (h.drain hdrain).2⟩ }

end Tables

/-! ## Every step keeps the invariant -/

omit [DecidableEq Id] in
theorem Inv.of_view (h : Inv s) (hlocked : Locked s') (hview : s'.view = s.view) : Inv s' := by
  refine ⟨hlocked, ?_⟩
  rw [hview]
  exact h.tables

omit [DecidableEq Id] in
/-- While somebody else holds the mutex the cleaner is between two iterations. -/
theorem Inv.cleaner_outside (h : Inv s) (hmtx : s.cleanerMtx ≠ some .cleaner) :
    s.cleaner.taken = [] ∧ s.cleaner.joining = none ∧ s.cleaner.toDrain = [] := by
  -- in the middle of an iteration it would hold the mutex itself
  apply CleanerPc.of_not_holds
  rw [Bool.eq_false_iff]
  exact fun hholds => hmtx (h.locked.cleaner hholds)

theorem joined_of_isFree {id : Id} (h : s.isFree id = true) {i : Nat} {th : Thread Id}
    (hth : s.threads[i]? = some th) (hid : th.id = id) : i ∈ s.joined := by
  unfold State.isFree at h
  rw [List.all_eq_true] at h
  have hmem : (th, i) ∈ s.threads.zipIdx := by
    rw [List.mem_zipIdx_iff_getElem?]
    exact hth
  exact of_decide_eq_true (h (th, i) hmem) hid

theorem stepListener_inv {created : Option Id} (h : Inv s)
    (hstep : stepListener s created = some s') : Inv s' := by
  have hlocked := stepListener_locked h.locked hstep
  unfold stepListener at hstep
  split at hstep
  · split at hstep
    · cases hstep
      exact h.of_view hlocked rfl
    · cases hstep
  · rename_i hpc
    split at hstep
    · cases hstep
      exact h.of_view hlocked rfl
    · rename_i id
      split at hstep
      · rename_i hcreate
        cases hstep
        obtain ⟨hstop, hfree⟩ := hcreate
        have hmtx : s.cleanerMtx = some .listener := h.locked.listener (by rw [hpc]; decide)
        obtain ⟨-, hjoining, -⟩ := h.cleaner_outside (by rw [hmtx]; decide)
        -- the listener has read `stop_cleaner_` as false, so the final loop has not begun
        have hdraining : s.cleaner.draining = false := by
          rw [Bool.eq_false_iff]
          intro hdraining
          have hstop' : s.stopCleaner = true := (h.tables.drain hdraining).1
          rw [hstop] at hstop'
          cases hstop'
        have hreusable : ∀ (i : Nat) (th : Thread Id), s.threads[i]? = some th → th.id = id →
            i ∈ s.joined := fun i th hth hid => joined_of_isFree hfree hth hid
        obtain ⟨hkey, hcreated⟩ := h.tables.create hdraining hjoining hreusable
        refine ⟨hlocked, ?_⟩
        -- the key is not there, and the entry is made
        have hemplace : s.emplace id s.threads.length =
            s.receptionThreads ++ [(id, s.threads.length)] := if_neg hkey
        rw [hemplace]
        exact hcreated
      · cases hstep
  · cases hstep
    exact h.of_view hlocked rfl

omit [DecidableEq Id] in
theorem stepThread_inv {i : Nat} {notifies : Bool} (h : Inv s)
    (hstep : stepThread r s i notifies = some s') : Inv s' := by
  have hlocked := stepThread_locked h.locked hstep
  unfold stepThread at hstep
  split at hstep
  · cases hstep
  · rename_i th hth
    split at hstep
    · rename_i hpc
      have hne : th.progress ≠ .ended := by
        rw [hpc]
        decide
      have hnotified {progress : Progress} :
          th.progress.notified = true → progress.notified = true := by
        rw [hpc]
        intro hfalse
        cases hfalse
      split at hstep
      · split at hstep
        · cases hstep
          exact ⟨hlocked, h.tables.setProgress hth hne hnotified⟩
        · cases hstep
      · split at hstep
        · cases hstep
          exact ⟨hlocked, h.tables.setProgress hth hne hnotified⟩
        · cases hstep
    · rename_i hpc
      -- while the thread pushes its id, the cleaner is between two iterations
      have hmtx : s.cleanerMtx = some (.thread i) := h.locked.thread i th hth (by rw [hpc]; rfl)
      obtain ⟨htaken, hjoining, htoDrain⟩ := h.cleaner_outside (by rw [hmtx]; simp)
      cases hstep
      exact ⟨hlocked, h.tables.push htaken hjoining htoDrain hth hpc⟩
    · rename_i hpc
      have hne : th.progress ≠ .ended := by
        rw [hpc]
        decide
      cases hstep
      exact ⟨hlocked, h.tables.setProgress hth hne fun _ => rfl⟩
    · cases hstep

omit [DecidableEq Id] in
theorem of_hasEnded {i : Nat} (h : s.hasEnded i = true) :
    ∃ th : Thread Id, s.threads[i]? = some th ∧ th.progress = .ended := by
  unfold State.hasEnded at h
  split at h
  · rename_i th hth
    exact ⟨th, hth, of_decide_eq_true h⟩
  · cases h

theorem stepCleaner_inv (h : Inv s) (hstep : stepCleaner s = some s') : Inv s' := by
  have hlocked := stepCleaner_locked h.locked hstep
  have htables := h.tables
  unfold State.view at htables
  unfold stepCleaner at hstep
  cases hpc : s.cleaner with
  | start | wait | sleep =>
    rw [hpc] at hstep htables
    simp only at hstep
    split at hstep
    · cases hstep
      exact ⟨hlocked, htables⟩
    · cases hstep
  | test =>
    rw [hpc] at hstep htables
    simp only at hstep
    split at hstep
    · rename_i hstop
      cases hstep
      exact ⟨hlocked, htables.startDrain rfl rfl hstop⟩
    · cases hstep
      exact ⟨hlocked, htables⟩
  | waitTest =>
    rw [hpc] at hstep htables
    simp only at hstep
    split at hstep
    · cases hstep
      exact ⟨hlocked, htables.startScan rfl⟩
    · cases hstep
      exact ⟨hlocked, htables⟩
  | scan rest stopped =>
    rw [hpc] at hstep htables
    cases rest with
    | nil =>
      cases hstep
      exact ⟨hlocked, htables⟩
    | cons id rest =>
      -- the case that an id is not in the map does not come up
      obtain ⟨i, hlookup, htake⟩ := htables.take rfl rfl rfl
      have hlookup' : s.receptionThreads.lookup id = some i := hlookup
      simp only [hlookup'] at hstep
      cases hstep
      exact ⟨hlocked, htake⟩
  | join id i rest stopped =>
    rw [hpc] at hstep htables
    simp only at hstep
    split at hstep
    · rename_i hended
      obtain ⟨th, hth, hended⟩ := of_hasEnded hended
      cases hstep
      exact ⟨hlocked, htables.reap rfl rfl hth hended⟩
    · cases hstep
  | prune rest =>
    rw [hpc] at hstep htables
    cases rest with
    | nil =>
      cases hstep
      exact ⟨hlocked, htables⟩
    | cons id rest =>
      cases hstep
      exact ⟨hlocked, htables.prune rfl rfl⟩
  | drain rest =>
    rw [hpc] at hstep htables
    cases rest with
    | nil =>
      cases hstep
      exact ⟨hlocked, htables⟩
    | cons i rest =>
      cases hstep
      exact ⟨hlocked, htables⟩
  | drainJoin i rest =>
    rw [hpc] at hstep htables
    simp only at hstep
    split at hstep
    · rename_i hended
      obtain ⟨th, hth, hended⟩ := of_hasEnded hended
      cases hstep
      exact ⟨hlocked, htables.drainOne rfl rfl hth hended⟩
    · cases hstep
  | done =>
    rw [hpc] at hstep
    cases hstep

omit [DecidableEq Id] in
theorem stepDestructor_inv (h : Inv s) (hstep : stepDestructor s = some s') : Inv s' := by
  have hlocked := stepDestructor_locked h.locked hstep
  unfold stepDestructor at hstep
  split at hstep
  · split at hstep
    · cases hstep
      exact h.of_view hlocked rfl
    · cases hstep
  · cases hstep
    exact ⟨hlocked, h.tables.stop⟩
  · cases hstep

theorem inv_of_reachable (h : (machine r).Reachable s) : Inv s := by
  -- on the run, by the steps of each activity
  refine h.invariant ?_ ?_
  · rintro s rfl
    exact inv_initial
  · intro s a s' hinv hstep
    cases a with
    | listener created => exact stepListener_inv hinv hstep
    | thread i notifies => exact stepThread_inv hinv hstep
    | cleaner => exact stepCleaner_inv hinv hstep
    | destructor => exact stepDestructor_inv hinv hstep

/-! ## Threads are reaped once -/

/-- Every thread is in the map or joined, and an id in `finished_threads_` is a key of the map. -/
structure Accounted (s : State Id) : Prop where
  finishedKeys : ∀ id ∈ s.finishedThreads, id ∈ s.receptionThreads.map Prod.fst
  kept : ∀ i < s.threads.length, i ∈ s.receptionThreads.map Prod.snd ∨ i ∈ s.joined

/-- The ids in `finished_threads_` are distinct, and no thread is joined and deleted twice; whenever
the cleaner is not in the middle of an iteration, every thread is accounted for. -/
theorem threads_reaped_once (h : (machine r).Reachable s) :
    s.finishedThreads.Nodup ∧ s.joined.Nodup ∧
      (∀ id ∈ s.finishedThreads,
        id ∈ s.receptionThreads.map Prod.fst ∨ id ∈ s.cleaner.taken) ∧
      (∀ i < s.threads.length,
        i ∈ s.receptionThreads.map Prod.snd ∨ i ∈ s.joined ∨ s.cleaner.joining = some i) ∧
      (s.cleanerMtx ≠ some .cleaner → Accounted s) := by
  have hinv := inv_of_reachable h
  have hfinished : ∀ id ∈ s.finishedThreads,
      id ∈ s.receptionThreads.map Prod.fst ∨ id ∈ s.cleaner.taken := by
    intro id hid
    rcases hinv.tables.finished id hid with htaken | ⟨i, th, hentry, -, -⟩
    · exact .inr htaken
    · exact .inl (List.mem_map_of_mem (f := Prod.fst) hentry)
  refine ⟨hinv.tables.finishedNodup, hinv.tables.joined, hfinished, hinv.tables.kept, ?_⟩
  intro hmtx
  -- outside its iterations nothing is in the cleaner's hands
  obtain ⟨htaken, hjoining, -⟩ := hinv.cleaner_outside hmtx
  constructor
  · intro id hid
    refine (hfinished id hid).resolve_right ?_
    rw [htaken]
    exact List.not_mem_nil
  · intro i hi
    refine (hinv.tables.kept i hi).imp_right fun hor => hor.resolve_right ?_
    show s.cleaner.joining ≠ some i
    rw [hjoining]
    exact (Option.some_ne_none i).symm

/-- A thread with id 7 is joined by the cleaner, its id is given to the next thread, and the final
loop joins that one. -/
def reusedIdRun : List (Event Nat) :=
  [.listener none, .listener (some 7), .listener none,
    .thread 0 true, .thread 0 true, .thread 0 true,
    .cleaner, .cleaner, .cleaner, .cleaner, .cleaner, .cleaner, .cleaner, .cleaner,
    .listener none, .listener (some 7), .listener none,
    .thread 1 true, .thread 1 true, .thread 1 true,
    .destructor, .destructor, .cleaner, .cleaner, .cleaner, .cleaner, .cleaner]

theorem threads_reaped_once_reusedIdRun :
    ∃ s, (machine .client).run (.initial : State Nat) reusedIdRun = some s ∧
      s.joined = [0, 1] ∧ s.joined.Nodup ∧ (s.cleanerMtx ≠ some .cleaner → Accounted s) := by
  have hfinal : ((machine .client).run (.initial : State Nat) reusedIdRun).map (·.joined) =
      some [0, 1] := by
    decide +kernel
  obtain ⟨s, hrun, hs⟩ := Option.map_eq_some_iff.mp hfinal
  have hreach : (machine .client).Reachable (.initial : State Nat) := Machine.ReachableVia.init rfl
  obtain ⟨-, hjoined, -, -, haccounted⟩ := threads_reaped_once (hreach.of_run reusedIdRun hrun)
  exact ⟨s, hrun, hs, hjoined, haccounted⟩

end FastDdsSh.Reception.Reaping
