import FastDdsSh.Reception.HandOver
import FastDdsSh.Reception.Buffer
import FastDdsSh.Reception.Shutdown

/-!
# When the destructor comes to its end

The destructor waits for the cleaner, and the cleaner for the reception threads.  From a reachable
state they all can end, unless the cleaner is in its final loop, or about to enter it, with a thread
ahead that cannot end without locking `cleaner_mtx_`; from there no run leads to the end of the
destructor.  A thread of a server that has yet to look up its reply needs the mutex only if the
reply is to a request of this server.
-/

namespace FastDdsSh.Reception

open Transition

variable {C I M : Type} {r : Receiver} {fastddsToXtypes : C → Option M} {s s' : State C I M}

/-! ## Who holds the cleaner mutex -/

def ThreadPc.inSection : ThreadPc M → Bool
  | .notify | .leave => true
  | _ => false

def CleanerPc.inSection : CleanerPc → Bool
  | .start | .wait | .sleep | .done => false
  | _ => true

def State.inSection (s : State C I M) : Activity → Prop
  | .listener => s.listener ≠ .idle
  | .thread id => ∃ th : Thread C I M, s.threads[id]? = some th ∧ th.pc.inSection = true
  | .cleaner => s.cleaner.inSection = true
  | .destructor => s.destructor = .setStop

theorem State.inSection.mono {a : Activity} (h : s.inSection a)
    (hlistener : s.listener ≠ .idle → s'.listener ≠ .idle)
    (hthreads : ∀ (id : Nat) (th : Thread C I M), s.threads[id]? = some th →
      th.pc.inSection = true →
      ∃ th' : Thread C I M, s'.threads[id]? = some th' ∧ th'.pc.inSection = true)
    (hcleaner : s.cleaner.inSection = true → s'.cleaner.inSection = true)
    (hdestructor : s.destructor = .setStop → s'.destructor = .setStop) : s'.inSection a := by
  cases a with
  | listener => exact hlistener h
  | thread id =>
    obtain ⟨th, hth, hsection⟩ := h
    exact hthreads id th hth hsection
  | cleaner => exact hcleaner h
  | destructor => exact hdestructor h

def Held (s : State C I M) : Prop :=
  ∀ a, s.cleanerMtx = some a → s.inSection a

theorem Held.of_free (h : s.cleanerMtx = none) : Held s := by
  intro a ha
  rw [h] at ha
  cases ha

theorem Held.of_holder {a : Activity} (h : s.cleanerMtx = some a) (ha : s.inSection a) :
    Held s := by
  intro b hb
  rw [h] at hb
  cases hb
  exact ha

theorem Held.mono (h : Held s) (hmtx : s'.cleanerMtx = s.cleanerMtx)
    (hlistener : s.listener ≠ .idle → s'.listener ≠ .idle)
    (hthreads : ∀ (id : Nat) (th : Thread C I M), s.threads[id]? = some th →
      th.pc.inSection = true →
      ∃ th' : Thread C I M, s'.threads[id]? = some th' ∧ th'.pc.inSection = true)
    (hcleaner : s.cleaner.inSection = true → s'.cleaner.inSection = true)
    (hdestructor : s.destructor = .setStop → s'.destructor = .setStop) : Held s' := by
  intro a ha
  rw [hmtx] at ha
  exact (h a ha).mono hlistener hthreads hcleaner hdestructor

theorem unlockData_control (s : State C I M) (a : Activity) :
    (s.unlockData a).cleanerMtx = s.cleanerMtx ∧ (s.unlockData a).stopCleaner = s.stopCleaner ∧
      (s.unlockData a).listener = s.listener ∧ (s.unlockData a).destructor = s.destructor := by
  unfold State.unlockData
  split <;> exact ⟨rfl, rfl, rfl, rfl⟩

theorem takeSample_control (r : Receiver) (s : State C I M) (result : Option (Taken C I)) :
    (takeSample r s result).cleanerMtx = s.cleanerMtx ∧
      (takeSample r s result).stopCleaner = s.stopCleaner ∧
      (takeSample r s result).cleaner = s.cleaner ∧
      (takeSample r s result).destructor = s.destructor ∧
      ∀ (id : Nat) (th : Thread C I M), s.threads[id]? = some th →
        (takeSample r s result).threads[id]? = some th := by
  have hunlock (t : State C I M) : (t.unlockData .listener).cleanerMtx = t.cleanerMtx ∧
      (t.unlockData .listener).stopCleaner = t.stopCleaner ∧
      (t.unlockData .listener).cleaner = t.cleaner ∧
      (t.unlockData .listener).destructor = t.destructor ∧
      ∀ (id : Nat) (th : Thread C I M), t.threads[id]? = some th →
        (t.unlockData .listener).threads[id]? = some th := by
    obtain ⟨hmtx, hstop, -, hdestructor⟩ := unlockData_control t .listener
    obtain ⟨hthreads, -, -, -, -, hcleaner⟩ := unlockData_fields (s := t) .listener
    exact ⟨hmtx, hstop, hcleaner, hdestructor, fun id th hth => by rw [hthreads, hth]⟩
  cases result with
  | none => exact hunlock s
  | some t =>
    simp only [takeSample]
    split
    · refine ⟨rfl, rfl, rfl, rfl, fun id th hth => ?_⟩
      show (s.threads ++ _)[id]? = some th
      rw [List.getElem?_append_left (lt_length_of_getElem? hth), hth]
    · exact hunlock { s with dynamicData := some t.data }

theorem stepListener_held {result : Option (Taken C I)} (h : Held s)
    (hstep : stepListener r s result = some s') : Held s' := by
  unfold stepListener at hstep
  split at hstep
  · split at hstep <;> cases hstep
    exact .of_holder (a := .listener) rfl nofun
  · split at hstep <;> cases hstep
    exact h.mono rfl (fun _ => nofun) (fun id th hth hs => ⟨th, hth, hs⟩) id id
  · split at hstep <;> cases hstep
    · obtain ⟨hmtx, -, -, hdestructor⟩ := unlockData_control s .listener
      obtain ⟨hthreads, -, -, -, -, hcleaner⟩ := unlockData_fields (s := s) .listener
      exact h.mono hmtx (fun _ => nofun) (fun id th hth hs => ⟨th, by rw [← hth, ← hthreads], hs⟩)
        (fun hs => hcleaner ▸ hs) (fun hs => hdestructor ▸ hs)
    · obtain ⟨hmtx, -, hcleaner, hdestructor, hthreads⟩ := takeSample_control r s result
      exact h.mono hmtx (fun _ => nofun) (fun id th hth hs => ⟨th, hthreads id th hth, hs⟩)
        (fun hs => hcleaner ▸ hs) (fun hs => hdestructor ▸ hs)
  · cases hstep
    exact .of_free rfl

/-- A thread that is in no critical section moves on. -/
theorem Held.setThread {id : Nat} {th th' : Thread C I M} (h : Held s)
    (hth : s.threads[id]? = some th)
    (hsection : th.pc.inSection = true → th'.pc.inSection = true)
    (hthreads : s'.threads = s.threads.set id th') (hmtx : s'.cleanerMtx = s.cleanerMtx)
    (hlistener : s'.listener = s.listener) (hcleaner : s'.cleaner = s.cleaner)
    (hdestructor : s'.destructor = s.destructor) : Held s' := by
  refine h.mono hmtx (fun hs => hlistener ▸ hs) ?_ (fun hs => hcleaner ▸ hs)
    (fun hs => hdestructor ▸ hs)
  rw [hthreads]
  intro i u hu hs
  by_cases hi : id = i
  · subst hi
    rw [hth] at hu
    cases hu
    exact ⟨th', List.getElem?_set_self (lt_length_of_getElem? hth), hsection hs⟩
  · exact ⟨u, by rw [List.getElem?_set_ne hi, hu], hs⟩

theorem stepThread_held {id : Nat} {branch : Bool} (h : Held s)
    (hstep : stepThread r fastddsToXtypes s id branch = some s') : Held s' := by
  unfold stepThread at hstep
  split at hstep
  · cases hstep
  rename_i th hth
  have hlt := lt_length_of_getElem? hth
  have hunlock {th' : Thread C I M} (hsection : th.pc.inSection = true → th'.pc.inSection = true) :
      Held ((s.setThread id th').unlockData (.thread id)) := by
    obtain ⟨hmtx, -, hlistener, hdestructor⟩ :=
      unlockData_control (s.setThread id th') (.thread id)
    obtain ⟨hthreads, -, -, -, -, hcleaner⟩ :=
      unlockData_fields (s := s.setThread id th') (.thread id)
    exact h.setThread hth hsection hthreads hmtx hlistener hcleaner hdestructor
  split at hstep
  · rename_i hpc
    split at hstep <;> cases hstep
    · exact h.setThread hth (by rw [hpc]; nofun) rfl rfl rfl rfl rfl
    · exact hunlock (by rw [hpc]; nofun)
  · rename_i hpc
    split at hstep <;> cases hstep
    exact h.setThread hth (by rw [hpc]; nofun) rfl rfl rfl rfl rfl
  · rename_i message hpc
    cases hstep
    exact hunlock (by rw [hpc]; nofun)
  · rename_i hpc
    cases hstep
    exact h.setThread hth (by rw [hpc]; nofun) rfl rfl rfl rfl rfl
  · rename_i message hpc
    split at hstep <;> cases hstep <;>
      exact h.setThread hth (by rw [hpc]; nofun) rfl rfl rfl rfl rfl
  · split at hstep <;> cases hstep
    exact .of_holder (a := .thread id) rfl ⟨_, List.getElem?_set_self hlt, rfl⟩
  · cases hstep
    exact h.setThread hth (fun _ => rfl) rfl rfl rfl rfl rfl
  · cases hstep
    exact .of_free rfl
  · cases hstep

theorem stepCleaner_held (h : Held s) (hstep : stepCleaner s = some s') : Held s' := by
  have hsame {pc : CleanerPc} (hsection : pc.inSection = true) (hcleaner : s'.cleaner = pc)
      (hmtx : s'.cleanerMtx = s.cleanerMtx) (hthreads : s'.threads = s.threads)
      (hlistener : s'.listener = s.listener) (hdestructor : s'.destructor = s.destructor) :
      Held s' :=
    h.mono hmtx (fun hs => hlistener ▸ hs)
      (fun id th hth hs => ⟨th, by rw [hthreads, hth], hs⟩) (fun _ => by rw [hcleaner, hsection])
      (fun hs => hdestructor ▸ hs)
  unfold stepCleaner at hstep
  split at hstep <;> (try split at hstep) <;> cases hstep <;>
    first
    | exact .of_free rfl
    | exact .of_holder (a := .cleaner) rfl rfl
    | exact hsame rfl rfl rfl rfl rfl rfl

theorem stepDestructor_held (h : Held s) (hstep : stepDestructor s = some s') : Held s' := by
  have hsame {pc : DestructorPc} (hpc : s.destructor = pc) (hne : pc ≠ .setStop)
      {t : State C I M} (hmtx : t.cleanerMtx = s.cleanerMtx) (hlistener : t.listener = s.listener)
      (hthreads : t.threads = s.threads) (hcleaner : t.cleaner = s.cleaner) : Held t :=
    h.mono hmtx (fun hs => by rw [hlistener]; exact hs)
      (fun id th hth hs => ⟨th, by rw [hthreads, hth], hs⟩) (fun hs => by rw [hcleaner, hs])
      (fun hs => absurd (hpc.symm.trans hs) hne)
  unfold stepDestructor at hstep
  split at hstep
  · split at hstep <;> cases hstep
    exact .of_holder (a := .destructor) rfl rfl
  · cases hstep
    exact .of_free rfl
  · rename_i hpc
    split at hstep <;> cases hstep
    exact hsame hpc nofun rfl rfl rfl rfl
  · rename_i hpc
    split at hstep <;> cases hstep
    exact hsame hpc nofun rfl rfl rfl rfl
  · rename_i hpc
    cases hstep
    obtain ⟨hmtx, -, hlistener, -⟩ :=
      unlockData_control ({ s with dynamicData := none } : State C I M) .destructor
    obtain ⟨hthreads, -, -, -, -, hcleaner⟩ :=
      unlockData_fields (s := { s with dynamicData := none }) .destructor
    exact hsame hpc nofun hmtx hlistener hthreads hcleaner
  · cases hstep

theorem held_of_reachable (h : (machine r fastddsToXtypes (I := I)).Reachable s) : Held s := by
  refine h.invariant ?_ ?_
  · rintro s rfl
    exact .of_free rfl
  · intro s e s' hinv hstep
    cases e with
    | listener result => exact stepListener_held hinv hstep
    | read id =>
      simp only [machine, step, stepRead] at hstep
      split at hstep
      · rename_i th d hth hd
        split at hstep <;> cases hstep
        exact hinv.setThread hth (by exact fun hs => hs) rfl rfl rfl rfl rfl
      · cases hstep
    | thread id branch => exact stepThread_held hinv hstep
    | cleaner => exact stepCleaner_held hinv hstep
    | destructor => exact stepDestructor_held hinv hstep

/-! ## The destructor and the cleaner -/

def DestructorPc.hasStopped : DestructorPc → Bool
  | .idle | .setStop => false
  | _ => true

def DestructorPc.hasJoined : DestructorPc → Bool
  | .lockData | .dispose | .done => true
  | _ => false

structure StopInv (s : State C I M) : Prop where
  stopped : s.stopCleaner = s.destructor.hasStopped
  joined : s.destructor.hasJoined = true → s.cleaner = .done

theorem StopInv.of_eq (h : StopInv s) (hstop : s'.stopCleaner = s.stopCleaner)
    (hdestructor : s'.destructor = s.destructor) (hcleaner : s'.cleaner = s.cleaner) :
    StopInv s' := by
  refine ⟨?_, ?_⟩
  · rw [hstop, hdestructor]
    exact h.stopped
  · rw [hdestructor, hcleaner]
    exact h.joined

theorem stepListener_control {result : Option (Taken C I)}
    (hstep : stepListener r s result = some s') : s'.stopCleaner = s.stopCleaner ∧
      s'.destructor = s.destructor ∧ s'.cleaner = s.cleaner := by
  unfold stepListener at hstep
  split at hstep
  · split at hstep <;> cases hstep
    exact ⟨rfl, rfl, rfl⟩
  · split at hstep <;> cases hstep
    exact ⟨rfl, rfl, rfl⟩
  · split at hstep <;> cases hstep
    · obtain ⟨-, hstop, -, hdestructor⟩ := unlockData_control s .listener
      exact ⟨hstop, hdestructor, (unlockData_fields (s := s) .listener).2.2.2.2.2⟩
    · obtain ⟨-, hstop, hcleaner, hdestructor, -⟩ := takeSample_control r s result
      exact ⟨hstop, hdestructor, hcleaner⟩
  · cases hstep
    exact ⟨rfl, rfl, rfl⟩

theorem stepThread_control {id : Nat} {branch : Bool}
    (hstep : stepThread r fastddsToXtypes s id branch = some s') :
    s'.stopCleaner = s.stopCleaner ∧ s'.destructor = s.destructor ∧ s'.cleaner = s.cleaner ∧
      s'.listener = s.listener ∧ s'.receptionThreads = s.receptionThreads := by
  have hunlock (t : State C I M) : (t.unlockData (.thread id)).stopCleaner = t.stopCleaner ∧
      (t.unlockData (.thread id)).destructor = t.destructor ∧
      (t.unlockData (.thread id)).cleaner = t.cleaner ∧
      (t.unlockData (.thread id)).listener = t.listener ∧
      (t.unlockData (.thread id)).receptionThreads = t.receptionThreads := by
    obtain ⟨-, hstop, hlistener, hdestructor⟩ := unlockData_control t (.thread id)
    exact ⟨hstop, hdestructor, (unlockData_fields (s := t) (.thread id)).2.2.2.2.2, hlistener,
      unlockData_receptionThreads t _⟩
  unfold stepThread at hstep
  split at hstep
  · cases hstep
  rename_i th hth
  split at hstep
  · split at hstep <;> cases hstep
    · exact ⟨rfl, rfl, rfl, rfl, rfl⟩
    · exact hunlock (s.setThread id { th with pc := .ended })
  · split at hstep <;> cases hstep
    exact ⟨rfl, rfl, rfl, rfl, rfl⟩
  · rename_i message hpc
    cases hstep
    exact hunlock (s.setThread id { th with pc := .dispatch message })
  · cases hstep
    exact ⟨rfl, rfl, rfl, rfl, rfl⟩
  · split at hstep <;> cases hstep <;> exact ⟨rfl, rfl, rfl, rfl, rfl⟩
  · split at hstep <;> cases hstep
    exact ⟨rfl, rfl, rfl, rfl, rfl⟩
  · cases hstep
    exact ⟨rfl, rfl, rfl, rfl, rfl⟩
  · cases hstep
    exact ⟨rfl, rfl, rfl, rfl, rfl⟩
  · cases hstep

theorem stepCleaner_stopInv (h : StopInv s) (hstep : stepCleaner s = some s') : StopInv s' := by
  -- the cleaner that was joined does not step
  have hnot : s.destructor.hasJoined = true → False := by
    intro hjoined
    rw [stepCleaner, h.joined hjoined] at hstep
    cases hstep
  have hsame (hstop : s'.stopCleaner = s.stopCleaner) (hdestructor : s'.destructor = s.destructor) :
      StopInv s' := by
    refine ⟨by rw [hstop, hdestructor, h.stopped], fun hjoined => ?_⟩
    rw [hdestructor] at hjoined
    exact (hnot hjoined).elim
  unfold stepCleaner at hstep
  split at hstep <;> (try split at hstep) <;> cases hstep <;> exact hsame rfl rfl

theorem stepDestructor_stopInv (h : StopInv s) (hstep : stepDestructor s = some s') :
    StopInv s' := by
  have hstopped := h.stopped
  unfold stepDestructor at hstep
  split at hstep
  · rename_i hpc
    rw [hpc] at hstopped
    split at hstep <;> cases hstep
    exact ⟨hstopped, nofun⟩
  · cases hstep
    exact ⟨rfl, nofun⟩
  · rename_i hpc
    rw [hpc] at hstopped
    split at hstep
    · rename_i hdone
      cases hstep
      exact ⟨hstopped, fun _ => hdone⟩
    · cases hstep
  · rename_i hpc
    rw [hpc] at hstopped
    split at hstep <;> cases hstep
    exact ⟨hstopped, fun _ => h.joined (by rw [hpc]; rfl)⟩
  · rename_i hpc
    rw [hpc] at hstopped
    cases hstep
    obtain ⟨-, hstop, -, -⟩ :=
      unlockData_control ({ s with dynamicData := none } : State C I M) .destructor
    obtain ⟨-, -, -, -, -, hcleaner⟩ :=
      unlockData_fields (s := { s with dynamicData := none }) .destructor
    exact ⟨hstop.trans hstopped, fun _ => hcleaner.trans (h.joined (by rw [hpc]; rfl))⟩
  · cases hstep

theorem stopInv_of_reachable (h : (machine r fastddsToXtypes (I := I)).Reachable s) :
    StopInv s := by
  refine h.invariant ?_ ?_
  · rintro s rfl
    exact ⟨rfl, nofun⟩
  · intro s e s' hinv hstep
    cases e with
    | listener result =>
      obtain ⟨hstop, hdestructor, hcleaner⟩ := stepListener_control hstep
      exact hinv.of_eq hstop hdestructor hcleaner
    | read id =>
      simp only [machine, step, stepRead] at hstep
      split at hstep
      · split at hstep <;> cases hstep
        exact hinv.of_eq rfl rfl rfl
      · cases hstep
    | thread id branch =>
      obtain ⟨hstop, hdestructor, hcleaner, -⟩ := stepThread_control hstep
      exact hinv.of_eq hstop hdestructor hcleaner
    | cleaner => exact stepCleaner_stopInv hinv hstep
    | destructor => exact stepDestructor_stopInv hinv hstep

/-- When the cleaner is done every thread has ended: the final loop has joined what was left. -/
theorem allEnded_of_cleaner (h : (machine r fastddsToXtypes (I := I)).Reachable s)
    (hdone : s.cleaner = .done) : AllEnded s := by
  have htables := (Reaping.inv_of_reachable (containers_reachable h)).tables
  have hcleaner : s.containers.cleaner = .done := by
    show s.cleaner.containers = .done
    rw [hdone]
    rfl
  have hview : s.containers.view.joining = none ∧ s.containers.view.toDrain = [] ∧
      s.containers.view.draining = true := by
    simp only [Reaping.State.view, hcleaner]
    exact ⟨rfl, rfl, rfl⟩
  obtain ⟨hjoining, hdrain, hdraining⟩ := hview
  intro id th hth
  have hcontainers : s.containers.threads[id]? = some ⟨id, th.pc.progress⟩ := by
    rw [containers_getElem?, hth, Option.map_some]
  have hjoined : id ∈ s.containers.view.joined := by
    rcases htables.kept id (lt_length_of_getElem? hcontainers) with hmap | hjoined | hcon
    · refine ((htables.drain hdraining).2 id hmap).resolve_left ?_
      rw [hdrain]
      exact List.not_mem_nil
    · exact hjoined
    · rw [hjoining] at hcon
      cases hcon
  obtain ⟨u, hu, hended⟩ := htables.ended id hjoined
  have hu' : s.containers.threads[id]? = some u := hu
  rw [hcontainers] at hu'
  cases hu'
  obtain ⟨pc, sample, info, reads⟩ := th
  cases pc <;> first | rfl | cases hended

theorem allEnded_of_done (h : (machine r fastddsToXtypes (I := I)).Reachable s)
    (hdone : s.destructor = .done) : AllEnded s := by
  apply allEnded_of_cleaner h
  apply (stopInv_of_reachable h).joined
  rw [hdone]
  rfl

/-! ## The final loop -/

/-- The threads that the cleaner is to join before it ends, once it is in its final loop or has
locked the mutex for it. -/
def State.toDrain (s : State C I M) : List Nat :=
  match s.cleaner with
  | .test => if s.stopCleaner then s.receptionThreads else []
  | .drain rest => rest
  | .drainJoin id rest => id :: rest
  | _ => []

/-- The thread cannot end without `cleaner_mtx_`; `known` says if its reply is to a request. -/
def ThreadPc.needsCleaner (known : Bool) : ThreadPc M → Bool
  | .lookup => known
  | pc => pc.mustLockCleaner

/-- The cleaner keeps `cleaner_mtx_` until a thread has ended that cannot end without it. -/
def Doomed (known : Nat → Bool) (s : State C I M) : Prop :=
  ∃ id ∈ s.toDrain, ∃ th : Thread C I M, s.threads[id]? = some th ∧
    th.pc.needsCleaner (known id) = true

def agrees (known : Nat → Bool) (s : State C I M) : Event C I → Bool
  | .thread id branch =>
      match (s.threads[id]?).map Thread.pc with
      | some .lookup => branch == known id
      | _ => true
  | _ => true

/-- The runs in which `known` says for each thread how its lookup in `sample_callhandle_` ends. -/
def decided (r : Receiver) (fastddsToXtypes : C → Option M) (known : Nat → Bool) :
    Machine (State C I M) (Event C I) where
  init s := s = .initial
  step s e := if agrees known s e then step r fastddsToXtypes s e else none

variable {known : Nat → Bool}

theorem step_of_decided {e : Event C I}
    (h : (decided r fastddsToXtypes known).step s e = some s') :
    agrees known s e = true ∧ step r fastddsToXtypes s e = some s' := by
  simp only [decided] at h
  split at h
  · rename_i hagrees
    exact ⟨hagrees, h⟩
  · cases h

theorem agrees_of_lookup {id : Nat} {branch : Bool} {th : Thread C I M}
    (h : agrees known s (.thread id branch) = true) (hth : s.threads[id]? = some th)
    (hpc : th.pc = .lookup) : branch = known id := by
  simp only [agrees, hth, Option.map_some, hpc] at h
  exact eq_of_beq h

theorem cleaner_inSection_of_toDrain {id : Nat} (h : id ∈ s.toDrain) :
    s.cleaner.inSection = true := by
  unfold State.toDrain at h
  split at h
  · rename_i hpc
    rw [hpc]
    rfl
  · rename_i hpc
    rw [hpc]
    rfl
  · rename_i hpc
    rw [hpc]
    rfl
  · cases h

theorem cleanerMtx_of_inSection (hinv : Reaping.Inv s.containers)
    (h : s.cleaner.inSection = true) : s.cleanerMtx = some .cleaner := by
  apply hinv.locked.cleaner
  show s.cleaner.containers.holds = true
  cases hpc : s.cleaner <;> rw [hpc] at h <;> first | rfl | cases h

theorem toDrain_mono (hcleaner : s'.cleaner = s.cleaner)
    (hstop : s.stopCleaner = true → s'.stopCleaner = true)
    (hreception : ∀ id ∈ s.receptionThreads, id ∈ s'.receptionThreads) :
    ∀ id ∈ s.toDrain, id ∈ s'.toDrain := by
  intro id hid
  unfold State.toDrain at hid ⊢
  rw [hcleaner]
  split at hid
  · split at hid
    · rename_i hset
      rw [if_pos (hstop hset)]
      exact hreception id hid
    · cases hid
  · exact hid
  · exact hid
  · cases hid

theorem Doomed.mono (h : Doomed known s)
    (hdrain : ∀ id ∈ s.toDrain, id ∈ s'.toDrain)
    (hthreads : ∀ (id : Nat) (th : Thread C I M), s.threads[id]? = some th →
      th.pc.needsCleaner (known id) = true →
      ∃ th' : Thread C I M, s'.threads[id]? = some th' ∧
        th'.pc.needsCleaner (known id) = true) :
    Doomed known s' := by
  obtain ⟨id, hid, th, hth, hmust⟩ := h
  obtain ⟨th', hth', hmust'⟩ := hthreads id th hth hmust
  exact ⟨id, hdrain id hid, th', hth', hmust'⟩

/-- With the mutex taken, no step gets a thread past its lock. -/
theorem stepThread_needsCleaner {id : Nat} {branch : Bool}
    (hmtx : s.cleanerMtx ≠ none) (hagrees : agrees known s (.thread id branch) = true)
    (hstep : stepThread r fastddsToXtypes s id branch = some s') (i : Nat) (u : Thread C I M)
    (hu : s.threads[i]? = some u) (hmust : u.pc.needsCleaner (known i) = true) :
    ∃ u' : Thread C I M, s'.threads[i]? = some u' ∧ u'.pc.needsCleaner (known i) = true := by
  unfold stepThread at hstep
  split at hstep
  · cases hstep
  rename_i th hth
  have hset {th' : Thread C I M} (hthreads : s'.threads = s.threads.set id th')
      (hkeep : th.pc.needsCleaner (known id) = true → th'.pc.needsCleaner (known id) = true) :
      ∃ u' : Thread C I M, s'.threads[i]? = some u' ∧ u'.pc.needsCleaner (known i) = true := by
    rw [hthreads]
    by_cases hi : id = i
    · subst hi
      rw [hth] at hu
      cases hu
      exact ⟨th', List.getElem?_set_self (lt_length_of_getElem? hth), hkeep hmust⟩
    · exact ⟨u, by rw [List.getElem?_set_ne hi, hu], hmust⟩
  split at hstep
  · rename_i hpc
    have hbranch := agrees_of_lookup hagrees hth hpc
    split at hstep <;> cases hstep
    · exact hset rfl fun _ => rfl
    · -- a thread whose lookup fails does not need the mutex
      rename_i hfalse
      refine hset (unlockData_fields _).1 fun hneeds => ?_
      rw [hpc] at hneeds
      exact absurd (hbranch.trans hneeds) hfalse
  · split at hstep <;> cases hstep
    exact hset rfl fun _ => rfl
  · cases hstep
    exact hset (unlockData_fields _).1 fun _ => rfl
  · cases hstep
    exact hset rfl fun _ => rfl
  · split at hstep <;> cases hstep <;> exact hset rfl fun _ => rfl
  · split at hstep
    · exact absurd ‹_› hmtx
    · cases hstep
  · rename_i hpc
    cases hstep
    exact hset rfl (by rw [hpc]; nofun)
  · rename_i hpc
    cases hstep
    exact hset rfl (by rw [hpc]; nofun)
  · cases hstep

theorem stepCleaner_doomed (h : Doomed known s) (hstep : stepCleaner s = some s') :
    Doomed known s' := by
  obtain ⟨id, hid, th, hth, hmust⟩ := h
  have hthreads : s'.threads[id]? = some th := by rw [(stepCleaner_sameData hstep).threads, hth]
  unfold State.toDrain at hid
  unfold stepCleaner at hstep
  split at hid
  · rename_i hpc
    rw [hpc] at hstep
    split at hid
    · rename_i hstop
      simp only [hstop, if_true] at hstep
      cases hstep
      exact ⟨id, hid, th, hthreads, hmust⟩
    · cases hid
  · rename_i rest hpc
    rw [hpc] at hstep
    cases rest with
    | nil => cases hid
    | cons i rest =>
      cases hstep
      exact ⟨id, hid, th, hthreads, hmust⟩
  · rename_i i rest hpc
    rw [hpc] at hstep
    simp only at hstep
    split at hstep <;> cases hstep
    rename_i hended
    refine ⟨id, ?_, th, hthreads, hmust⟩
    -- the thread that was joined is another one: it has ended
    rcases List.mem_cons.mp hid with rfl | hid
    · rw [State.hasEnded, hth] at hended
      simp only at hended
      split at hended
      · rename_i hpc'
        rw [hpc'] at hmust
        cases hmust
      · cases hended
    · exact hid
  · cases hid

theorem stepDestructor_keeps (hstep : stepDestructor s = some s') :
    s'.threads = s.threads ∧ s'.cleaner = s.cleaner ∧ s'.receptionThreads = s.receptionThreads ∧
      (s'.stopCleaner = s.stopCleaner ∨ (s.destructor = .setStop ∧ s'.stopCleaner = true)) := by
  unfold stepDestructor at hstep
  split at hstep
  · split at hstep <;> cases hstep
    exact ⟨rfl, rfl, rfl, .inl rfl⟩
  · rename_i hpc
    cases hstep
    exact ⟨rfl, rfl, rfl, .inr ⟨hpc, rfl⟩⟩
  · split at hstep <;> cases hstep
    exact ⟨rfl, rfl, rfl, .inl rfl⟩
  · split at hstep <;> cases hstep
    exact ⟨rfl, rfl, rfl, .inl rfl⟩
  · cases hstep
    obtain ⟨-, hstop, -, -⟩ :=
      unlockData_control ({ s with dynamicData := none } : State C I M) .destructor
    obtain ⟨hthreads, -, -, -, -, hcleaner⟩ :=
      unlockData_fields (s := { s with dynamicData := none }) .destructor
    exact ⟨hthreads, hcleaner, unlockData_receptionThreads _ _, .inl hstop⟩
  · cases hstep

/-- Once doomed, doomed for good. -/
theorem Doomed.step {e : Event C I} (hinv : Reaping.Inv s.containers) (h : Doomed known s)
    (hagrees : agrees known s e = true) (hstep : step r fastddsToXtypes s e = some s') :
    Doomed known s' := by
  have hmtx : s.cleanerMtx = some .cleaner := by
    obtain ⟨id, hid, -⟩ := h
    exact cleanerMtx_of_inSection hinv (cleaner_inSection_of_toDrain hid)
  cases e with
  | listener result =>
    -- `on_data_available` waits for the mutex
    have hidle : s.listener = .idle := by
      by_contra hbusy
      have hholds : s.containers.listener ≠ .idle := by
        show s.listener.containers ≠ .idle
        cases hpc : s.listener with
        | idle => exact absurd hpc hbusy
        | lockData | take | leave => nofun
      have hmtx' : s.cleanerMtx = some .listener := hinv.locked.listener hholds
      rw [hmtx] at hmtx'
      cases hmtx'
    have hblocked : stepListener r s result = none := by
      rw [stepListener, hidle]
      exact if_neg (by rw [hmtx]; nofun)
    cases hblocked.symm.trans hstep
  | read id =>
    have hstep : stepRead s id = some s' := hstep
    unfold stepRead at hstep
    split at hstep
    · rename_i th d hth hd
      split at hstep <;> cases hstep
      refine h.mono (fun _ hid => hid) fun i u hu hmust => ?_
      by_cases hi : id = i
      · subst hi
        rw [hth] at hu
        cases hu
        exact ⟨_, List.getElem?_set_self (lt_length_of_getElem? hth), hmust⟩
      · exact ⟨u, (List.getElem?_set_ne hi).trans hu, hmust⟩
    · cases hstep
  | thread id branch =>
    obtain ⟨hstop, -, hcleaner, -, hreception⟩ := stepThread_control hstep
    refine h.mono (toDrain_mono hcleaner (fun hset => hstop.trans hset) ?_)
      (stepThread_needsCleaner (by rw [hmtx]; nofun) hagrees hstep)
    rw [hreception]
    exact fun _ hid => hid
  | cleaner => exact stepCleaner_doomed h hstep
  | destructor =>
    obtain ⟨hthreads, hcleaner, hreception, hstop⟩ := stepDestructor_keeps hstep
    have hset : s.stopCleaner = true → s'.stopCleaner = true := by
      intro hset
      rcases hstop with hsame | ⟨-, hset'⟩
      · rw [hsame, hset]
      · exact hset'
    refine h.mono (toDrain_mono hcleaner hset ?_) fun id th hth hmust => ⟨th, ?_, hmust⟩
    · rw [hreception]
      exact fun _ hid => hid
    · rw [hthreads, hth]

/-! ## The threads that the cleaner joins -/

namespace Reaping

variable {Id : Type} [DecidableEq Id] {v v' : Reaping.State Id}

structure Known (v : Reaping.State Id) : Prop where
  finished : ∀ id ∈ v.finishedThreads, ∃ th ∈ v.threads, th.id = id ∧ th.progress.notified = true
  drain : ∀ i ∈ v.cleaner.toDrain, i < v.threads.length

omit [DecidableEq Id] in
theorem Known.mono (h : Known v) (hfinished : ∀ id ∈ v'.finishedThreads, id ∈ v.finishedThreads)
    (hdrain : ∀ i ∈ v'.cleaner.toDrain, i ∈ v.cleaner.toDrain)
    (hlength : v.threads.length ≤ v'.threads.length)
    (hthreads : ∀ th ∈ v.threads, th.progress.notified = true →
      ∃ th' ∈ v'.threads, th'.id = th.id ∧ th'.progress.notified = true) : Known v' := by
  refine ⟨fun id hid => ?_, fun i hi => lt_of_lt_of_le (h.drain i (hdrain i hi)) hlength⟩
  obtain ⟨th, hth, hthid, hnotified⟩ := h.finished id (hfinished id hid)
  obtain ⟨th', hth', hid', hnotified'⟩ := hthreads th hth hnotified
  exact ⟨th', hth', hid'.trans hthid, hnotified'⟩

omit [DecidableEq Id] in
theorem stepThread_known {i : Nat} {notifies : Bool} (h : Known v)
    (hstep : stepThread r v i notifies = some v') : Known v' := by
  unfold stepThread at hstep
  split at hstep
  · cases hstep
  rename_i th hth
  have hlt := lt_length_of_getElem? hth
  -- the thread keeps its id, and is past its push if it was
  have hset (progress : Progress)
      (hkeep : th.progress.notified = true → progress.notified = true) :
      v.threads.length ≤ (v.setProgress i th progress).threads.length ∧
      ∀ u ∈ v.threads, u.progress.notified = true →
        ∃ u' ∈ (v.setProgress i th progress).threads, u'.id = u.id ∧
          u'.progress.notified = true := by
    refine ⟨(List.length_set).ge, fun u hu hnotified => ?_⟩
    obtain ⟨j, hj⟩ := List.mem_iff_getElem?.mp hu
    by_cases hij : i = j
    · subst hij
      rw [hth] at hj
      cases hj
      exact ⟨_, List.mem_of_getElem? (List.getElem?_set_self hlt), rfl, hkeep hnotified⟩
    · exact ⟨u, List.mem_of_getElem? ((List.getElem?_set_ne hij).trans hj), rfl, hnotified⟩
  split at hstep
  · rename_i hpc
    have hrunning (progress : Progress) := hset progress (by rw [hpc]; nofun)
    split at hstep
    · split at hstep <;> cases hstep
      exact h.mono (fun _ hid => hid) (fun _ hi => hi) (hrunning _).1 (hrunning _).2
    · split at hstep <;> cases hstep
      exact h.mono (fun _ hid => hid) (fun _ hi => hi) (hrunning _).1 (hrunning _).2
  · cases hstep
    have hleave := hset .leave fun _ => rfl
    refine ⟨fun id hid => ?_, fun j hj => lt_of_lt_of_le (h.drain j hj) hleave.1⟩
    rcases List.mem_append.mp hid with hid | hid
    · obtain ⟨u, hu, huid, hnotified⟩ := h.finished id hid
      obtain ⟨u', hu', hid', hnotified'⟩ := hleave.2 u hu hnotified
      exact ⟨u', hu', hid'.trans huid, hnotified'⟩
    · rw [List.mem_singleton.mp hid]
      exact ⟨_, List.mem_of_getElem? (List.getElem?_set_self hlt), rfl, rfl⟩
  · cases hstep
    have hended := hset .ended fun _ => rfl
    exact h.mono (fun _ hid => hid) (fun _ hi => hi) hended.1 hended.2
  · cases hstep

theorem stepCleaner_known (hinv : Inv v) (h : Known v) (hstep : stepCleaner v = some v') :
    Known v' := by
  have hsame (hthreads : v'.threads = v.threads)
      (hfinished : ∀ id ∈ v'.finishedThreads, id ∈ v.finishedThreads)
      (hdrain : ∀ i ∈ v'.cleaner.toDrain, i ∈ v.cleaner.toDrain) : Known v' :=
    h.mono hfinished hdrain (by rw [hthreads]) fun th hth hnotified =>
      ⟨th, by rw [hthreads]; exact hth, rfl, hnotified⟩
  unfold stepCleaner at hstep
  split at hstep
  · split at hstep <;> cases hstep
    exact hsame rfl (fun _ hid => hid) nofun
  · split at hstep <;> cases hstep
    · -- the final loop is over the threads of the map
      refine ⟨h.finished, fun i hi => ?_⟩
      obtain ⟨e, he, rfl⟩ := List.mem_map.mp hi
      obtain ⟨th, hth, -⟩ := hinv.tables.entry e.1 e.2 he
      exact lt_length_of_getElem? hth
    · exact hsame rfl (fun _ hid => hid) nofun
  · split at hstep <;> cases hstep <;> exact hsame rfl (fun _ hid => hid) nofun
  · split at hstep <;> cases hstep
    exact hsame rfl (fun _ hid => hid) nofun
  · cases hstep
    exact hsame rfl (fun _ hid => hid) nofun
  · split at hstep <;> cases hstep <;> exact hsame rfl (fun _ hid => hid) nofun
  · split at hstep <;> cases hstep
    exact hsame rfl (fun _ hid => hid) nofun
  · cases hstep
    exact hsame rfl (fun _ hid => hid) nofun
  · cases hstep
    exact hsame rfl (fun _ hid => List.mem_of_mem_erase hid) nofun
  · split at hstep <;> cases hstep
    exact hsame rfl (fun _ hid => hid) nofun
  · cases hstep
    exact hsame rfl (fun _ hid => hid) nofun
  · rename_i i rest hpc
    cases hstep
    exact hsame rfl (fun _ hid => hid) (by rw [hpc]; exact fun _ hj => hj)
  · rename_i i rest hpc
    split at hstep <;> cases hstep
    exact hsame rfl (fun _ hid => hid)
      (by rw [hpc]; exact fun _ hj => List.mem_cons_of_mem _ hj)
  · cases hstep

theorem known_of_reachable (h : (machine r).Reachable v) : Known v := by
  refine Machine.ReachableVia.invariant_using h (J := Inv)
    (fun _ hr => inv_of_reachable hr) ?_ ?_
  · rintro v rfl
    exact ⟨nofun, nofun⟩
  · intro v e v' hinv h _ hstep
    cases e with
    | listener created =>
      have hstep : stepListener v created = some v' := hstep
      unfold stepListener at hstep
      split at hstep
      · split at hstep <;> cases hstep
        exact h.mono (fun _ hid => hid) (fun _ hi => hi) (le_refl _)
          fun th hth hnotified => ⟨th, hth, rfl, hnotified⟩
      · split at hstep
        · cases hstep
          exact h.mono (fun _ hid => hid) (fun _ hi => hi) (le_refl _)
            fun th hth hnotified => ⟨th, hth, rfl, hnotified⟩
        · split at hstep <;> cases hstep
          exact h.mono (fun _ hid => hid) (fun _ hi => hi) (by simp)
            fun th hth hnotified => ⟨th, List.mem_append_left _ hth, rfl, hnotified⟩
      · cases hstep
        exact h.mono (fun _ hid => hid) (fun _ hi => hi) (le_refl _)
          fun th hth hnotified => ⟨th, hth, rfl, hnotified⟩
    | thread i notifies => exact stepThread_known h hstep
    | cleaner => exact stepCleaner_known hinv h hstep
    | destructor =>
      have hstep : stepDestructor v = some v' := hstep
      unfold stepDestructor at hstep
      split at hstep
      · split at hstep <;> cases hstep
        exact h.mono (fun _ hid => hid) (fun _ hi => hi) (le_refl _)
          fun th hth hnotified => ⟨th, hth, rfl, hnotified⟩
      · cases hstep
        exact h.mono (fun _ hid => hid) (fun _ hi => hi) (le_refl _)
          fun th hth hnotified => ⟨th, hth, rfl, hnotified⟩
      · cases hstep

end Reaping

/-- The thread of an id in `finished_threads_` is past its push. -/
theorem notified_of_finished (h : (machine r fastddsToXtypes (I := I)).Reachable s) {id : Nat}
    (hid : id ∈ s.finishedThreads) : s.Notified id := by
  obtain ⟨u, hu, huid, hnotified⟩ :=
    (Reaping.known_of_reachable (containers_reachable h)).finished id hid
  obtain ⟨i, hi⟩ := List.mem_iff_getElem?.mp hu
  rw [containers_getElem?] at hi
  obtain ⟨th, hth, rfl⟩ := Option.map_eq_some_iff.mp hi
  have hi : i = id := huid
  refine ⟨th, hi ▸ hth, ?_⟩
  obtain ⟨pc, sample, info, reads⟩ := th
  cases pc <;> first | rfl | cases hnotified

/-! ## How much is left to do -/

def ThreadPc.left : ThreadPc M → Nat
  | .lookup => 7
  | .convert => 6
  | .unlock _ => 5
  | .dispatch _ => 4
  | .lockCleaner => 3
  | .notify => 2
  | .leave => 1
  | .ended => 0

def ListenerPc.left : ListenerPc → Nat
  | .idle => 0
  | .leave => 1
  | .take => 2
  | .lockData => 3

def DestructorPc.left : DestructorPc → Nat
  | .idle => 5
  | .setStop => 4
  | .joinCleaner => 3
  | .lockData => 2
  | .dispose => 1
  | .done => 0

/-- The steps of the cleaner up to its end, or up to its next release of the mutex while there is no
stop request. -/
def State.cleanerLeft (s : State C I M) : Nat :=
  match s.cleaner with
  | .done => 0
  | .drain rest => 2 * rest.length + 1
  | .drainJoin _ rest => 2 * rest.length + 2
  | .start | .sleep => 2 * s.receptionThreads.length + 3
  | .prune stopped => stopped.length + 2 * s.receptionThreads.length + 4
  | .scan rest stopped => 3 * rest.length + stopped.length + 2 * s.receptionThreads.length + 5
  | .join _ rest stopped => 3 * rest.length + stopped.length + 2 * s.receptionThreads.length + 7
  | .waitTest => 3 * s.finishedThreads.length + 2 * s.receptionThreads.length + 6
  | .wait =>
      if s.stopCleaner then 3 * s.finishedThreads.length + 2 * s.receptionThreads.length + 7 else 0
  | .test =>
      if s.stopCleaner then 2 * s.receptionThreads.length + 2
      else 3 * s.finishedThreads.length + 2 * s.receptionThreads.length + 7

/-- The destructor counts most, the cleaner least: threads add to what the cleaner has to do. -/
def State.left (s : State C I M) : Nat ×ₗ (Nat ×ₗ Nat) :=
  toLex (s.destructor.left,
    toLex ((s.threads.map fun th => th.pc.left).sum + s.listener.left, s.cleanerLeft))

theorem left_lt_of_destructor (h : s'.destructor.left < s.destructor.left) : s'.left < s.left :=
  Prod.Lex.toLex_lt_toLex.mpr (.inl h)

theorem left_lt_of_activity (hdestructor : s'.destructor = s.destructor)
    (h : (s'.threads.map fun th => th.pc.left).sum + s'.listener.left <
      (s.threads.map fun th => th.pc.left).sum + s.listener.left) : s'.left < s.left := by
  refine Prod.Lex.toLex_lt_toLex.mpr (.inr ⟨?_, Prod.Lex.toLex_lt_toLex.mpr (.inl h)⟩)
  rw [hdestructor]

theorem left_lt_of_cleaner (hdestructor : s'.destructor = s.destructor)
    (hthreads : s'.threads = s.threads) (hlistener : s'.listener = s.listener)
    (h : s'.cleanerLeft < s.cleanerLeft) : s'.left < s.left := by
  refine Prod.Lex.toLex_lt_toLex.mpr (.inr ⟨by rw [hdestructor], ?_⟩)
  refine Prod.Lex.toLex_lt_toLex.mpr (.inr ⟨?_, h⟩)
  rw [hthreads, hlistener]

/-- The cleaner holds the mutex, and joins only threads that have ended: it goes on. -/
theorem stepCleaner_progress (hsection : s.cleaner.inSection = true)
    (hjoin : ∀ id, s.cleaner.joining = some id → s.hasEnded id = true) :
    ∃ s', stepCleaner s = some s' ∧ s'.cleanerLeft < s.cleanerLeft ∧
      s'.listener = s.listener ∧ s'.destructor = s.destructor ∧
      ∀ id ∈ s'.toDrain, id ∈ s.toDrain := by
  have hnone {t : State C I M} (ht : t.toDrain = []) : ∀ id ∈ t.toDrain, id ∈ s.toDrain := by
    rw [ht]
    exact List.forall_mem_nil _
  cases hpc : s.cleaner with
  | start | wait | sleep | done =>
    rw [hpc] at hsection
    cases hsection
  | test =>
    by_cases hstop : s.stopCleaner = true
    · refine ⟨{ s with cleaner := .drain s.receptionThreads },
        by simp only [stepCleaner, hpc, if_pos hstop], ?_, rfl, rfl, ?_⟩
      · simp only [State.cleanerLeft, hpc, hstop, if_true]
        omega
      · simp only [State.toDrain, hpc, hstop, if_true]
        exact fun _ hid => hid
    · refine ⟨{ s with cleaner := .waitTest }, by simp only [stepCleaner, hpc, if_neg hstop], ?_,
        rfl, rfl, hnone rfl⟩
      simp only [State.cleanerLeft, hpc, hstop]
      simp
  | waitTest =>
    by_cases hwake : s.stopCleaner ∨ s.finishedThreads ≠ []
    · refine ⟨{ s with cleaner := .scan s.finishedThreads [] },
        by simp only [stepCleaner, hpc, if_pos hwake], ?_, rfl, rfl, hnone rfl⟩
      simp only [State.cleanerLeft, hpc, List.length_nil]
      omega
    · have hstop : s.stopCleaner ≠ true := fun hstop => hwake (.inl hstop)
      refine ⟨{ s with cleanerMtx := none, cleaner := .wait },
        by simp only [stepCleaner, hpc, if_neg hwake], ?_, rfl, rfl, hnone rfl⟩
      simp only [State.cleanerLeft, hpc, if_neg hstop]
      omega
  | scan rest stopped =>
    cases rest with
    | nil =>
      refine ⟨{ s with cleaner := .prune stopped }, by rw [stepCleaner, hpc], ?_, rfl, rfl,
        hnone rfl⟩
      simp only [State.cleanerLeft, hpc]
      omega
    | cons id rest =>
      by_cases hid : id ∈ s.receptionThreads
      · have hlength := List.length_erase_of_mem hid
        have hpos := List.length_pos_of_mem hid
        refine ⟨{ s with
            receptionThreads := s.receptionThreads.erase id, cleaner := .join id rest stopped },
          by simp only [stepCleaner, hpc, if_pos hid], ?_, rfl, rfl, hnone rfl⟩
        simp only [State.cleanerLeft, hpc, List.length_cons]
        omega
      · refine ⟨{ s with cleaner := .scan rest stopped },
          by simp only [stepCleaner, hpc, if_neg hid], ?_, rfl, rfl, hnone rfl⟩
        simp only [State.cleanerLeft, hpc, List.length_cons]
        omega
  | join id rest stopped =>
    have hended := hjoin id (by rw [hpc]; rfl)
    refine ⟨{ s with joined := s.joined ++ [id], cleaner := .scan rest (stopped ++ [id]) },
      by simp only [stepCleaner, hpc, if_pos hended], ?_, rfl, rfl, hnone rfl⟩
    simp only [State.cleanerLeft, hpc, List.length_append, List.length_singleton]
    omega
  | prune stopped =>
    cases stopped with
    | nil =>
      refine ⟨{ s with cleanerMtx := none, cleaner := .sleep }, by rw [stepCleaner, hpc], ?_, rfl,
        rfl, hnone rfl⟩
      simp only [State.cleanerLeft, hpc]
      omega
    | cons id stopped =>
      refine ⟨{ s with finishedThreads := s.finishedThreads.erase id, cleaner := .prune stopped },
        by rw [stepCleaner, hpc], ?_, rfl, rfl, hnone rfl⟩
      simp only [State.cleanerLeft, hpc, List.length_cons]
      omega
  | drain rest =>
    cases rest with
    | nil =>
      refine ⟨{ s with cleanerMtx := none, cleaner := .done }, by rw [stepCleaner, hpc], ?_, rfl,
        rfl, hnone rfl⟩
      simp only [State.cleanerLeft, hpc]
      omega
    | cons id rest =>
      refine ⟨{ s with cleaner := .drainJoin id rest }, by rw [stepCleaner, hpc], ?_, rfl, rfl, ?_⟩
      · simp only [State.cleanerLeft, hpc, List.length_cons]
        omega
      · simp only [State.toDrain, hpc]
        exact fun _ hid => hid
  | drainJoin id rest =>
    have hended := hjoin id (by rw [hpc]; rfl)
    refine ⟨{ s with joined := s.joined ++ [id], cleaner := .drain rest },
      by simp only [stepCleaner, hpc, if_pos hended], ?_, rfl, rfl, ?_⟩
    · simp only [State.cleanerLeft, hpc]
      omega
    · simp only [State.toDrain, hpc]
      exact fun _ hid => List.mem_cons_of_mem _ hid

/-- A thread that does not wait for `cleaner_mtx_` goes on, and needs the mutex only if it needed it
before. -/
theorem stepThread_progress (known : Nat → Bool) (hb : BufferInv fastddsToXtypes s) {id : Nat}
    {th : Thread C I M}
    (hth : s.threads[id]? = some th) (hlive : th.pc ≠ .ended)
    (hfree : th.pc = .lockCleaner → s.cleanerMtx = none) :
    ∃ s' th', stepThread r fastddsToXtypes s id (known id) = some s' ∧
      s'.threads = s.threads.set id th' ∧ th'.pc.left < th.pc.left ∧
      (th'.pc.needsCleaner (known id) = true → th.pc.needsCleaner (known id) = true) := by
  obtain ⟨pc, sample, info, reads⟩ := th
  cases pc with
  | ended => exact absurd rfl hlive
  | lookup =>
    cases hknown : known id with
    | true =>
      refine ⟨s.setThread id ⟨.convert, sample, info, reads⟩, ⟨.convert, sample, info, reads⟩,
        by simp only [stepThread, hth, if_true], rfl, ?_, fun _ => rfl⟩
      show 6 < 7
      decide
    | false =>
      refine ⟨(s.setThread id ⟨.ended, sample, info, reads⟩).unlockData (.thread id),
        ⟨.ended, sample, info, reads⟩, ?_, (unlockData_fields _).1, ?_, nofun⟩
      · simp only [stepThread, hth, Bool.false_eq_true, if_false]
      · show 0 < 7
        decide
  | convert =>
    have hdata := hb.buffer id _ hth rfl
    refine ⟨_, ⟨.unlock (fastddsToXtypes sample.data), sample, info, sample.data :: reads⟩,
      by simp only [stepThread, hth, hdata]; rfl, rfl, ?_, fun _ => rfl⟩
    show 5 < 6
    decide
  | unlock message =>
    refine ⟨(s.setThread id ⟨.dispatch message, sample, info, reads⟩).unlockData (.thread id),
      ⟨.dispatch message, sample, info, reads⟩, by rw [stepThread, hth],
      (unlockData_fields _).1, ?_, fun _ => rfl⟩
    show 4 < 5
    decide
  | dispatch message =>
    cases message with
    | none =>
      refine ⟨s.setThread id ⟨.lockCleaner, sample, info, reads⟩,
        ⟨.lockCleaner, sample, info, reads⟩, by rw [stepThread, hth], rfl, ?_, fun _ => rfl⟩
      show 3 < 4
      decide
    | some m =>
      by_cases hr : r = .subscriber ∨ known id = true
      · refine ⟨_, ⟨.lockCleaner, sample, info, reads⟩,
          by simp only [stepThread, hth, if_pos hr]; rfl, rfl, ?_, fun _ => rfl⟩
        show 3 < 4
        decide
      · refine ⟨_, ⟨.lockCleaner, sample, info, reads⟩,
          by simp only [stepThread, hth, if_neg hr]; rfl, rfl, ?_, fun _ => rfl⟩
        show 3 < 4
        decide
  | lockCleaner =>
    refine ⟨_, ⟨.notify, sample, info, reads⟩,
      by simp only [stepThread, hth, if_pos (hfree rfl)]; rfl, rfl, ?_, fun _ => rfl⟩
    show 2 < 3
    decide
  | notify =>
    refine ⟨_, ⟨.leave, sample, info, reads⟩, by simp only [stepThread, hth]; rfl, rfl, ?_, nofun⟩
    show 1 < 2
    decide
  | leave =>
    refine ⟨_, ⟨.ended, sample, info, reads⟩, by simp only [stepThread, hth]; rfl, rfl, ?_, nofun⟩
    show 0 < 1
    decide

/-- `on_data_available` ends without another sample once the data mutex is free. -/
theorem stepListener_progress (hbusy : s.listener ≠ .idle)
    (hfree : s.listener = .lockData → s.dataMtx = none) :
    ∃ s', stepListener r s none = some s' ∧ s'.listener.left < s.listener.left ∧
      s'.threads = s.threads ∧ s'.receptionThreads = s.receptionThreads := by
  cases hpc : s.listener with
  | idle => exact absurd hpc hbusy
  | lockData =>
    refine ⟨{ s.lockData .listener with listener := .take },
      by simp only [stepListener, hpc, if_pos (hfree hpc)], ?_, rfl, rfl⟩
    show 2 < 3
    decide
  | take =>
    refine ⟨{ s.unlockData .listener with listener := .leave }, ?_, ?_, (unlockData_fields _).1,
      unlockData_receptionThreads _ _⟩
    · simp only [stepListener, hpc, takeSample, ite_self]
    · show 1 < 2
      decide
  | leave =>
    refine ⟨{ s with cleanerMtx := none, listener := .idle }, by simp only [stepListener, hpc], ?_,
      rfl, rfl⟩
    show 0 < 1
    decide

theorem stepDestructor_progress (hstep : stepDestructor s = some s') :
    s'.destructor.left < s.destructor.left := by
  unfold stepDestructor at hstep
  split at hstep <;> rename_i hpc <;> rw [hpc] <;> (try split at hstep) <;> cases hstep <;>
    exact Nat.lt_succ_self _

/-- With the mutex free and a stop request, the cleaner comes back for its last rounds. -/
theorem cleaner_wakes (hmtx : s.cleanerMtx = none) (hstop : s.stopCleaner = true)
    (hdone : s.cleaner ≠ .done) (hsection : s.cleaner.inSection = false) :
    ∃ s', stepCleaner s = some s' ∧ s'.cleanerLeft < s.cleanerLeft ∧
      s'.listener = s.listener ∧ s'.destructor = s.destructor := by
  cases hpc : s.cleaner with
  | start | sleep =>
    refine ⟨{ s with cleanerMtx := some .cleaner, cleaner := .test },
      by simp only [stepCleaner, hpc, if_pos hmtx], ?_, rfl, rfl⟩
    simp only [State.cleanerLeft, hpc, hstop, if_true]
    omega
  | wait =>
    refine ⟨{ s with cleanerMtx := some .cleaner, cleaner := .waitTest },
      by simp only [stepCleaner, hpc, if_pos hmtx], ?_, rfl, rfl⟩
    simp only [State.cleanerLeft, hpc, hstop, if_true]
    omega
  | done => exact absurd hpc hdone
  | test | waitTest | scan | join | prune | drain | drainJoin =>
    rw [hpc] at hsection
    cases hsection

/-! ## Shutdown -/

/-- No thread can go on: those that have not ended wait for `cleaner_mtx_`, which is taken. -/
def Waiting (s : State C I M) : Prop :=
  ∀ (id : Nat) (th : Thread C I M), s.threads[id]? = some th →
    th.pc = .ended ∨ (th.pc = .lockCleaner ∧ s.cleanerMtx ≠ none)

theorem Waiting.allEnded (h : Waiting s) (hmtx : s.cleanerMtx = none) : AllEnded s := by
  intro id th hth
  rcases h id th hth with hended | ⟨-, htaken⟩
  · exact hended
  · exact absurd hmtx htaken

theorem not_doomed_of_allEnded (h : AllEnded s) : ¬ Doomed known s := by
  rintro ⟨id, -, th, hth, hneeds⟩
  rw [h id th hth] at hneeds
  cases hneeds

/-- The cleaner waits for no thread that cannot end. -/
theorem hasEnded_of_joining (h : (machine r fastddsToXtypes (I := I)).Reachable s)
    (hnot : ¬ Doomed known s) (hwait : Waiting s) {id : Nat}
    (hjoining : s.cleaner.joining = some id) :
    s.hasEnded id = true := by
  have hcontainers := containers_reachable h
  have hended {th : Thread C I M} (hth : s.threads[id]? = some th) (hpc : th.pc = .ended) :
      s.hasEnded id = true := by
    unfold State.hasEnded
    rw [hth]
    simp only [hpc]
  cases hpc : s.cleaner with
  | start | test | waitTest | wait | scan | prune | sleep | drain | done =>
    rw [hpc] at hjoining
    cases hjoining
  | join i rest stopped =>
    rw [hpc] at hjoining
    cases hjoining
    -- its id came out of `finished_threads_`
    have hfinished : id ∈ s.finishedThreads := by
      apply (Reaping.inv_of_reachable hcontainers).tables.visit
      have htaken : s.containers.view.taken = stopped ++ [id] := by
        show (Reaping.CleanerPc.taken s.cleaner.containers) = _
        rw [hpc]
        rfl
      rw [htaken]
      exact List.mem_append_left _ (List.mem_append_right _ List.mem_cons_self)
    obtain ⟨th, hth, hnotified⟩ := notified_of_finished h hfinished
    rcases hwait id th hth with hpc' | ⟨hpc', -⟩
    · exact hended hth hpc'
    · rw [hpc'] at hnotified
      cases hnotified
  | drainJoin i rest =>
    rw [hpc] at hjoining
    cases hjoining
    have hlt : id < s.containers.threads.length := by
      apply (Reaping.known_of_reachable hcontainers).drain
      show id ∈ Reaping.CleanerPc.toDrain s.cleaner.containers
      rw [hpc]
      exact List.mem_cons_self
    have hlt : id < s.threads.length := by
      rw [State.containers, List.length_mapIdx] at hlt
      exact hlt
    have hth := List.getElem?_eq_getElem hlt
    rcases hwait id _ hth with hpc' | ⟨hpc', -⟩
    · exact hended hth hpc'
    · refine absurd ⟨id, ?_, _, hth, by rw [hpc']; rfl⟩ hnot
      rw [State.toDrain, hpc]
      exact List.mem_cons_self

def Advances (r : Receiver) (fastddsToXtypes : C → Option M) (known : Nat → Bool)
    (s : State C I M) : Prop :=
  ∃ e s', agrees known s e = true ∧ step r fastddsToXtypes s e = some s' ∧ ¬ Doomed known s' ∧
    s'.left < s.left

theorem advances_of_thread (hb : BufferInv fastddsToXtypes s) (hnot : ¬ Doomed known s) {id : Nat}
    {th : Thread C I M} (hth : s.threads[id]? = some th) (hpc : th.pc ≠ .ended)
    (hfree : th.pc = .lockCleaner → s.cleanerMtx = none) : Advances r fastddsToXtypes known s := by
  obtain ⟨s', th', hstep, hthreads, hless, hmust⟩ :=
    stepThread_progress (r := r) known hb hth hpc hfree
  obtain ⟨hsame, hdestructor, hcleaner, hlistener, hreception⟩ := stepThread_control hstep
  refine ⟨.thread id (known id), s', ?_, hstep, ?_, ?_⟩
  · simp only [agrees, BEq.rfl]
    split <;> rfl
  · intro hdoomed
    refine hnot (hdoomed.mono (toDrain_mono hcleaner.symm (fun hset => hsame ▸ hset) ?_) ?_)
    · rw [hreception]
      exact fun _ hi => hi
    · rw [hthreads]
      intro i u hu hu'
      rcases getElem?_set_cases hth hu with ⟨rfl, rfl⟩ | ⟨-, hold⟩
      · exact ⟨th, hth, hmust hu'⟩
      · exact ⟨u, hold, hu'⟩
  · apply left_lt_of_activity hdestructor
    rw [hthreads, hlistener]
    exact Nat.add_lt_add_right (sum_map_set_lt hth hless) _

theorem advances_of_destructor (hinv : Reaping.Inv s.containers) (hnot : ¬ Doomed known s)
    (hstep : stepDestructor s = some s') : Advances r fastddsToXtypes known s := by
  refine ⟨.destructor, s', rfl, hstep, ?_, left_lt_of_destructor (stepDestructor_progress hstep)⟩
  obtain ⟨hthreads, hcleaner, hreception, hsame | ⟨hpc, -⟩⟩ := stepDestructor_keeps hstep
  · intro hdoomed
    refine hnot (hdoomed.mono (toDrain_mono hcleaner.symm (fun hset => hsame ▸ hset) ?_) ?_)
    · rw [hreception]
      exact fun _ hi => hi
    · rw [hthreads]
      exact fun i u hu hu' => ⟨u, hu, hu'⟩
  · -- with the mutex at the destructor, the cleaner is outside its loops
    rintro ⟨id, hid, -⟩
    have hsection := cleaner_inSection_of_toDrain hid
    rw [hcleaner] at hsection
    have hmtx := cleanerMtx_of_inSection hinv hsection
    have hmtx' : s.cleanerMtx = some .destructor := by
      apply hinv.locked.destructor
      show s.destructor.containers = .setStop
      rw [hpc]
      rfl
    rw [hmtx] at hmtx'
    cases hmtx'

/-- Who has the data mutex when no thread can go on. -/
theorem Waiting.dataMtx_cases (h : Waiting s) (hb : BufferInv fastddsToXtypes s) :
    s.dataMtx = none ∨ s.listener = .take ∨ s.destructor = .dispose := by
  cases hmtx : s.dataMtx with
  | none => exact .inl rfl
  | some a =>
    cases a with
    | listener => exact .inr (.inl (hb.listener.mpr hmtx))
    | destructor => exact .inr (.inr (hb.destructor.mpr hmtx))
    | cleaner => exact absurd hmtx hb.cleaner
    | thread id =>
      obtain ⟨th, hth, hholds⟩ := (hb.thread id).mp hmtx
      rcases h id th hth with hpc | ⟨hpc, -⟩ <;> rw [hpc] at hholds <;> cases hholds

/-- The listener goes on, or the destructor if that has the data mutex. -/
theorem advances_of_listener (hb : BufferInv fastddsToXtypes s)
    (hinv : Reaping.Inv s.containers) (hnot : ¬ Doomed known s) (hwait : Waiting s)
    (hbusy : s.listener ≠ .idle) : Advances r fastddsToXtypes known s := by
  by_cases hdispose : s.destructor = .dispose
  · exact advances_of_destructor hinv hnot (by rw [stepDestructor, hdispose])
  have hfree : s.listener = .lockData → s.dataMtx = none := by
    intro hpc
    rcases hwait.dataMtx_cases hb with hfree | htake | hcon
    · exact hfree
    · rw [hpc] at htake
      cases htake
    · exact absurd hcon hdispose
  obtain ⟨s', hstep, hless, hthreads, hreception⟩ := stepListener_progress (r := r) hbusy hfree
  obtain ⟨hsame, hdestructor, hcleaner⟩ := stepListener_control hstep
  refine ⟨.listener none, s', rfl, hstep, ?_, ?_⟩
  · intro hdoomed
    refine hnot (hdoomed.mono (toDrain_mono hcleaner.symm (fun hset => hsame ▸ hset) ?_) ?_)
    · rw [hreception]
      exact fun _ hi => hi
    · rw [hthreads]
      exact fun i u hu hu' => ⟨u, hu, hu'⟩
  · apply left_lt_of_activity hdestructor
    rw [hthreads]
    exact Nat.add_lt_add_left hless _

/-- With the mutex free every thread has ended, and the destructor goes on or the cleaner wakes. -/
theorem advances_of_free (h : (machine r fastddsToXtypes (I := I)).Reachable s)
    (hnot : ¬ Doomed known s) (hwait : Waiting s) (hidle : s.listener = .idle)
    (hmtx : s.cleanerMtx = none) (hdone : s.destructor ≠ .done) :
    Advances r fastddsToXtypes known s := by
  have hinv := Reaping.inv_of_reachable (containers_reachable h)
  have hdestructor {t : State C I M} (hstep : stepDestructor s = some t) :
      Advances r fastddsToXtypes known s :=
    advances_of_destructor hinv hnot hstep
  cases hpc : s.destructor with
  | idle => exact hdestructor (by rw [stepDestructor, hpc]; exact if_pos hmtx)
  | setStop => exact hdestructor (by rw [stepDestructor, hpc])
  | dispose => exact hdestructor (by rw [stepDestructor, hpc])
  | done => exact absurd hpc hdone
  | lockData =>
    have hfree : s.dataMtx = none := by
      rcases hwait.dataMtx_cases (bufferInv_of_reachable h) with hfree | htake | hdispose
      · exact hfree
      · rw [hidle] at htake
        cases htake
      · rw [hpc] at hdispose
        cases hdispose
    exact hdestructor (by rw [stepDestructor, hpc]; exact if_pos hfree)
  | joinCleaner =>
    by_cases hcleaner : s.cleaner = .done
    · exact hdestructor (by rw [stepDestructor, hpc]; exact if_pos hcleaner)
    have hset : s.stopCleaner = true := by
      rw [(stopInv_of_reachable h).stopped, hpc]
      rfl
    have hoff : s.cleaner.inSection = false := by
      by_contra hon
      have htaken := cleanerMtx_of_inSection hinv (Bool.eq_true_of_not_eq_false hon)
      rw [hmtx] at htaken
      cases htaken
    obtain ⟨s', hstep, hless, hlistener, hsame⟩ := cleaner_wakes hmtx hset hcleaner hoff
    have hthreads := (stepCleaner_sameData hstep).threads
    refine ⟨.cleaner, s', rfl, hstep, ?_, left_lt_of_cleaner hsame hthreads hlistener hless⟩
    apply not_doomed_of_allEnded
    intro id th hth
    rw [hthreads] at hth
    exact hwait.allEnded hmtx id th hth

/-- Short of the end of the destructor somebody can go on: a thread if there is one, else the
listener, else whoever holds `cleaner_mtx_`, else the destructor or the cleaner. -/
theorem advances (h : (machine r fastddsToXtypes (I := I)).Reachable s) (hnot : ¬ Doomed known s)
    (hdone : s.destructor ≠ .done) : Advances r fastddsToXtypes known s := by
  have hb := bufferInv_of_reachable h
  have hinv := Reaping.inv_of_reachable (containers_reachable h)
  by_cases hlive : ∃ (id : Nat) (th : Thread C I M), s.threads[id]? = some th ∧
      th.pc ≠ .ended ∧ (th.pc = .lockCleaner → s.cleanerMtx = none)
  · obtain ⟨id, th, hth, hpc, hfree⟩ := hlive
    exact advances_of_thread hb hnot hth hpc hfree
  have hwait : Waiting s := by
    intro id th hth
    by_contra hcon
    refine hlive ⟨id, th, hth, fun hpc => hcon (.inl hpc), fun hpc => ?_⟩
    by_contra htaken
    exact hcon (.inr ⟨hpc, htaken⟩)
  by_cases hbusy : s.listener ≠ .idle
  · exact advances_of_listener hb hinv hnot hwait hbusy
  have hidle : s.listener = .idle := not_not.mp hbusy
  cases hmtx : s.cleanerMtx with
  | none => exact advances_of_free h hnot hwait hidle hmtx hdone
  | some a =>
    have hsection := held_of_reachable h a hmtx
    cases a with
    | listener => exact absurd hidle hsection
    | thread id =>
      obtain ⟨th, hth, hpc⟩ := hsection
      rcases hwait id th hth with hpc' | ⟨hpc', -⟩ <;> rw [hpc'] at hpc <;> cases hpc
    | destructor =>
      have hpc : s.destructor = .setStop := hsection
      exact advances_of_destructor hinv hnot (by rw [stepDestructor, hpc])
    | cleaner =>
      obtain ⟨s', hstep, hless, hlistener, hdestructor, hdrain⟩ := stepCleaner_progress hsection
        fun id hjoining => hasEnded_of_joining h hnot hwait hjoining
      have hthreads := (stepCleaner_sameData hstep).threads
      refine ⟨.cleaner, s', rfl, hstep, ?_, left_lt_of_cleaner hdestructor hthreads hlistener hless⟩
      intro hdoomed
      refine hnot (hdoomed.mono hdrain ?_)
      rw [hthreads]
      exact fun i u hu hu' => ⟨u, hu, hu'⟩

theorem reachable_of_decided (h : (machine r fastddsToXtypes (I := I)).Reachable s)
    {e : Event C I} (hstep : (decided r fastddsToXtypes known).step s e = some s') :
    (machine r fastddsToXtypes).Reachable s' :=
  h.step trivial (step_of_decided hstep).2

/-- From a reachable state, and whichever replies turn out to be to requests of this server, some
run leads to the end of the destructor, unless the cleaner holds the mutex for its final loop and a
thread ahead of it cannot end without locking it. -/
theorem shutdown_completes_iff (known : Nat → Bool)
    (h : (machine r fastddsToXtypes (I := I)).Reachable s) :
    (∃ events s', (decided r fastddsToXtypes known).run s events = some s' ∧
      s'.destructor = .done) ↔ ¬ Doomed known s := by
  constructor
  · rintro ⟨events, s', hrun, hdone⟩ hdoomed
    have hboth := Machine.invariant_of_run
      (I := fun s => (machine r fastddsToXtypes (I := I)).Reachable s ∧ Doomed known s)
      ⟨h, hdoomed⟩ (fun s e t hs hstep => ⟨reachable_of_decided hs.1 hstep,
        hs.2.step (Reaping.inv_of_reachable (containers_reachable hs.1))
          (step_of_decided hstep).1 (step_of_decided hstep).2⟩) events hrun
    exact not_doomed_of_allEnded (allEnded_of_done hboth.1 hdone) hboth.2
  · intro hnot
    refine Machine.exists_run_of_rank
      (I := fun s => (machine r fastddsToXtypes (I := I)).Reachable s ∧ ¬ Doomed known s)
      (G := fun s => s.destructor = .done) State.left ?_ ⟨h, hnot⟩
    intro s hs hdone
    obtain ⟨e, s', hagrees, hstep, hnot', hless⟩ := advances hs.1 hs.2 hdone
    exact ⟨e, s', (if_pos hagrees).trans hstep, ⟨hs.1.step trivial hstep, hnot'⟩, hless⟩

/-- The destructor has set `stop_cleaner_` while the thread of a reply has yet to look it up. -/
def stopDuringLookup : List (Event Nat Nat) :=
  [.listener none, .listener none, .listener (some ⟨7, 3, true⟩), .listener none,
    .destructor, .destructor]

/-- The shutdown is still open to complete; after one step of the cleaner it is only if the reply is
to no request of this server. -/
theorem shutdown_completes_iff_stopDuringLookup :
    ∃ s t : State Nat Nat Nat, (machine .server some).run .initial stopDuringLookup = some s ∧
      (machine .server some).step s .cleaner = some t ∧
      (∀ known, ∃ events s', (decided .server some known).run s events = some s' ∧
        s'.destructor = .done) ∧
      (∃ events t', (decided .server some fun _ => false).run t events = some t' ∧
        t'.destructor = .done) ∧
      ¬ ∃ events t', (decided .server some fun _ => true).run t events = some t' ∧
        t'.destructor = .done := by
  have hinit : (machine .server some (I := Nat)).Reachable (.initial : State Nat Nat Nat) :=
    Machine.ReachableVia.init rfl
  have hreach := hinit.of_run (stopDuringLookup ++ [.cleaner]) rfl
  refine ⟨_, _, rfl, rfl, fun known => ?_, ?_, fun hdone => ?_⟩
  · refine (shutdown_completes_iff known (hinit.of_run stopDuringLookup rfl)).mpr ?_
    rintro ⟨id, hid, -⟩
    cases hid
  · refine (shutdown_completes_iff (fun _ => false) hreach).mpr ?_
    rintro ⟨id, hid, th, hth, hneeds⟩
    rw [List.mem_singleton.mp hid] at hth
    cases hth
    cases hneeds
  · refine (shutdown_completes_iff (fun _ => true) hreach).mp hdone ?_
    exact ⟨0, List.mem_cons_self, _, rfl, rfl⟩

end FastDdsSh.Reception
