import FastDdsSh.Reception

/-!
# Joining reception threads under the cleaner mutex

`cleaner_function` joins with `cleaner_mtx_` held, and `receive` locks `cleaner_mtx_` before it
ends. In the loop over `finished_threads_` that is harmless: a thread enters that list past its
lock.  The final loop joins whatever is left in `reception_threads_`, with the mutex still held.
-/

namespace FastDdsSh.Reception

open Transition

variable {C I M : Type} {r : Receiver} {fastddsToXtypes : C → Option M} {s s' : State C I M}

/-- Every way from this point to the end of `receive` locks `cleaner_mtx_`. -/
def ThreadPc.mustLockCleaner : ThreadPc M → Bool
  -- a reply to an unknown request ends `Server::receive` in `lookup`
  | .lookup => false
  | .convert | .unlock _ | .dispatch _ | .lockCleaner => true
  | .notify | .leave | .ended => false

def ThreadPc.notified : ThreadPc M → Bool
  | .leave | .ended => true
  | _ => false

def CleanerPc.joining : CleanerPc → Option Nat
  | .join id _ _ | .drainJoin id _ => some id
  | _ => none

def CleanerPc.pending : CleanerPc → List Nat
  | .scan rest _ | .drain rest => rest
  | .join id rest _ | .drainJoin id rest => id :: rest
  | _ => []

/-- The cleaner waits, with `cleaner_mtx_`, for a thread that cannot end without `cleaner_mtx_`. -/
def Deadlocked (s : State C I M) : Prop :=
  ∃ (id : Nat) (th : Thread C I M), s.cleaner.joining = some id ∧ s.cleanerMtx = some .cleaner ∧
    s.threads[id]? = some th ∧ th.pc.mustLockCleaner = true

theorem ThreadPc.mustLockCleaner_of_notified {pc : ThreadPc M} (h : pc.notified = true) :
    pc.mustLockCleaner = false := by
  cases pc <;> first | rfl | cases h

theorem CleanerPc.mem_pending_of_joining {pc : CleanerPc} {id : Nat} (h : pc.joining = some id) :
    id ∈ pc.pending := by
  cases pc <;> simp [CleanerPc.joining] at h <;> simp [CleanerPc.pending, h]

/-! ## The threads the cleaner goes for have notified it -/

def State.Notified (s : State C I M) (id : Nat) : Prop :=
  ∃ th : Thread C I M, s.threads[id]? = some th ∧ th.pc.notified = true

structure CleanerInv (s : State C I M) : Prop where
  finished : ∀ id ∈ s.finishedThreads, s.Notified id
  pending : ∀ id ∈ s.cleaner.pending, s.Notified id

theorem CleanerInv.pending_of (h : CleanerInv s) {pc : CleanerPc} (hpc : s.cleaner = pc) :
    ∀ id ∈ pc.pending, s.Notified id := by
  rw [← hpc]
  exact h.pending

theorem cleanerInv_initial : CleanerInv (.initial : State C I M) where
  finished := by simp [State.initial]
  pending := by simp [State.initial, CleanerPc.pending]

theorem State.Notified.of_hasEnded {id : Nat} (h : s.hasEnded id = true) : s.Notified id := by
  unfold State.hasEnded at h
  split at h
  · rename_i th hth
    refine ⟨th, hth, ?_⟩
    split at h
    · rename_i hpc
      rw [hpc]
      rfl
    · cases h
  · cases h

/-- Notified threads stay notified when each old thread either stays or moves to such a point. -/
theorem State.Notified.mono {id : Nat} (h : s.Notified id)
    (hthreads : ∀ (i : Nat) (th : Thread C I M), s.threads[i]? = some th → th.pc.notified = true →
      ∃ th' : Thread C I M, s'.threads[i]? = some th' ∧ th'.pc.notified = true) :
    s'.Notified id := by
  obtain ⟨th, hth, hn⟩ := h
  exact hthreads id th hth hn

theorem CleanerInv.mono (h : CleanerInv s)
    (hfinished : s'.finishedThreads = s.finishedThreads) (hcleaner : s'.cleaner = s.cleaner)
    (hthreads : ∀ (i : Nat) (th : Thread C I M), s.threads[i]? = some th → th.pc.notified = true →
      ∃ th' : Thread C I M, s'.threads[i]? = some th' ∧ th'.pc.notified = true) :
    CleanerInv s' where
  finished := by
    rw [hfinished]
    exact fun id hid => (h.finished id hid).mono hthreads
  pending := by
    rw [hcleaner]
    exact fun id hid => (h.pending id hid).mono hthreads

theorem CleanerInv.of_sameThreads (h : CleanerInv s)
    (hfinished : s'.finishedThreads = s.finishedThreads) (hcleaner : s'.cleaner = s.cleaner)
    (hthreads : s'.threads = s.threads) : CleanerInv s' :=
  h.mono hfinished hcleaner fun i th hth hn => ⟨th, by rw [hthreads]; exact hth, hn⟩

/-- A thread replaced by one that has notified the cleaner if the old one had. -/
theorem notified_set {id : Nat} {th : Thread C I M} (th' : Thread C I M)
    (hth : s.threads[id]? = some th)
    (hn : th.pc.notified = true → th'.pc.notified = true) (i : Nat) (u : Thread C I M)
    (hu : s.threads[i]? = some u) (hun : u.pc.notified = true) :
    ∃ u' : Thread C I M, (s.threads.set id th')[i]? = some u' ∧ u'.pc.notified = true := by
  by_cases hi : id = i
  · subst hi
    rw [hth] at hu
    cases hu
    exact ⟨th', by rw [List.getElem?_set_self (lt_length_of_getElem? hth)], hn hun⟩
  · exact ⟨u, by rw [List.getElem?_set_ne hi]; exact hu, hun⟩

theorem CleanerInv.setThread {id : Nat} {th : Thread C I M} (h : CleanerInv s)
    (th' : Thread C I M) (hth : s.threads[id]? = some th)
    (hn : th.pc.notified = true → th'.pc.notified = true)
    (hthreads : s'.threads = s.threads.set id th')
    (hfinished : s'.finishedThreads = s.finishedThreads) (hcleaner : s'.cleaner = s.cleaner) :
    CleanerInv s' := by
  refine h.mono hfinished hcleaner ?_
  rw [hthreads]
  exact notified_set th' hth hn

/-! ## Each kind of step keeps the invariant -/

theorem takeSample_cleanerInv (h : CleanerInv s) (result : Option (Taken C I)) :
    CleanerInv (takeSample r s result) := by
  cases result with
  | none =>
    obtain ⟨ht, -, -, -, hf, hc⟩ := unlockData_fields (s := s) .listener
    exact h.of_sameThreads hf hc ht
  | some t =>
    simp only [takeSample]
    split
    · refine h.mono rfl rfl fun i th hth hn => ⟨th, ?_, hn⟩
      show (s.threads ++ _)[i]? = some th
      rw [List.getElem?_append_left (lt_length_of_getElem? hth)]
      exact hth
    · obtain ⟨ht, -, -, -, hf, hc⟩ :=
        unlockData_fields (s := { s with dynamicData := some t.data }) .listener
      exact h.of_sameThreads hf hc ht

theorem stepListener_cleanerInv {result : Option (Taken C I)} (h : CleanerInv s)
    (hstep : stepListener r s result = some s') : CleanerInv s' := by
  unfold stepListener at hstep
  split at hstep
  · split at hstep <;> cases hstep
    exact h.of_sameThreads rfl rfl rfl
  · split at hstep <;> cases hstep
    exact h.of_sameThreads rfl rfl rfl
  · split at hstep <;> cases hstep
    · obtain ⟨ht, -, -, -, hf, hc⟩ := unlockData_fields (s := s) .listener
      exact h.of_sameThreads hf hc ht
    · exact (takeSample_cleanerInv h result).of_sameThreads rfl rfl rfl
  · cases hstep
    exact h.of_sameThreads rfl rfl rfl

theorem stepRead_cleanerInv {id : Nat} (h : CleanerInv s) (hstep : stepRead s id = some s') :
    CleanerInv s' := by
  unfold stepRead at hstep
  split at hstep
  · rename_i th d hth hd
    split at hstep <;> cases hstep
    exact h.setThread { th with reads := d :: th.reads } hth (fun hn => hn) rfl rfl rfl
  · cases hstep

theorem stepThread_cleanerInv {id : Nat} {branch : Bool} (h : CleanerInv s)
    (hstep : stepThread r fastddsToXtypes s id branch = some s') : CleanerInv s' := by
  unfold stepThread at hstep
  split at hstep
  · cases hstep
  rename_i th hth
  split at hstep
  -- one case per point of `receive`; no step takes a thread back past its notification
  · split at hstep <;> cases hstep
    · exact h.setThread _ hth (by simp_all [ThreadPc.notified]) rfl rfl rfl
    · obtain ⟨ht, -, -, -, hf, hc⟩ :=
        unlockData_fields (s := s.setThread id { th with pc := .ended }) (.thread id)
      exact h.setThread _ hth (fun _ => rfl) ht hf hc
  · split at hstep <;> cases hstep
    exact h.setThread _ hth (by simp_all [ThreadPc.notified]) rfl rfl rfl
  · rename_i message hpc
    cases hstep
    obtain ⟨ht, -, -, -, hf, hc⟩ := unlockData_fields
      (s := s.setThread id { th with pc := .dispatch message }) (.thread id)
    exact h.setThread _ hth (by simp_all [ThreadPc.notified]) ht hf hc
  · cases hstep
    exact h.setThread _ hth (by simp_all [ThreadPc.notified]) rfl rfl rfl
  · split at hstep <;> cases hstep <;>
      exact h.setThread _ hth (by simp_all [ThreadPc.notified]) rfl rfl rfl
  · split at hstep <;> cases hstep
    exact h.setThread _ hth (by simp_all [ThreadPc.notified]) rfl rfl rfl
  · cases hstep
    -- the only step that appends to `finished_threads_`: this thread moves past it
    have hmono := notified_set { th with pc := .leave } hth (fun _ => rfl)
    have hlt := lt_length_of_getElem? hth
    refine ⟨fun i hi => ?_, fun i hi => (h.pending i hi).mono hmono⟩
    rcases List.mem_append.mp hi with hi | hi
    · exact (h.finished i hi).mono hmono
    · obtain rfl := List.mem_singleton.mp hi
      exact ⟨{ th with pc := .leave }, List.getElem?_set_self hlt, rfl⟩
  · cases hstep
    exact h.setThread _ hth (fun _ => rfl) rfl rfl rfl
  · cases hstep

/-- The threads that are left when the cleaner finds `stop_cleaner_` set and goes on to its final
loop have all ended. -/
def quietShutdown (s : State C I M) (e : Event C I) : Prop :=
  match e, s.cleaner with
  | .cleaner, .test => s.stopCleaner = true → ∀ id ∈ s.receptionThreads, s.hasEnded id = true
  | _, _ => True

instance (s : State C I M) (e : Event C I) : Decidable (quietShutdown s e) := by
  unfold quietShutdown
  split <;> infer_instance

theorem stepCleaner_cleanerInv (h : CleanerInv s) (hquiet : quietShutdown s .cleaner)
    (hstep : stepCleaner s = some s') : CleanerInv s' := by
  unfold stepCleaner at hstep
  split at hstep
  · split at hstep <;> cases hstep
    exact ⟨h.finished, by simp [CleanerPc.pending]⟩
  · rename_i hpc
    split at hstep <;> cases hstep
    · rename_i hstop
      refine ⟨h.finished, fun id hid => ?_⟩
      -- the final loop takes all of `reception_threads_`: only the hypothesis says they ended
      have hended : s.hasEnded id = true := by
        unfold quietShutdown at hquiet
        rw [hpc] at hquiet
        exact hquiet hstop id hid
      exact State.Notified.of_hasEnded hended
    · exact ⟨h.finished, by simp [CleanerPc.pending]⟩
  · split at hstep <;> cases hstep
    -- the loop over `finished_threads_` starts
    · exact ⟨h.finished, h.finished⟩
    · exact ⟨h.finished, by simp [CleanerPc.pending]⟩
  · split at hstep <;> cases hstep
    exact ⟨h.finished, by simp [CleanerPc.pending]⟩
  · cases hstep
    exact ⟨h.finished, by simp [CleanerPc.pending]⟩
  · rename_i id rest stopped hpc
    have hpending : ∀ i ∈ id :: rest, s.Notified i := h.pending_of hpc
    split at hstep <;> cases hstep
    · exact ⟨h.finished, hpending⟩
    · exact ⟨h.finished, fun i hi => hpending i (List.mem_cons_of_mem _ hi)⟩
  · rename_i id rest stopped hpc
    have hpending : ∀ i ∈ id :: rest, s.Notified i := h.pending_of hpc
    split at hstep <;> cases hstep
    exact ⟨h.finished, fun i hi => hpending i (List.mem_cons_of_mem _ hi)⟩
  · cases hstep
    exact ⟨h.finished, by simp [CleanerPc.pending]⟩
  · cases hstep
    exact ⟨fun i hi => h.finished i (List.mem_of_mem_erase hi), by simp [CleanerPc.pending]⟩
  · split at hstep <;> cases hstep
    exact ⟨h.finished, by simp [CleanerPc.pending]⟩
  · cases hstep
    exact ⟨h.finished, by simp [CleanerPc.pending]⟩
  · rename_i id rest hpc
    cases hstep
    have hpending : ∀ i ∈ id :: rest, s.Notified i := h.pending_of hpc
    exact ⟨h.finished, hpending⟩
  · rename_i id rest hpc
    have hpending : ∀ i ∈ id :: rest, s.Notified i := h.pending_of hpc
    split at hstep <;> cases hstep
    exact ⟨h.finished, fun i hi => hpending i (List.mem_cons_of_mem _ hi)⟩
  · cases hstep

theorem stepDestructor_cleanerInv (h : CleanerInv s) (hstep : stepDestructor s = some s') :
    CleanerInv s' := by
  unfold stepDestructor at hstep
  split at hstep
  · split at hstep <;> cases hstep
    exact h.of_sameThreads rfl rfl rfl
  · cases hstep
    exact h.of_sameThreads rfl rfl rfl
  · split at hstep <;> cases hstep
    exact h.of_sameThreads rfl rfl rfl
  · split at hstep <;> cases hstep
    exact h.of_sameThreads rfl rfl rfl
  · cases hstep
    obtain ⟨ht, -, -, -, hf, hc⟩ :=
      unlockData_fields (s := { s with dynamicData := none }) .destructor
    exact h.of_sameThreads hf hc ht
  · cases hstep

theorem cleanerInv_of_reachable
    (h : (machine r fastddsToXtypes (I := I)).ReachableVia quietShutdown s) : CleanerInv s := by
  refine h.invariant ?_ ?_
  · rintro s rfl
    exact cleanerInv_initial
  · intro s e s' hinv hquiet hstep
    cases e with
    | listener result => exact stepListener_cleanerInv hinv hstep
    | read id => exact stepRead_cleanerInv hinv hstep
    | thread id branch => exact stepThread_cleanerInv hinv hstep
    | cleaner => exact stepCleaner_cleanerInv hinv hquiet hstep
    | destructor => exact stepDestructor_cleanerInv hinv hstep

/-! ## Deadlock on the cleaner mutex -/

/-- No deadlock in any run in which no reception thread is at work any more when the cleaner goes on
to its final loop. -/
theorem not_deadlocked_of_quietShutdown
    (h : (machine r fastddsToXtypes (I := I)).ReachableVia quietShutdown s) : ¬ Deadlocked s := by
  rintro ⟨id, th, hjoining, -, hth, hmust⟩
  -- the thread that is joined has notified the cleaner, so it is past its lock
  have hmem := CleanerPc.mem_pending_of_joining hjoining
  obtain ⟨th', hth', hn⟩ := (cleanerInv_of_reachable h).pending id hmem
  rw [hth] at hth'
  cases hth'
  rw [ThreadPc.mustLockCleaner_of_notified hn] at hmust
  cases hmust

def quietRun : List (Event Nat Nat) :=
  [.listener none, .listener none, .listener (some ⟨7, 3, true⟩), .listener none,
    .thread 0 true, .thread 0 true, .thread 0 true, .thread 0 true, .thread 0 true, .thread 0 true,
    .destructor, .destructor, .cleaner, .cleaner, .cleaner]

theorem not_deadlocked_quietRun :
    ∃ s, (machine .subscriber some).run (.initial : State Nat Nat Nat) quietRun = some s ∧
      s.cleaner = .drainJoin 0 [] ∧ ¬ Deadlocked s := by
  refine ⟨_, rfl, rfl, ?_⟩
  have hreach := Machine.ReachableVia.of_runVia (S := machine .subscriber some)
    (C := quietShutdown) (Machine.ReachableVia.init rfl) quietRun rfl
  exact not_deadlocked_of_quietShutdown hreach

/-- The destructor stops the cleaner while the only reception thread is past its conversion (in a
server's case past its lookup too) and about to run its callback. -/
def shutdownDuringCallback (r : Receiver) : List (Event Nat Nat) :=
  [.listener none, .listener none, .listener (some ⟨7, 3, true⟩), .listener none] ++
    (if r = .server then [.thread 0 true] else []) ++
    [.thread 0 true, .thread 0 true, .destructor, .destructor, .cleaner, .cleaner, .cleaner]

/-- The final loop joins the thread with `cleaner_mtx_` held, in all three classes. -/
theorem deadlocked_shutdownDuringCallback :
    (∃ s : State Nat Nat Nat, (machine .subscriber some).Reachable s ∧ Deadlocked s) ∧
    (∃ s : State Nat Nat Nat, (machine .client some).Reachable s ∧ Deadlocked s) ∧
    ∃ s : State Nat Nat Nat, (machine .server some).Reachable s ∧ Deadlocked s := by
  have hinit : ∀ r, (machine r some (I := Nat)).Reachable (.initial : State Nat Nat Nat) :=
    fun r => Machine.ReachableVia.init rfl
  refine ⟨?_, ?_, ?_⟩
  · exact ⟨_, (hinit _).of_run (shutdownDuringCallback .subscriber) rfl,
      0, _, rfl, rfl, rfl, rfl⟩
  · exact ⟨_, (hinit _).of_run (shutdownDuringCallback .client) rfl, 0, _, rfl, rfl, rfl, rfl⟩
  · exact ⟨_, (hinit _).of_run (shutdownDuringCallback .server) rfl, 0, _, rfl, rfl, rfl, rfl⟩

end FastDdsSh.Reception
