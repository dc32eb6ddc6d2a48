import FastDdsSh.Reception.Reaping

/-!
# The two models of the reception threads

Without the data mutex, the buffer and the messages, a run of the model of reception is a run of the
model of its containers, in which every thread has its number as its id.
-/

namespace FastDdsSh.Reception

open Transition

variable {C I M : Type} {r : Receiver} {fastddsToXtypes : C → Option M} {s s' : State C I M}

def ThreadPc.progress : ThreadPc M → Reaping.Progress
  | .lookup | .convert | .unlock _ | .dispatch _ | .lockCleaner => .running
  | .notify => .notify
  | .leave => .leave
  | .ended => .ended

def ListenerPc.containers : ListenerPc → Reaping.ListenerPc
  | .idle => .idle
  | .lockData | .take => .create
  | .leave => .leave

def CleanerPc.containers : CleanerPc → Reaping.CleanerPc Nat
  | .start => .start
  | .test => .test
  | .waitTest => .waitTest
  | .wait => .wait
  | .scan rest stopped => .scan rest stopped
  | .join id rest stopped => .join id id rest stopped
  | .prune stopped => .prune stopped
  | .sleep => .sleep
  | .drain rest => .drain rest
  | .drainJoin id rest => .drainJoin id rest
  | .done => .done

def DestructorPc.containers : DestructorPc → Reaping.DestructorPc
  | .idle => .idle
  | .setStop => .setStop
  | .joinCleaner | .lockData | .dispose | .done => .stopped

def State.containers (s : State C I M) : Reaping.State Nat where
  cleanerMtx := s.cleanerMtx
  stopCleaner := s.stopCleaner
  receptionThreads := s.receptionThreads.map fun id => (id, id)
  finishedThreads := s.finishedThreads
  threads := s.threads.mapIdx fun id th => ⟨id, th.pc.progress⟩
  listener := s.listener.containers
  cleaner := s.cleaner.containers
  destructor := s.destructor.containers
  joined := s.joined

/-! ## Access to the threads and to the map -/

theorem set_getElem?_self {α : Type} {l : List α} {i : Nat} {a : α} (h : l[i]? = some a) :
    l.set i a = l := by
  apply List.ext_getElem?
  intro j
  by_cases hj : j = i
  · rw [hj, List.getElem?_set_self (lt_length_of_getElem? h), h]
  · rw [List.getElem?_set_ne (Ne.symm hj)]

theorem containers_getElem? (s : State C I M) (id : Nat) :
    s.containers.threads[id]? = (s.threads[id]?).map fun th => ⟨id, th.pc.progress⟩ := by
  show (s.threads.mapIdx _)[id]? = _
  rw [List.getElem?_mapIdx]

theorem containers_setThread (s : State C I M) (id : Nat) (th : Thread C I M) :
    (s.setThread id th).containers =
      { s.containers with threads := s.containers.threads.set id ⟨id, th.pc.progress⟩ } := by
  unfold State.containers State.setThread
  simp only [List.mapIdx_set]

theorem containers_unlockData (s : State C I M) (a : Activity) :
    (s.unlockData a).containers = s.containers := by
  unfold State.unlockData
  split <;> rfl

theorem containers_hasEnded (s : State C I M) (id : Nat) :
    s.containers.hasEnded id = s.hasEnded id := by
  unfold Reaping.State.hasEnded State.hasEnded
  rw [containers_getElem?]
  cases s.threads[id]? with
  | none => rfl
  | some th =>
    obtain ⟨pc, sample, info, reads⟩ := th
    cases pc <;> rfl

theorem keys_containers (s : State C I M) :
    s.containers.receptionThreads.map Prod.fst = s.receptionThreads := by
  show (s.receptionThreads.map _).map Prod.fst = _
  rw [List.map_map]
  exact List.map_id _

theorem lookup_containers {s : State C I M} {id : Nat} (h : id ∈ s.receptionThreads) :
    s.containers.receptionThreads.lookup id = some id := by
  show (s.receptionThreads.map fun id => (id, id)).lookup id = some id
  exact List.lookup_graph (fun id => id) h

theorem lookup_containers_of_not_mem {s : State C I M} {id : Nat} (h : id ∉ s.receptionThreads) :
    s.containers.receptionThreads.lookup id = none := by
  rw [List.lookup_eq_none_iff]
  intro e he
  obtain ⟨i, hi, rfl⟩ := List.mem_map.mp he
  rw [bne_iff_ne]
  exact fun heq => h (heq ▸ hi)

theorem erase_containers {s : State C I M} (h : s.receptionThreads.Nodup) (id : Nat) :
    (s.receptionThreads.erase id).map (fun i => (i, i)) =
      s.containers.receptionThreads.filter fun e => e.1 ≠ id := by
  rw [h.erase_eq_filter]
  show _ = (s.receptionThreads.map fun i => (i, i)).filter _
  rw [List.filter_map]
  congr 1
  apply List.filter_congr
  intro i _
  simp [Function.comp, bne, beq_eq_decide]

/-- Number `s.threads.length` is new. -/
theorem isFree_containers (s : State C I M) : s.containers.isFree s.threads.length = true := by
  unfold Reaping.State.isFree
  rw [List.all_eq_true]
  intro t ht
  rw [List.mem_zipIdx_iff_getElem?, containers_getElem?] at ht
  obtain ⟨th, hth, heq⟩ := Option.map_eq_some_iff.mp ht
  have hid : t.1.id = t.2 := by rw [← heq]
  have hlt : t.2 < s.threads.length := lt_length_of_getElem? hth
  apply decide_eq_true
  intro hlast
  omega

def LooksUp (r : Receiver) (s : State C I M) : Prop :=
  ∀ (id : Nat) (th : Thread C I M), s.threads[id]? = some th → th.pc = .lookup → r = .server

/-! ## Steps -/

/-- Either nothing happens to the containers, or a step of theirs. -/
def Simulated (r : Receiver) (s s' : State C I M) : Prop :=
  s'.containers = s.containers ∨
    ∃ a, Reaping.step r s.containers a = some s'.containers

theorem simulated_of_eq {a : Reaping.Event Nat} {t : Reaping.State Nat}
    (hstep : Reaping.step r s.containers a = some t) (h : s'.containers = t) : Simulated r s s' :=
  .inr ⟨a, by rw [hstep, h]⟩

theorem stepListener_simulated {result : Option (Taken C I)} (hinv : Reaping.Inv s.containers)
    (hstep : stepListener r s result = some s') : Simulated r s s' := by
  unfold stepListener at hstep
  cases hpc : s.listener with
  | idle =>
    have hlistener : s.containers.listener = .idle := congrArg ListenerPc.containers hpc
    rw [hpc] at hstep
    simp only at hstep
    split at hstep
    · rename_i hfree
      cases hstep
      refine simulated_of_eq (a := .listener none)
        (t := { s.containers with cleanerMtx := some .listener, listener := .create }) ?_ rfl
      rw [Reaping.step, Reaping.stepListener, hlistener]
      exact if_pos hfree
    · cases hstep
  | lockData =>
    rw [hpc] at hstep
    simp only at hstep
    split at hstep
    · cases hstep
      refine .inl ?_
      unfold State.containers State.lockData
      rw [hpc]
      rfl
    · cases hstep
  | take =>
    have hlistener : s.containers.listener = .create := congrArg ListenerPc.containers hpc
    -- nothing is taken, or what is taken is not alive
    have hnothing {t : State C I M} (ht : t.containers = s.containers) :
        Simulated r s { t with listener := .leave } := by
      refine simulated_of_eq (a := .listener none)
        (t := { s.containers with listener := .leave }) ?_ ?_
      · rw [Reaping.step, Reaping.stepListener, hlistener]
      · rw [← ht]
        rfl
    rw [hpc] at hstep
    simp only at hstep
    split at hstep
    · cases hstep
      exact hnothing (containers_unlockData s .listener)
    · rename_i hstop
      cases hstep
      cases result with
      | none => exact hnothing (containers_unlockData s .listener)
      | some taken =>
        unfold takeSample
        simp only
        split
        · refine simulated_of_eq (a := .listener (some s.threads.length))
            (t := { s.containers with
              threads := s.containers.threads ++ [⟨s.threads.length, .running⟩]
              receptionThreads := s.containers.emplace s.threads.length s.containers.threads.length
              listener := .leave }) ?_ ?_
          · rw [Reaping.step, Reaping.stepListener, hlistener]
            exact if_pos ⟨Bool.eq_false_iff.mpr hstop, isFree_containers s⟩
          -- the new thread's id is its position, and every id in the map is an older one's
          · have hkey : s.threads.length ∉ s.containers.receptionThreads.map Prod.fst := by
              intro hmem
              obtain ⟨⟨id, i⟩, he, hid⟩ := List.mem_map.mp hmem
              obtain ⟨th, hth, -⟩ := hinv.tables.entry id i he
              have hsame : id = i := by
                obtain ⟨j, -, hj⟩ := List.mem_map.mp he
                cases hj
                rfl
              have hlt : i < s.containers.threads.length := lt_length_of_getElem? hth
              rw [show s.containers.threads.length = s.threads.length from List.length_mapIdx]
                at hlt
              have hid' : id = s.threads.length := hid
              omega
            have hlength : s.containers.threads.length = s.threads.length := List.length_mapIdx
            rw [hlength, show s.containers.emplace s.threads.length s.threads.length =
              s.containers.receptionThreads ++ [(s.threads.length, s.threads.length)] from
                if_neg hkey]
            unfold State.containers
            simp only [List.mapIdx_concat, List.map_append]
            cases r <;> rfl
        · exact hnothing
            (t := ({ s with dynamicData := some taken.data } : State C I M).unlockData _)
            (containers_unlockData _ .listener)
  | leave =>
    have hlistener : s.containers.listener = .leave := congrArg ListenerPc.containers hpc
    rw [hpc] at hstep
    cases hstep
    refine simulated_of_eq (a := .listener none)
      (t := { s.containers with cleanerMtx := none, listener := .idle }) ?_ rfl
    rw [Reaping.step, Reaping.stepListener, hlistener]

theorem stepThread_simulated {id : Nat} {branch : Bool} (hlooks : LooksUp r s)
    (hstep : stepThread r fastddsToXtypes s id branch = some s') : Simulated r s s' := by
  unfold stepThread at hstep
  split at hstep
  · cases hstep
  · rename_i th hth
    have hcontainers : s.containers.threads[id]? = some ⟨id, th.pc.progress⟩ := by
      rw [containers_getElem?, hth, Option.map_some]
    -- a step of `receive` before it locks `cleaner_mtx_`
    have hinner {t : State C I M} {th' : Thread C I M}
        (ht : t.containers = (s.setThread id th').containers)
        (hpc : th'.pc.progress = th.pc.progress) : Simulated r s t := by
      refine .inl ?_
      rw [ht, containers_setThread, hpc]
      rw [set_getElem?_self hcontainers]
    cases hpc : th.pc with
    | lookup =>
      rw [hpc] at hstep hcontainers
      simp only at hstep
      split at hstep
      · cases hstep
        exact hinner rfl (by rw [hpc]; rfl)
      -- a reply to an unknown request: the thread ends without `cleaner_mtx_`
      · rename_i hbranch
        cases hstep
        refine simulated_of_eq (a := .thread id false)
          (t := s.containers.setProgress id ⟨id, .running⟩ .ended) ?_ ?_
        · rw [Reaping.step, Reaping.stepThread, hcontainers]
          exact if_pos (hlooks id th hth hpc)
        · rw [containers_unlockData, containers_setThread]
          rfl
    | convert =>
      rw [hpc] at hstep
      simp only at hstep
      split at hstep
      · cases hstep
      · cases hstep
        exact hinner rfl (by rw [hpc]; rfl)
    | unlock message =>
      rw [hpc] at hstep
      cases hstep
      exact hinner (containers_unlockData _ _) (by rw [hpc]; rfl)
    | dispatch message =>
      rw [hpc] at hstep
      cases message with
      | none =>
        cases hstep
        exact hinner rfl (by rw [hpc]; rfl)
      | some message =>
        simp only at hstep
        split at hstep
        · cases hstep
          exact hinner rfl (by rw [hpc]; rfl)
        · cases hstep
          exact hinner rfl (by rw [hpc]; rfl)
    -- from here on each step of the thread is one of the containers' own
    | lockCleaner =>
      rw [hpc] at hstep hcontainers
      simp only at hstep
      split at hstep
      · rename_i hfree
        cases hstep
        refine simulated_of_eq (a := .thread id true)
          (t := { s.containers.setProgress id ⟨id, .running⟩ .notify with
            cleanerMtx := some (.thread id) }) ?_ ?_
        · rw [Reaping.step, Reaping.stepThread, hcontainers]
          exact if_pos hfree
        · have hset := containers_setThread s id { th with pc := .notify }
          exact congrArg (fun t : Reaping.State Nat =>
            { t with cleanerMtx := some (.thread id) }) hset
      · cases hstep
    | notify =>
      rw [hpc] at hstep hcontainers
      cases hstep
      refine simulated_of_eq (a := .thread id true)
        (t := { s.containers.setProgress id ⟨id, .notify⟩ .leave with
          finishedThreads := s.finishedThreads ++ [id] }) ?_ ?_
      · rw [Reaping.step, Reaping.stepThread, hcontainers]
        rfl
      · have hset := containers_setThread s id { th with pc := .leave }
        exact congrArg (fun t : Reaping.State Nat =>
          { t with finishedThreads := s.finishedThreads ++ [id] }) hset
    | leave =>
      rw [hpc] at hstep hcontainers
      cases hstep
      refine simulated_of_eq (a := .thread id true)
        (t := { s.containers.setProgress id ⟨id, .leave⟩ .ended with cleanerMtx := none }) ?_ ?_
      · rw [Reaping.step, Reaping.stepThread, hcontainers]
        rfl
      · have hset := containers_setThread s id { th with pc := .ended }
        exact congrArg (fun t : Reaping.State Nat => { t with cleanerMtx := none }) hset
    | ended =>
      rw [hpc] at hstep
      cases hstep

theorem stepCleaner_simulated (hinv : Reaping.Inv s.containers)
    (hstep : stepCleaner s = some s') : Simulated r s s' := by
  have hnodup : s.receptionThreads.Nodup := by
    have hkeys := hinv.tables.keys
    rw [show s.containers.view.receptionThreads = s.containers.receptionThreads from rfl,
      keys_containers] at hkeys
    exact hkeys
  -- a step of the cleaner that only moves it, or the mutex and it
  have hmoves {t : State C I M}
      (h : Reaping.stepCleaner s.containers = some t.containers) : Simulated r s t :=
    .inr ⟨.cleaner, h⟩
  unfold stepCleaner at hstep
  unfold Reaping.stepCleaner at hmoves
  cases hpc : s.cleaner with
  | start | wait | sleep =>
    have hcleaner := congrArg CleanerPc.containers hpc
    rw [hpc] at hstep
    simp only at hstep
    split at hstep
    · rename_i hfree
      cases hstep
      apply hmoves
      rw [show s.containers.cleaner = _ from hcleaner]
      exact if_pos hfree
    · cases hstep
  | test | waitTest =>
    have hcleaner := congrArg CleanerPc.containers hpc
    rw [hpc] at hstep
    simp only at hstep
    split at hstep
    · rename_i htest
      cases hstep
      apply hmoves
      rw [show s.containers.cleaner = _ from hcleaner]
      refine (if_pos htest).trans ?_
      first
        | rfl
        | exact congrArg some (by
            rw [show s.containers.receptionThreads.map Prod.snd = s.receptionThreads by
              show (s.receptionThreads.map _).map Prod.snd = _
              rw [List.map_map]
              exact List.map_id _]
            rfl)
    · rename_i htest
      cases hstep
      apply hmoves
      rw [show s.containers.cleaner = _ from hcleaner]
      exact if_neg htest
  | scan rest stopped =>
    have hcleaner := congrArg CleanerPc.containers hpc
    rw [hpc] at hstep
    cases rest with
    | nil =>
      cases hstep
      apply hmoves
      rw [show s.containers.cleaner = _ from hcleaner]
      rfl
    | cons id rest =>
      simp only at hstep
      split at hstep
      -- `reception_threads_.find(id)` decides between a join and the next id
      · rename_i hmem
        cases hstep
        apply hmoves
        rw [show s.containers.cleaner = _ from hcleaner]
        dsimp only [CleanerPc.containers]
        rw [lookup_containers hmem]
        show some _ = some _
        rw [← erase_containers hnodup id]
        rfl
      · rename_i hmem
        cases hstep
        apply hmoves
        rw [show s.containers.cleaner = _ from hcleaner]
        dsimp only [CleanerPc.containers]
        rw [lookup_containers_of_not_mem hmem]
        rfl
  | join id rest stopped | drainJoin id rest =>
    have hcleaner := congrArg CleanerPc.containers hpc
    rw [hpc] at hstep
    simp only at hstep
    split at hstep
    · rename_i hended
      cases hstep
      apply hmoves
      rw [show s.containers.cleaner = _ from hcleaner]
      exact if_pos ((containers_hasEnded s id).trans hended)
    · cases hstep
  | prune rest | drain rest =>
    have hcleaner := congrArg CleanerPc.containers hpc
    rw [hpc] at hstep
    cases rest with
    | nil =>
      cases hstep
      apply hmoves
      rw [show s.containers.cleaner = _ from hcleaner]
      rfl
    | cons id rest =>
      cases hstep
      apply hmoves
      rw [show s.containers.cleaner = _ from hcleaner]
      rfl
  | done =>
    rw [hpc] at hstep
    cases hstep

theorem stepDestructor_simulated (hstep : stepDestructor s = some s') : Simulated r s s' := by
  unfold stepDestructor at hstep
  cases hpc : s.destructor with
  | idle =>
    have hdestructor : s.containers.destructor = .idle := congrArg DestructorPc.containers hpc
    rw [hpc] at hstep
    simp only at hstep
    split at hstep
    · rename_i hfree
      cases hstep
      refine .inr ⟨.destructor, ?_⟩
      rw [Reaping.step, Reaping.stepDestructor, hdestructor]
      exact if_pos hfree
    · cases hstep
  | setStop =>
    have hdestructor : s.containers.destructor = .setStop := congrArg DestructorPc.containers hpc
    rw [hpc] at hstep
    cases hstep
    refine .inr ⟨.destructor, ?_⟩
    rw [Reaping.step, Reaping.stepDestructor, hdestructor]
    rfl
  | joinCleaner | lockData =>
    -- the data mutex is no container's
    rw [hpc] at hstep
    simp only at hstep
    split at hstep
    · cases hstep
      refine .inl ?_
      unfold State.containers
      rw [hpc]
      rfl
    · cases hstep
  | dispose =>
    rw [hpc] at hstep
    cases hstep
    refine .inl ?_
    unfold State.unlockData State.containers
    split <;> rw [hpc] <;> rfl
  | done =>
    rw [hpc] at hstep
    cases hstep

theorem looksUp_initial : LooksUp r (.initial : State C I M) := by
  intro id th hth
  cases hth

/-- A step that changes one thread leaves it past the first critical section. -/
theorem LooksUp.of_set (h : LooksUp r s) {id : Nat} {th th' : Thread C I M}
    (hth : s.threads[id]? = some th) (hpc : th'.pc ≠ .lookup)
    (hthreads : s'.threads = s.threads.set id th') : LooksUp r s' := by
  intro i u hu hlookup
  rw [hthreads] at hu
  rcases getElem?_set_cases hth hu with ⟨-, rfl⟩ | ⟨-, hold⟩
  · exact absurd hlookup hpc
  · exact h i u hold hlookup

theorem LooksUp.of_sameThreads (h : LooksUp r s) (hthreads : s'.threads = s.threads) :
    LooksUp r s' := by
  intro i u hu hlookup
  rw [hthreads] at hu
  exact h i u hu hlookup

theorem stepListener_looksUp {result : Option (Taken C I)} (h : LooksUp r s)
    (hstep : stepListener r s result = some s') : LooksUp r s' := by
  unfold stepListener at hstep
  split at hstep
  · split at hstep <;> cases hstep
    exact h.of_sameThreads rfl
  · split at hstep <;> cases hstep
    exact h.of_sameThreads rfl
  · split at hstep
    · cases hstep
      exact h.of_sameThreads (unlockData_fields _).1
    · cases hstep
      cases result with
      | none => exact h.of_sameThreads (unlockData_fields _).1
      | some taken =>
        unfold takeSample
        simp only
        split
        · intro i u hu hlookup
          rcases getElem?_concat_cases hu with hold | ⟨-, rfl⟩
          · exact h i u hold hlookup
          · cases r <;> first | rfl | cases hlookup
        · exact h.of_sameThreads (unlockData_fields _).1
  · cases hstep
    exact h.of_sameThreads rfl

theorem stepThread_looksUp {id : Nat} {branch : Bool} (h : LooksUp r s)
    (hstep : stepThread r fastddsToXtypes s id branch = some s') : LooksUp r s' := by
  unfold stepThread at hstep
  split at hstep
  · cases hstep
  · rename_i th hth
    have hset {t : State C I M} (th' : Thread C I M) (hpc : th'.pc ≠ .lookup)
        (ht : t.threads = s.threads.set id th') : LooksUp r t := h.of_set hth hpc ht
    split at hstep
    · split at hstep <;> cases hstep
      · exact hset { th with pc := .convert } (fun hcon => by cases hcon) rfl
      · exact hset { th with pc := .ended } (fun hcon => by cases hcon)
          (unlockData_fields _).1
    · split at hstep
      · cases hstep
      · cases hstep
        exact hset _ (fun hcon => by cases hcon) rfl
    · rename_i message _
      cases hstep
      exact hset { th with pc := .dispatch message } (fun hcon => by cases hcon)
        (unlockData_fields _).1
    · cases hstep
      exact hset _ (fun hcon => by cases hcon) rfl
    · simp only at hstep
      split at hstep <;> cases hstep <;>
        exact hset _ (fun hcon => by cases hcon) rfl
    · split at hstep <;> cases hstep
      exact hset { th with pc := .notify } (fun hcon => by cases hcon) rfl
    · cases hstep
      exact hset { th with pc := .leave } (fun hcon => by cases hcon) rfl
    · cases hstep
      exact hset { th with pc := .ended } (fun hcon => by cases hcon) rfl
    · cases hstep

theorem step_looksUp {e : Event C I} (h : LooksUp r s)
    (hstep : step r fastddsToXtypes s e = some s') : LooksUp r s' := by
  cases e with
  | listener result => exact stepListener_looksUp h hstep
  | read id =>
    rw [step, stepRead] at hstep
    split at hstep
    · rename_i th d hth _
      split at hstep
      · rename_i hpc
        cases hstep
        have hnot : ({ th with reads := d :: th.reads } : Thread C I M).pc ≠ .lookup := by
          show th.pc ≠ .lookup
          rw [hpc]
          intro hcon
          cases hcon
        exact h.of_set hth hnot rfl
      · cases hstep
    · cases hstep
  | thread id branch => exact stepThread_looksUp h hstep
  | cleaner =>
    -- neither the cleaner nor the destructor changes a thread
    have hsame : s'.threads = s.threads := by
      rw [step, stepCleaner] at hstep
      split at hstep <;> (try split at hstep) <;> cases hstep <;> rfl
    exact h.of_sameThreads hsame
  | destructor =>
    have hsame : s'.threads = s.threads := by
      rw [step, stepDestructor] at hstep
      split at hstep <;> (try split at hstep) <;> cases hstep <;>
        first | rfl | exact (unlockData_fields _).1
    exact h.of_sameThreads hsame

/-! ## Runs -/

theorem step_simulated {e : Event C I} (hlooks : LooksUp r s) (hinv : Reaping.Inv s.containers)
    (hstep : step r fastddsToXtypes s e = some s') : Simulated r s s' := by
  cases e with
  | listener result => exact stepListener_simulated hinv hstep
  | read id =>
    rw [step, stepRead] at hstep
    split at hstep
    · rename_i th d hth _
      split at hstep
      · cases hstep
        refine .inl ?_
        rw [containers_setThread]
        have hcontainers : s.containers.threads[id]? = some ⟨id, th.pc.progress⟩ := by
          rw [containers_getElem?, hth, Option.map_some]
        rw [set_getElem?_self hcontainers]
      · cases hstep
    · cases hstep
  | thread id branch => exact stepThread_simulated hlooks hstep
  | cleaner => exact stepCleaner_simulated hinv hstep
  | destructor => exact stepDestructor_simulated hstep

/-- Every run of the model of reception is a run of the model of its containers. -/
theorem containers_reachable (h : (machine r fastddsToXtypes (I := I)).Reachable s) :
    (Reaping.machine r).Reachable s.containers := by
  -- the first critical section is followed along with the run: `step_simulated` needs it
  have hboth : LooksUp r s ∧ (Reaping.machine r).Reachable s.containers := by
    refine h.invariant
      (I := fun s => LooksUp r s ∧ (Reaping.machine r).Reachable s.containers) ?_ ?_
    · rintro s rfl
      exact ⟨looksUp_initial, Machine.ReachableVia.init rfl⟩
    · rintro s e s' ⟨hlooks, hreach⟩ hstep
      refine ⟨step_looksUp hlooks hstep, ?_⟩
      rcases step_simulated hlooks (Reaping.inv_of_reachable hreach) hstep with hsame | ⟨a, ha⟩
      · rw [hsame]
        exact hreach
      · exact Machine.ReachableVia.step hreach trivial ha
  exact hboth.2

end FastDdsSh.Reception
