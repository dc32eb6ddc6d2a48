import FastDdsSh.Reception.Buffer
import FastDdsSh.Reception.Shutdown
import FastDdsSh.Reception.Simulation

/-!
# How receptions end

A thread on `receive` pushes its id to `finished_threads_` at the end of the function.  The early
exit of `Server::receive`, for a reply that answers no request, does not come past it.
-/

namespace FastDdsSh.Reception

open Transition

variable {C I M : Type} {r : Receiver} {fastddsToXtypes : C → Option M} {s s' : State C I M}

/-- How a thread comes to its end: its id is pushed to `finished_threads_`, or it was started for a
"reply from unasked request". -/
inductive Ending where
  | pushed
  | ignored
  deriving DecidableEq, Repr

def endings (s : State C I M) : Event C I → List (Nat × Ending)
  | .thread id branch =>
      match s.threads[id]? with
      | some th =>
          match th.pc with
          -- `sample_callhandle_` does not have the sample
          | .lookup => if branch then [] else [(id, .ignored)]
          | .notify => [(id, .pushed)]
          | _ => []
      | none => []
  | _ => []

def AllEnded (s : State C I M) : Prop :=
  ∀ (id : Nat) (th : Thread C I M), s.threads[id]? = some th → th.pc = .ended

def CompletesIteration (r : Receiver) (fastddsToXtypes : C → Option M) (s : State C I M)
    (events : List (Event C I)) : Prop :=
  ∃ (before after : List (Event C I)) (t : State C I M), events = before ++ .cleaner :: after ∧
    (machine r fastddsToXtypes).run s before = some t ∧ t.cleaner = .prune []

/-- In the run, every thread that has ended has pushed its id once; and when all threads have ended
and no thread is started, `reception_threads_` is empty after an iteration of the cleaner. -/
structure HandsOver (r : Receiver) (fastddsToXtypes : C → Option M) (events : List (Event C I)) :
    Prop where
  once : ∀ (s : State C I M) (id : Nat) (th : Thread C I M),
    (machine r fastddsToXtypes).run .initial events = some s → s.threads[id]? = some th →
    th.pc = .ended →
    ((machine r fastddsToXtypes).log endings .initial events).count (id, .pushed) = 1
  emptied : ∀ (before after : List (Event C I)) (s s' : State C I M), events = before ++ after →
    (machine r fastddsToXtypes).run .initial before = some s → AllEnded s →
    (machine r fastddsToXtypes).run s after = some s' →
    s'.threads.length = s.threads.length → CompletesIteration r fastddsToXtypes s after →
    s'.receptionThreads = []

/-! ## Steps -/

inductive Move (r : Receiver) (s s' : State C I M) (e : Event C I) : Prop where
  | rest (threads : s'.threads = s.threads) (reception : s'.receptionThreads = s.receptionThreads)
      (finished : s'.finishedThreads = s.finishedThreads) (cleaner : s'.cleaner = s.cleaner)
      (quiet : endings s e = [])
  | spawn (th : Thread C I M) (entry : th.pc = r.entry) (threads : s'.threads = s.threads ++ [th])
      (reception : s'.receptionThreads = s.receptionThreads ++ [s.threads.length])
      (finished : s'.finishedThreads = s.finishedThreads) (cleaner : s'.cleaner = s.cleaner)
      (quiet : endings s e = [])
  | advance (id : Nat) (th th' : Thread C I M) (before : s.threads[id]? = some th)
      (live : th.pc ≠ .ended) (threads : s'.threads = s.threads.set id th')
      (reception : s'.receptionThreads = s.receptionThreads) (cleaner : s'.cleaner = s.cleaner)
      (finished : s'.finishedThreads = s.finishedThreads)
      (notified : th'.pc.notified = th.pc.notified) (quiet : endings s e = [])
  | push (id : Nat) (th th' : Thread C I M) (before : s.threads[id]? = some th)
      (notify : th.pc = .notify) (leave : th'.pc = .leave)
      (threads : s'.threads = s.threads.set id th')
      (reception : s'.receptionThreads = s.receptionThreads) (cleaner : s'.cleaner = s.cleaner)
      (finished : s'.finishedThreads = s.finishedThreads ++ [id])
      (pushed : endings s e = [(id, .pushed)])
  | ignore (id : Nat) (th th' : Thread C I M) (before : s.threads[id]? = some th)
      (lookup : th.pc = .lookup) (ended : th'.pc = .ended)
      (threads : s'.threads = s.threads.set id th') (ignored : endings s e = [(id, .ignored)])
  | clean (event : e = .cleaner) (threads : s'.threads = s.threads)
      (step : stepCleaner s = some s')

theorem unlockData_receptionThreads (s : State C I M) (a : Activity) :
    (s.unlockData a).receptionThreads = s.receptionThreads := by
  unfold State.unlockData
  split <;> rfl

theorem move_of_unlock {t : State C I M} {e : Event C I} (a : Activity)
    (hthreads : t.threads = s.threads) (hreception : t.receptionThreads = s.receptionThreads)
    (hfinished : t.finishedThreads = s.finishedThreads) (hcleaner : t.cleaner = s.cleaner)
    (hquiet : endings s e = []) (pc : ListenerPc) :
    Move r s { t.unlockData a with listener := pc } e := by
  obtain ⟨ht, -, -, -, hf, hc⟩ := unlockData_fields (s := t) a
  exact .rest (ht.trans hthreads) ((unlockData_receptionThreads t a).trans hreception)
    (hf.trans hfinished) (hc.trans hcleaner) hquiet

theorem stepListener_move {result : Option (Taken C I)} (h : stepListener r s result = some s') :
    Move r s s' (.listener result) := by
  unfold stepListener at h
  split at h
  · split at h <;> cases h
    exact .rest rfl rfl rfl rfl rfl
  · split at h <;> cases h
    exact .rest rfl rfl rfl rfl rfl
  · split at h <;> cases h
    · exact move_of_unlock .listener rfl rfl rfl rfl rfl .leave
    · cases result with
      -- no sample, no thread: the listener releases the mutex itself
      | none => exact move_of_unlock .listener rfl rfl rfl rfl rfl .leave
      | some t =>
        simp only [takeSample]
        split
        · exact .spawn ⟨r.entry, t, t.info, []⟩ rfl rfl rfl rfl rfl rfl
        · exact move_of_unlock (s := s) (t := { s with dynamicData := some t.data }) .listener
            rfl rfl rfl rfl rfl .leave
  · cases h
    exact .rest rfl rfl rfl rfl rfl

theorem stepRead_move {id : Nat} (h : stepRead s id = some s') : Move r s s' (.read id) := by
  unfold stepRead at h
  split at h
  · rename_i th d hth hd
    split at h <;> rename_i hpc <;> cases h
    exact .advance id th { th with reads := d :: th.reads } hth (by rw [hpc]; nofun) rfl rfl rfl rfl
      rfl rfl
  · cases h

theorem endings_thread {id : Nat} (branch : Bool) {th : Thread C I M}
    (hth : s.threads[id]? = some th) :
    endings s (.thread id branch) =
      match th.pc with
      | .lookup => if branch then [] else [(id, .ignored)]
      | .notify => [(id, .pushed)]
      | _ => [] := by
  unfold endings
  dsimp only
  rw [hth]

theorem stepThread_move {id : Nat} {branch : Bool}
    (h : stepThread r fastddsToXtypes s id branch = some s') :
    Move r s s' (.thread id branch) := by
  unfold stepThread at h
  split at h
  · cases h
  rename_i th hth
  have hendings := endings_thread branch hth
  split at h
  -- the first critical section of `Server::receive`, which ends the thread of an unknown sample
  · rename_i hpc
    rw [hpc] at hendings
    split at h <;> rename_i hbranch <;> cases h
    · exact .advance id th _ hth (by rw [hpc]; nofun) rfl rfl rfl rfl (by rw [hpc]; rfl)
        (hendings.trans (if_pos hbranch))
    · have hthreads := (unlockData_fields
        (s := s.setThread id { th with pc := .ended }) (.thread id)).1
      exact .ignore id th { th with pc := .ended } hth hpc rfl hthreads
        (hendings.trans (if_neg hbranch))
  · rename_i hpc
    rw [hpc] at hendings
    split at h <;> cases h
    exact .advance id th _ hth (by rw [hpc]; nofun) rfl rfl rfl rfl (by rw [hpc]; rfl) hendings
  · rename_i message hpc
    rw [hpc] at hendings
    cases h
    obtain ⟨ht, -, -, -, hf, hc⟩ :=
      unlockData_fields (s := s.setThread id { th with pc := .dispatch message }) (.thread id)
    exact .advance id th { th with pc := .dispatch message } hth (by rw [hpc]; nofun) ht
      (unlockData_receptionThreads _ _) hc hf (by rw [hpc]; rfl) hendings
  · rename_i hpc
    rw [hpc] at hendings
    cases h
    exact .advance id th _ hth (by rw [hpc]; nofun) rfl rfl rfl rfl (by rw [hpc]; rfl) hendings
  · rename_i message hpc
    rw [hpc] at hendings
    split at h <;> cases h <;>
      exact .advance id th _ hth (by rw [hpc]; nofun) rfl rfl rfl rfl (by rw [hpc]; rfl) hendings
  · rename_i hpc
    rw [hpc] at hendings
    split at h <;> cases h
    exact .advance id th _ hth (by rw [hpc]; nofun) rfl rfl rfl rfl (by rw [hpc]; rfl) hendings
  · rename_i hpc
    rw [hpc] at hendings
    cases h
    exact .push id th _ hth hpc rfl rfl rfl rfl rfl hendings
  · rename_i hpc
    rw [hpc] at hendings
    cases h
    exact .advance id th _ hth (by rw [hpc]; nofun) rfl rfl rfl rfl (by rw [hpc]; rfl) hendings
  · cases h

theorem stepDestructor_move (h : stepDestructor s = some s') : Move r s s' .destructor := by
  unfold stepDestructor at h
  split at h
  · split at h <;> cases h
    exact .rest rfl rfl rfl rfl rfl
  · cases h
    exact .rest rfl rfl rfl rfl rfl
  · split at h <;> cases h
    exact .rest rfl rfl rfl rfl rfl
  · split at h <;> cases h
    exact .rest rfl rfl rfl rfl rfl
  · cases h
    obtain ⟨ht, -, -, -, hf, hc⟩ :=
      unlockData_fields (s := { s with dynamicData := none }) .destructor
    exact .rest ht (unlockData_receptionThreads _ _) hf hc rfl
  · cases h

theorem step_move {e : Event C I} (h : step r fastddsToXtypes s e = some s') : Move r s s' e := by
  cases e with
  | listener result => exact stepListener_move h
  | read id => exact stepRead_move h
  | thread id branch => exact stepThread_move h
  | cleaner => exact .clean rfl (stepCleaner_sameData h).threads h
  | destructor => exact stepDestructor_move h

/-! ## Each thread has one ending -/

def State.isNotified (s : State C I M) (id : Nat) : Bool :=
  (s.threads[id]?).any fun th => th.pc.notified

theorem isNotified_of_threads (h : s'.threads = s.threads) (id : Nat) :
    s'.isNotified id = s.isNotified id := by
  rw [State.isNotified, h, State.isNotified]

theorem isNotified_set {id : Nat} {th th' : Thread C I M} (hth : s.threads[id]? = some th)
    (h : s'.threads = s.threads.set id th') (i : Nat) :
    s'.isNotified i = if i = id then th'.pc.notified else s.isNotified i := by
  rw [State.isNotified, h]
  by_cases hi : i = id
  · subst hi
    rw [List.getElem?_set_self (lt_length_of_getElem? hth), if_pos rfl]
    rfl
  · rw [List.getElem?_set_ne (Ne.symm hi), if_neg hi]
    rfl

theorem isNotified_concat {th : Thread C I M} (hnot : th.pc.notified = false)
    (h : s'.threads = s.threads ++ [th]) (i : Nat) : s'.isNotified i = s.isNotified i := by
  rw [State.isNotified, h, State.isNotified, List.getElem?_append]
  split
  · rfl
  · rename_i hlt
    rw [List.getElem?_eq_none (Nat.le_of_not_lt hlt), Option.any_none]
    cases hlast : [th][i - s.threads.length]? with
    | none => rfl
    | some u =>
      rw [List.mem_singleton.mp (List.mem_of_getElem? hlast)]
      exact hnot

def Recorded (record : List (Nat × Ending)) (s : State C I M) : Prop :=
  ∀ id, (record.map Prod.fst).count id = (s.isNotified id).toNat

theorem recorded_initial : Recorded [] (.initial : State C I M) := by
  intro id
  rfl

theorem Recorded.step {record : List (Nat × Ending)} {e : Event C I} (h : Recorded record s)
    (hmove : Move r s s' e) : Recorded (record ++ endings s e) s' := by
  intro i
  have hi := h i
  cases hmove with
  | rest threads reception finished cleaner quiet =>
    rw [quiet, List.append_nil, isNotified_of_threads threads, hi]
  | spawn th entry threads reception finished cleaner quiet =>
    have hnot : th.pc.notified = false := by
      rw [entry]
      cases r <;> rfl
    rw [quiet, List.append_nil, isNotified_concat hnot threads, hi]
  | advance id th th' before live threads reception cleaner finished notified quiet =>
    rw [quiet, List.append_nil, isNotified_set before threads, hi]
    -- the thread that steps has kept its side of the push
    by_cases hid : i = id
    · rw [if_pos hid, notified, hid, State.isNotified, before]
      rfl
    · rw [if_neg hid]
  | push id th th' before notify leave threads reception cleaner finished pushed =>
    rw [pushed, List.map_append, List.count_append, isNotified_set before threads, hi]
    by_cases hid : i = id
    · rw [if_pos hid, leave, hid, State.isNotified, before, Option.any_some, notify]
      simp [ThreadPc.notified]
    · rw [if_neg hid]
      simp [Ne.symm hid]
  | ignore id th th' before lookup ended threads ignored =>
    rw [ignored, List.map_append, List.count_append, isNotified_set before threads, hi]
    by_cases hid : i = id
    · rw [if_pos hid, ended, hid, State.isNotified, before, Option.any_some, lookup]
      simp [ThreadPc.notified]
    · rw [if_neg hid]
      simp [Ne.symm hid]
  | clean event threads step =>
    rw [event, isNotified_of_threads threads, ← hi]
    show (List.map Prod.fst (record ++ [])).count i = _
    rw [List.append_nil]

theorem recorded_of_run {events : List (Event C I)}
    (hrun : (machine r fastddsToXtypes).run .initial events = some s) :
    Recorded ((machine r fastddsToXtypes).log endings .initial events) s := by
  have hrecorded := Machine.log_invariant (I := Recorded) (f := endings) recorded_initial
    (fun record t a t' h hstep => h.step (step_move hstep)) events hrun
  rw [List.nil_append] at hrecorded
  exact hrecorded

theorem count_fst_eq (record : List (Nat × Ending)) (id : Nat) :
    (record.map Prod.fst).count id =
      record.count (id, .pushed) + record.count (id, .ignored) := by
  induction record with
  | nil => rfl
  | cons entry record ih =>
    obtain ⟨i, ending⟩ := entry
    rw [List.map_cons, List.count_cons, List.count_cons, List.count_cons, ih]
    by_cases hi : i = id
    · subst hi
      cases ending <;> simp <;> omega
    · cases ending <;> simp [hi]

/-! ## What the cleaner has ahead -/

/-- The ids that the cleaner has not passed yet: the rest of its loop, or all of
`finished_threads_`. -/
def CleanerPc.awaited (finished : List Nat) : CleanerPc → List Nat
  | .scan rest _ | .join _ rest _ => rest
  | .prune _ => []
  | _ => finished

def Awaited (s : State C I M) : Prop :=
  ∀ id ∈ s.receptionThreads, s.isNotified id = true → id ∈ s.cleaner.awaited s.finishedThreads

def NoneIgnored (s : State C I M) (e : Event C I) : Prop :=
  ∀ ending ∈ endings s e, ending.2 = .pushed

/-- While a thread pushes its id, the cleaner is not in its loops. -/
theorem awaited_of_notify (hinv : Reaping.Inv s.containers) {id : Nat} {th : Thread C I M}
    (hth : s.threads[id]? = some th) (hpc : th.pc = .notify) (finished : List Nat) :
    s.cleaner.awaited finished = finished := by
  have hcontainers : s.containers.threads[id]? = some ⟨id, .notify⟩ := by
    rw [containers_getElem?, hth, Option.map_some, hpc]
    rfl
  -- the thread holds `cleaner_mtx_`, and in its loops the cleaner would
  have hthread := hinv.locked.thread id _ hcontainers rfl
  cases hcleaner : s.cleaner with
  | scan | join | prune =>
    have hholds : s.containers.cleaner.holds = true := by
      show s.cleaner.containers.holds = true
      rw [hcleaner]
      rfl
    rw [hinv.locked.cleaner hholds] at hthread
    cases hthread
  | start | test | waitTest | wait | sleep | drain | drainJoin | done => rfl

theorem receptionThreads_nodup (hinv : Reaping.Inv s.containers) : s.receptionThreads.Nodup := by
  have hkeys := hinv.tables.keys
  have hsame : s.containers.view.receptionThreads.map Prod.fst = s.receptionThreads :=
    keys_containers s
  rw [hsame] at hkeys
  exact hkeys

theorem stepCleaner_awaited (hinv : Reaping.Inv s.containers) (h : Awaited s)
    (hstep : stepCleaner s = some s') : Awaited s' := by
  have hthreads := (stepCleaner_sameData hstep).threads
  intro i hi hnotified
  rw [isNotified_of_threads hthreads] at hnotified
  have hahead := h i
  unfold stepCleaner at hstep
  cases hcleaner : s.cleaner with
  | start | sleep | test | waitTest | wait =>
    rw [hcleaner] at hstep hahead
    simp only at hstep
    -- outside the loops all of `finished_threads_` is ahead, before and after the step
    split at hstep <;> cases hstep <;> exact hahead hi hnotified
  | scan rest stopped =>
    rw [hcleaner] at hstep hahead
    cases rest with
    | nil =>
      cases hstep
      exact hahead hi hnotified
    | cons id rest =>
      simp only at hstep
      split at hstep <;> rename_i hid <;> cases hstep
      · -- the entry for `id` is gone, so another one is awaited in the rest of the loop
        have hne : i ≠ id := fun heq =>
          (receptionThreads_nodup hinv).not_mem_erase (heq ▸ hi)
        have hmem := hahead (List.mem_of_mem_erase hi) hnotified
        exact (List.mem_cons.mp hmem).resolve_left hne
      -- `id` is not in the map, so it is not the one that is awaited
      · have hne : i ≠ id := fun heq => hid (heq ▸ hi)
        exact (List.mem_cons.mp (hahead hi hnotified)).resolve_left hne
  | join id rest stopped =>
    rw [hcleaner] at hstep hahead
    simp only at hstep
    split at hstep <;> cases hstep
    exact hahead hi hnotified
  | prune stopped =>
    rw [hcleaner] at hstep hahead
    cases stopped with
    | nil =>
      cases hstep
      cases hahead hi hnotified
    | cons id stopped =>
      cases hstep
      exact hahead hi hnotified
  | drain rest =>
    rw [hcleaner] at hstep hahead
    cases rest <;> cases hstep <;> exact hahead hi hnotified
  | drainJoin id rest =>
    rw [hcleaner] at hstep hahead
    simp only at hstep
    split at hstep <;> cases hstep
    exact hahead hi hnotified
  | done =>
    rw [hcleaner] at hstep
    cases hstep

theorem Awaited.step {e : Event C I} (hinv : Reaping.Inv s.containers) (h : Awaited s)
    (hnone : NoneIgnored s e) (hmove : Move r s s' e) : Awaited s' := by
  cases hmove with
  | rest threads reception finished cleaner quiet =>
    intro i hi hnotified
    rw [isNotified_of_threads threads] at hnotified
    rw [reception] at hi
    rw [cleaner, finished]
    exact h i hi hnotified
  | spawn th entry threads reception finished cleaner quiet =>
    have hnot : th.pc.notified = false := by
      rw [entry]
      cases r <;> rfl
    intro i hi hnotified
    rw [isNotified_concat hnot threads] at hnotified
    rw [reception] at hi
    rw [cleaner, finished]
    -- a new thread is in the map, but it has not come to its push
    rcases List.mem_append.mp hi with hi | hi
    · exact h i hi hnotified
    · rw [List.mem_singleton.mp hi, State.isNotified, List.getElem?_eq_none (le_refl _)]
        at hnotified
      cases hnotified
  | advance id th th' before live threads reception cleaner finished notified quiet =>
    intro i hi hnotified
    rw [reception] at hi
    rw [cleaner, finished]
    apply h i hi
    rw [isNotified_set before threads] at hnotified
    by_cases hid : i = id
    · rw [if_pos hid, notified] at hnotified
      rw [hid, State.isNotified, before]
      exact hnotified
    · rw [if_neg hid] at hnotified
      exact hnotified
  | push id th th' before notify leave threads reception cleaner finished pushed =>
    intro i hi hnotified
    rw [reception] at hi
    -- the cleaner is about to read the list that the id is pushed to
    rw [cleaner, finished, awaited_of_notify hinv before notify]
    by_cases hid : i = id
    · rw [hid]
      exact List.mem_append_right _ List.mem_cons_self
    · rw [isNotified_set before threads, if_neg hid] at hnotified
      have hmem := h i hi hnotified
      rw [awaited_of_notify hinv before notify] at hmem
      exact List.mem_append_left _ hmem
  | ignore id th th' before lookup ended threads ignored =>
    have hpushed := hnone (id, .ignored) (by rw [ignored]; exact List.mem_cons_self)
    cases hpushed
  | clean event threads step => exact stepCleaner_awaited hinv h step

theorem awaited_of_reachableVia
    (h : (machine r fastddsToXtypes (I := I)).ReachableVia NoneIgnored s) : Awaited s := by
  -- with the invariant of the containers, which needs no condition on the run
  refine h.invariant_using (J := fun s => Reaping.Inv s.containers)
    (fun s hs => Reaping.inv_of_reachable (containers_reachable hs)) ?_ ?_
  · intro s hs
    rw [show s = .initial from hs]
    intro id hid
    cases hid
  · intro s e s' hinv ih hnone hstep
    exact ih.step hinv hnone (step_move hstep)

/-! ## When all threads have ended -/

theorem stepCleaner_receptionThreads (hstep : stepCleaner s = some s') :
    ∀ id ∈ s'.receptionThreads, id ∈ s.receptionThreads := by
  unfold stepCleaner at hstep
  split at hstep <;> (try split at hstep) <;> cases hstep <;>
    first | exact fun id hid => hid | exact fun id hid => List.mem_of_mem_erase hid

theorem Move.length_le {e : Event C I} (hmove : Move r s s' e) :
    s.threads.length ≤ s'.threads.length := by
  cases hmove with
  | rest threads => rw [threads]
  | spawn th entry threads =>
    rw [threads, List.length_append]
    omega
  | advance id th th' before live threads => rw [threads, List.length_set]
  | push id th th' before notify leave threads => rw [threads, List.length_set]
  | ignore id th th' before lookup ended threads => rw [threads, List.length_set]
  | clean event threads => rw [threads]

/-- No thread steps any more. -/
theorem Move.of_allEnded {e : Event C I} (hmove : Move r s s' e) (hall : AllEnded s)
    (hlength : s'.threads.length = s.threads.length) :
    AllEnded s' ∧ NoneIgnored s e ∧ ∀ id ∈ s'.receptionThreads, id ∈ s.receptionThreads := by
  have hsame (threads : s'.threads = s.threads) : AllEnded s' := by
    intro id th hth
    rw [threads] at hth
    exact hall id th hth
  have hquiet (quiet : endings s e = []) : NoneIgnored s e := by
    intro ending hending
    rw [quiet] at hending
    cases hending
  cases hmove with
  | rest threads reception finished cleaner quiet =>
    exact ⟨hsame threads, hquiet quiet, fun id hid => reception ▸ hid⟩
  | spawn th entry threads =>
    rw [threads, List.length_append] at hlength
    simp at hlength
  | advance id th th' before live => exact absurd (hall id th before) live
  | push id th th' before notify =>
    rw [hall id th before] at notify
    cases notify
  | ignore id th th' before lookup =>
    rw [hall id th before] at lookup
    cases lookup
  | clean event threads step =>
    exact ⟨hsame threads, hquiet (by rw [event]; rfl), stepCleaner_receptionThreads step⟩

theorem length_le_of_run (events : List (Event C I))
    (hrun : (machine r fastddsToXtypes).run s events = some s') :
    s.threads.length ≤ s'.threads.length := by
  refine Machine.invariant_of_run (I := fun t => s.threads.length ≤ t.threads.length) (le_refl _)
    ?_ events hrun
  intro t e t' ht hstep
  exact le_trans ht (step_move hstep).length_le

theorem run_of_allEnded (events : List (Event C I)) (hall : AllEnded s)
    (hvia : (machine r fastddsToXtypes).ReachableVia NoneIgnored s)
    (hrun : (machine r fastddsToXtypes).run s events = some s')
    (hlength : s'.threads.length = s.threads.length) :
    AllEnded s' ∧ (machine r fastddsToXtypes).ReachableVia NoneIgnored s' ∧
      ∀ id ∈ s'.receptionThreads, id ∈ s.receptionThreads := by
  -- on the run; a step that started a thread would make the run end with more threads
  induction events generalizing s with
  | nil =>
    obtain rfl : s = s' := by simpa using hrun
    exact ⟨hall, hvia, fun id hid => hid⟩
  | cons e events ih =>
    rw [Machine.run_cons] at hrun
    obtain ⟨t, hstep, hrest⟩ := Option.bind_eq_some_iff.mp hrun
    have hmove := step_move hstep
    have hle := hmove.length_le
    have hle' := length_le_of_run events hrest
    obtain ⟨hall', hnone, hsub⟩ := hmove.of_allEnded hall (by omega)
    obtain ⟨hall'', hvia', hsub'⟩ := ih hall' (hvia.step hnone hstep) hrest (by omega)
    exact ⟨hall'', hvia', fun id hid => hsub id (hsub' id hid)⟩

/-- The map is empty at the end of an iteration if all threads have ended. -/
theorem receptionThreads_of_prune
    (hvia : (machine r fastddsToXtypes (I := I)).ReachableVia NoneIgnored s) (hall : AllEnded s)
    (hcleaner : s.cleaner = .prune []) : s.receptionThreads = [] := by
  have hinv := Reaping.inv_of_reachable (containers_reachable hvia.reachable)
  apply List.eq_nil_iff_forall_not_mem.mpr
  intro id hid
  have hentry : (id, id) ∈ s.containers.view.receptionThreads :=
    List.mem_map.mpr ⟨id, hid, rfl⟩
  obtain ⟨u, hu, -⟩ := hinv.tables.entry id id hentry
  have hu' : s.containers.threads[id]? = some u := hu
  rw [containers_getElem?] at hu'
  obtain ⟨th, hth, -⟩ := Option.map_eq_some_iff.mp hu'
  -- an entry of the map is for a thread, which has ended and is awaited; but nothing is
  have hnotified : s.isNotified id = true := by
    rw [State.isNotified, hth, Option.any_some, hall id th hth]
    rfl
  have hmem := awaited_of_reachableVia hvia id hid hnotified
  rw [hcleaner] at hmem
  cases hmem

/-! ## Runs -/

def IgnoredEnded (record : List (Nat × Ending)) (s : State C I M) : Prop :=
  ∀ id, (id, .ignored) ∈ record → ∃ th : Thread C I M, s.threads[id]? = some th ∧ th.pc = .ended

theorem IgnoredEnded.step {record : List (Nat × Ending)} {e : Event C I}
    (h : IgnoredEnded record s) (hmove : Move r s s' e) :
    IgnoredEnded (record ++ endings s e) s' := by
  -- a thread that has ended is not the one that steps
  have hset {id i : Nat} {th th' u : Thread C I M} (hth : s.threads[id]? = some th)
      (hlive : th.pc ≠ .ended) (threads : s'.threads = s.threads.set id th')
      (hu : s.threads[i]? = some u) (hended : u.pc = .ended) :
      ∃ w : Thread C I M, s'.threads[i]? = some w ∧ w.pc = .ended := by
    have hne : id ≠ i := by
      intro heq
      rw [heq, hu] at hth
      cases hth
      exact hlive hended
    exact ⟨u, by rw [threads, List.getElem?_set_ne hne, hu], hended⟩
  have hquiet (quiet : endings s e = [])
      (hkeep : ∀ (i : Nat) (u : Thread C I M), s.threads[i]? = some u → u.pc = .ended →
        ∃ w : Thread C I M, s'.threads[i]? = some w ∧ w.pc = .ended) :
      IgnoredEnded (record ++ endings s e) s' := by
    intro i hi
    rw [quiet, List.append_nil] at hi
    obtain ⟨u, hu, hended⟩ := h i hi
    exact hkeep i u hu hended
  cases hmove with
  | rest threads reception finished cleaner quiet =>
    exact hquiet quiet fun i u hu hended => ⟨u, by rw [threads, hu], hended⟩
  | spawn th entry threads reception finished cleaner quiet =>
    apply hquiet quiet
    intro i u hu hended
    refine ⟨u, ?_, hended⟩
    rw [threads, List.getElem?_append_left (lt_length_of_getElem? hu), hu]
  | advance id th th' before live threads reception cleaner finished notified quiet =>
    exact hquiet quiet fun i u hu hended => hset before live threads hu hended
  | push id th th' before notify leave threads reception cleaner finished pushed =>
    intro i hi
    rw [pushed] at hi
    rcases List.mem_append.mp hi with hi | hi
    · obtain ⟨u, hu, hended⟩ := h i hi
      exact hset before (by rw [notify]; nofun) threads hu hended
    · cases List.mem_singleton.mp hi
  | ignore id th th' before lookup ended threads ignored =>
    intro i hi
    rw [ignored] at hi
    rcases List.mem_append.mp hi with hi | hi
    · obtain ⟨u, hu, hended⟩ := h i hi
      exact hset before (by rw [lookup]; nofun) threads hu hended
    · cases List.mem_singleton.mp hi
      exact ⟨th', by rw [threads, List.getElem?_set_self (lt_length_of_getElem? before)], ended⟩
  | clean event threads step =>
    exact hquiet (by rw [event]; rfl) fun i u hu hended => ⟨u, by rw [threads, hu], hended⟩

theorem ended_of_ignored {events : List (Event C I)} {id : Nat}
    (hrun : (machine r fastddsToXtypes).run .initial events = some s)
    (hid : (id, .ignored) ∈ (machine r fastddsToXtypes).log endings .initial events) :
    ∃ th : Thread C I M, s.threads[id]? = some th ∧ th.pc = .ended := by
  have hstep := Machine.log_invariant (I := IgnoredEnded) (l := []) (f := endings) (nofun)
    (fun record t a t' h hstep => h.step (step_move hstep)) events hrun
  rw [List.nil_append] at hstep
  exact hstep id hid

/-- A thread that has ended has pushed its id once, or its reply was ignored. -/
theorem count_endings {events : List (Event C I)} {id : Nat} {th : Thread C I M}
    (hrun : (machine r fastddsToXtypes).run .initial events = some s)
    (hth : s.threads[id]? = some th) (hended : th.pc = .ended) :
    ((machine r fastddsToXtypes).log endings .initial events).count (id, .pushed) +
      ((machine r fastddsToXtypes).log endings .initial events).count (id, .ignored) = 1 := by
  rw [← count_fst_eq, recorded_of_run hrun, State.isNotified, hth, Option.any_some, hended]
  rfl

theorem handsOver_of_pushed {events : List (Event C I)}
    (hpushed : ∀ ending ∈ (machine r fastddsToXtypes).log endings .initial events,
      ending.2 = .pushed) : HandsOver r fastddsToXtypes events where
  once s id th hrun hth hended := by
    have hcount := count_endings hrun hth hended
    have hnone : ((machine r fastddsToXtypes).log endings .initial events).count
        (id, .ignored) = 0 := by
      apply List.count_eq_zero.mpr
      intro hmem
      cases hpushed _ hmem
    omega
  emptied before after s s' hevents hbefore hall hafter hlength hiteration := by
    subst hevents
    rw [Machine.log_append hbefore, List.forall_mem_append] at hpushed
    have hvia : (machine r fastddsToXtypes).ReachableVia NoneIgnored s :=
      Machine.ReachableVia.of_log (Machine.ReachableVia.init rfl) before hbefore hpushed.1
    -- up to the end of the iteration, and from there on, the map can only shrink
    obtain ⟨first, last, t, rfl, ht, hcleaner⟩ := hiteration
    rw [Machine.run_append, ht, Option.bind_some] at hafter
    have hle := length_le_of_run first ht
    have hle' := length_le_of_run (.cleaner :: last) hafter
    obtain ⟨hall', hvia', -⟩ := run_of_allEnded first hall hvia ht (by omega)
    obtain ⟨-, -, hsub⟩ := run_of_allEnded (.cleaner :: last) hall' hvia' hafter (by omega)
    apply List.eq_nil_iff_forall_not_mem.mpr
    intro id hid
    have hmem := hsub id hid
    rw [receptionThreads_of_prune hvia' hall' hcleaner] at hmem
    cases hmem

theorem pushed_of_handsOver {events : List (Event C I)}
    (hrun : (machine r fastddsToXtypes).run .initial events = some s)
    (h : HandsOver r fastddsToXtypes events) :
    ∀ ending ∈ (machine r fastddsToXtypes).log endings .initial events,
      ending.2 = .pushed := by
  intro ending hmem
  obtain ⟨id, ending⟩ := ending
  cases ending with
  | pushed => rfl
  | ignored =>
    -- an ignored thread has ended too, but has no push
    obtain ⟨th, hth, hended⟩ := ended_of_ignored hrun hmem
    have honce := h.once s id th hrun hth hended
    have hcount := count_endings hrun hth hended
    have hpositive := List.count_pos_iff.mpr hmem
    omega

/-- `Subscriber::receive` and `Client::receive` have no early exit. -/
theorem pushed_of_ne_server {events : List (Event C I)} (hr : r ≠ .server)
    (hrun : (machine r fastddsToXtypes).run .initial events = some s) :
    ∀ ending ∈ (machine r fastddsToXtypes).log endings .initial events,
      ending.2 = .pushed := by
  have hinvariant := Machine.log_invariant
    (I := fun record t => LooksUp r t ∧ ∀ ending ∈ record, ending.2 = .pushed) (l := [])
    (f := endings) (S := machine r fastddsToXtypes) (s := .initial)
    ⟨looksUp_initial, nofun⟩ ?_ events hrun
  · rw [List.nil_append] at hinvariant
    exact hinvariant.2
  · intro record t e t' h hstep
    refine ⟨step_looksUp h.1 hstep, ?_⟩
    rw [List.forall_mem_append]
    refine ⟨h.2, ?_⟩
    intro ending hmem
    cases step_move hstep with
    | rest threads reception finished cleaner quiet =>
      rw [quiet] at hmem
      cases hmem
    | spawn th entry threads reception finished cleaner quiet =>
      rw [quiet] at hmem
      cases hmem
    | advance id th th' before live threads reception cleaner finished notified quiet =>
      rw [quiet] at hmem
      cases hmem
    | push id th th' before notify leave threads reception cleaner finished pushed =>
      rw [pushed] at hmem
      rw [List.mem_singleton.mp hmem]
    | ignore id th th' before lookup => exact absurd (h.1 id th before lookup) hr
    | clean event =>
      rw [event] at hmem
      cases hmem

/-- In a run every reception is handed over to the cleaner, and reaped, exactly if no reply was
ignored as one to a request that was not asked. -/
theorem handsOver_iff {events : List (Event C I)}
    (hrun : (machine r fastddsToXtypes).run .initial events = some s) :
    (HandsOver r fastddsToXtypes events ↔
      ∀ ending ∈ (machine r fastddsToXtypes).log endings .initial events,
        ending.2 = .pushed) ∧
      (r ≠ .server → HandsOver r fastddsToXtypes events) := by
  constructor
  · constructor
    · exact pushed_of_handsOver hrun
    · exact handsOver_of_pushed
  · intro hr
    exact handsOver_of_pushed (pushed_of_ne_server hr hrun)

def oneReply (known : Bool) : List (Event Nat Nat) :=
  [.listener none, .listener none, .listener (some ⟨7, 3, true⟩), .listener none] ++
    List.replicate (if known then 7 else 1) (.thread 0 known)

theorem handsOver_oneReply : HandsOver (M := Nat) .server some (oneReply true) :=
  (handsOver_iff (s := _) rfl).1.mpr (by decide)

/-- A reply to an unknown request: its thread is never reaped. -/
theorem not_handsOver :
    ¬ ∀ (r : Receiver) (events : List (Event Nat Nat)) (s : State Nat Nat Nat),
      (machine r some).run .initial events = some s → HandsOver (M := Nat) r some events := by
  intro h
  have hpushed := pushed_of_handsOver (s := _) rfl (h .server (oneReply false) _ rfl)
  revert hpushed
  decide

end FastDdsSh.Reception
