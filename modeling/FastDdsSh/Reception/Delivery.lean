import FastDdsSh.Reception.Order
import FastDdsSh.Reception.Completion

/-!
# Every sample is delivered once

What becomes of the samples of a subscriber over a whole run: each one that was taken is converted
once, and its message goes to the callback once unless the conversion fails.
-/

namespace FastDdsSh.Reception

open Transition

variable {C I M : Type} {r : Receiver} {fastddsToXtypes : C → Option M} {s s' : State C I M}

/-- The samples that a step takes from the data reader, but for those that are not alive. -/
def takes (s : State C I M) : Event C I → List (Taken C I)
  | .listener (some t) =>
      if s.listener = .take ∧ s.stopCleaner = false ∧ t.alive = true then [t] else []
  | _ => []

def Taken.message (fastddsToXtypes : C → Option M) (t : Taken C I) : Option (M × I) :=
  (fastddsToXtypes t.data).map fun message => (message, t.info)

/-! ## One thread for each sample -/

theorem stepListener_samples {result : Option (Taken C I)}
    (h : stepListener r s result = some s') :
    s'.threads.map Thread.sample = s.threads.map Thread.sample ++ takes s (.listener result) := by
  -- nothing is taken at the other points, nor after the stop
  have hnone (hnot : s.listener = .take → s.stopCleaner = true) :
      takes s (.listener result) = [] := by
    cases result with
    | none => rfl
    | some t =>
      apply if_neg
      rintro ⟨hpc, hstop, -⟩
      rw [hnot hpc] at hstop
      cases hstop
  have hsame (hthreads : s'.threads = s.threads) (htakes : takes s (.listener result) = []) :
      s'.threads.map Thread.sample =
        s.threads.map Thread.sample ++ takes s (.listener result) := by
    rw [hthreads, htakes, List.append_nil]
  unfold stepListener at h
  split at h
  · rename_i hpc
    split at h <;> cases h
    exact hsame rfl (hnone (by rw [hpc]; intro hcon; cases hcon))
  · rename_i hpc
    split at h <;> cases h
    exact hsame rfl (hnone (by rw [hpc]; intro hcon; cases hcon))
  · rename_i hpc
    split at h
    · rename_i hstop
      cases h
      exact hsame (unlockData_fields .listener).1 (hnone fun _ => hstop)
    · rename_i hstop
      cases h
      cases result with
      | none => exact hsame (unlockData_fields .listener).1 rfl
      | some t =>
        simp only [takeSample]
        split
        · rename_i halive
          have htakes : takes s (.listener (some t)) = [t] :=
            if_pos ⟨hpc, Bool.eq_false_iff.mpr hstop, halive⟩
          rw [htakes, List.map_append]
          rfl
        · rename_i halive
          have htakes : takes s (.listener (some t)) = [] :=
            if_neg fun hcon => halive hcon.2.2
          rw [htakes, List.append_nil]
          exact congrArg _ (unlockData_fields .listener).1
  · rename_i hpc
    cases h
    exact hsame rfl (hnone (by rw [hpc]; intro hcon; cases hcon))

theorem stepThread_samples {id : Nat} {branch : Bool}
    (h : stepThread r fastddsToXtypes s id branch = some s') :
    s'.threads.map Thread.sample = s.threads.map Thread.sample := by
  unfold stepThread at h
  split at h
  · cases h
  rename_i th hth
  -- each point of `receive` leaves the sample of the thread as it is
  have hset {th' : Thread C I M} (hthreads : s'.threads = s.threads.set id th')
      (hsample : th'.sample = th.sample) :
      s'.threads.map Thread.sample = s.threads.map Thread.sample := by
    rw [hthreads]
    exact map_set_of_same hth hsample
  split at h
  · split at h <;> cases h
    · exact hset rfl rfl
    · exact hset (unlockData_fields _).1 rfl
  · split at h <;> cases h
    exact hset rfl rfl
  · cases h
    exact hset (unlockData_fields _).1 rfl
  · cases h
    exact hset rfl rfl
  · split at h <;> cases h <;> exact hset rfl rfl
  · split at h <;> cases h
    exact hset rfl rfl
  · cases h
    exact hset rfl rfl
  · cases h
    exact hset rfl rfl
  · cases h

theorem step_samples {e : Event C I} (h : step r fastddsToXtypes s e = some s') :
    s'.threads.map Thread.sample = s.threads.map Thread.sample ++ takes s e := by
  cases e with
  | listener result => exact stepListener_samples h
  | read id =>
    refine Eq.trans ?_ (List.append_nil _).symm
    rw [step, stepRead] at h
    split at h
    · rename_i th d hth hd
      split at h <;> cases h
      exact map_set_of_same hth rfl
    · cases h
  | thread id branch =>
    refine Eq.trans ?_ (List.append_nil _).symm
    exact stepThread_samples h
  | cleaner =>
    refine Eq.trans ?_ (List.append_nil _).symm
    rw [(stepCleaner_sameData h).threads]
  | destructor =>
    refine Eq.trans ?_ (List.append_nil _).symm
    rw [step, stepDestructor] at h
    split at h <;> (try split at h) <;> cases h <;>
      first | rfl | exact congrArg _ (unlockData_fields _).1

/-- The threads are those of the samples taken in the run, in their order. -/
theorem samples_of_run {events : List (Event C I)}
    (hrun : (machine r fastddsToXtypes).run .initial events = some s) :
    s.threads.map Thread.sample = (machine r fastddsToXtypes).log takes .initial events := by
  have h := Machine.log_invariant (S := machine r fastddsToXtypes) (f := takes) (l := [])
    (I := fun taken (s : State C I M) => s.threads.map Thread.sample = taken) rfl ?_ events hrun
  · exact h
  · intro taken s e s' h hstep
    rw [step_samples hstep, h]

/-! ## What a subscriber's thread leaves behind -/

/-- The messages of a subscriber so far: one for each thread that is past its callback, if its
sample was converted. -/
structure DeliveryInv (fastddsToXtypes : C → Option M) (s : State C I M) : Prop where
  once : (s.delivered.map Prod.fst).Nodup
  ahead : ∀ (id : Nat) (th : Thread C I M), s.threads[id]? = some th →
    th.pc.callbackAhead = true → id ∉ s.delivered.map Prod.fst
  made : ∀ (id : Nat) (th : Thread C I M), s.threads[id]? = some th →
    th.pc.callbackAhead = false → ∀ message, fastddsToXtypes th.sample.data = some message →
    (id, message, th.sample.info) ∈ s.delivered
  converted : ∀ (id : Nat) (th : Thread C I M), s.threads[id]? = some th →
    th.pc.conversionAhead = false → id ∈ s.converted

theorem deliveryInv_initial : DeliveryInv fastddsToXtypes (.initial : State C I M) where
  once := List.nodup_nil
  ahead := fun _ _ hth => by cases hth
  made := fun _ _ hth => by cases hth
  converted := fun _ _ hth => by cases hth

/-- A subscriber's thread gets past its conversion by converting, and past its callback by calling
back, or without a message. -/
theorem stepThread_passes {id : Nat} {branch : Bool} {th th' : Thread C I M}
    (h : stepThread .subscriber fastddsToXtypes s id branch = some s')
    (hth : s.threads[id]? = some th) (hth' : s'.threads[id]? = some th') (hpc : th.pc ≠ .lookup) :
    th'.sample = th.sample ∧
    (th'.pc.conversionAhead = false → th.pc.conversionAhead = false ∨ id ∈ s'.converted) ∧
    (th'.pc.callbackAhead = false → th.pc.callbackAhead = false ∨
      th.pc.outcome = some none ∨ ∃ message, th.pc.outcome = some (some message) ∧
        (id, message, th.info) ∈ s'.delivered) := by
  have hlt := lt_length_of_getElem? hth
  -- the thread is the one that the step puts there
  have hset {u : Thread C I M} (hthreads : s'.threads = s.threads.set id u) : th' = u := by
    rw [hthreads, List.getElem?_set_self hlt] at hth'
    exact (Option.some.inj hth').symm
  unfold stepThread at h
  rw [hth] at h
  obtain ⟨pc, sample, info, reads⟩ := th
  cases pc with
  | lookup => exact absurd rfl hpc
  | convert =>
    simp only at h
    split at h <;> cases h
    rw [hset rfl]
    refine ⟨rfl, fun _ => .inr (List.mem_append_right _ List.mem_cons_self), fun hcon => ?_⟩
    cases hcon
  | unlock message =>
    simp only at h
    cases h
    rw [hset (unlockData_fields _).1]
    refine ⟨rfl, fun _ => .inl rfl, fun hcon => ?_⟩
    cases message with
    | none => exact .inr (.inl rfl)
    | some m => cases hcon
  | dispatch message =>
    cases message with
    | none =>
      simp only at h
      cases h
      rw [hset rfl]
      exact ⟨rfl, fun _ => .inl rfl, fun _ => .inl rfl⟩
    | some m =>
      simp only [true_or, if_true] at h
      cases h
      rw [hset rfl]
      refine ⟨rfl, fun _ => .inl rfl, fun _ => .inr (.inr ⟨m, rfl, ?_⟩)⟩
      exact List.mem_append_right _ List.mem_cons_self
  | lockCleaner =>
    simp only at h
    split at h <;> cases h
    rw [hset rfl]
    exact ⟨rfl, fun _ => .inl rfl, fun _ => .inl rfl⟩
  | notify =>
    simp only at h
    cases h
    rw [hset rfl]
    exact ⟨rfl, fun _ => .inl rfl, fun _ => .inl rfl⟩
  | leave =>
    simp only at h
    cases h
    rw [hset rfl]
    exact ⟨rfl, fun _ => .inl rfl, fun _ => .inl rfl⟩
  | ended => cases h

/-- No step exchanges the sample of a thread. -/
theorem sample_of_step {e : Event C I} {id : Nat} {th th' : Thread C I M}
    (h : step r fastddsToXtypes s e = some s') (hth : s.threads[id]? = some th)
    (hth' : s'.threads[id]? = some th') : th'.sample = th.sample := by
  have hsamples := congrArg (·[id]?) (step_samples h)
  have hlt : id < (s.threads.map Thread.sample).length := by
    rw [List.length_map]
    exact lt_length_of_getElem? hth
  simp only [List.getElem?_append_left hlt, List.getElem?_map, hth, hth', Option.map_some]
    at hsamples
  exact Option.some.inj hsamples

theorem DeliveryInv.step {e : Event C I} (hb : BufferInv fastddsToXtypes s)
    (hl : LooksUp .subscriber s) (h : DeliveryInv fastddsToXtypes s)
    (hstep : step .subscriber fastddsToXtypes s e = some s') : DeliveryInv fastddsToXtypes s' := by
  have hsample {id : Nat} {th th' : Thread C I M} (hth : s.threads[id]? = some th)
      (hth' : s'.threads[id]? = some th') : th'.sample = th.sample :=
    sample_of_step hstep hth hth'
  cases step_effect hstep with
  | same threads converted delivered mutex =>
    refine ⟨?_, ?_, ?_, ?_⟩
    · rw [delivered]
      exact h.once
    · rw [threads, delivered]
      exact h.ahead
    · rw [threads, delivered]
      exact h.made
    · rw [threads, converted]
      exact h.converted
  | spawn t taking threads converted delivered mutex =>
    -- the new thread has everything ahead
    refine ⟨?_, ?_, ?_, ?_⟩
    · rw [delivered]
      exact h.once
    · rw [threads, delivered]
      intro id th hth hahead
      rcases getElem?_concat_cases hth with hold | ⟨rfl, -⟩
      · exact h.ahead id th hold hahead
      · intro hmem
        obtain ⟨d, hd, hid⟩ := List.mem_map.mp hmem
        obtain ⟨u, hu, -⟩ := hb.delivered d hd
        rw [hid, List.getElem?_eq_none (le_refl _)] at hu
        cases hu
    · rw [threads, delivered]
      intro id th hth hahead
      rcases getElem?_concat_cases hth with hold | ⟨-, rfl⟩
      · exact h.made id th hold hahead
      · cases hahead
    · rw [threads, converted]
      intro id th hth hahead
      rcases getElem?_concat_cases hth with hold | ⟨-, rfl⟩
      · exact h.converted id th hold hahead
      · cases hahead
  | thread id branch th th' event before threads mutex progress =>
    have hnew : s'.threads[id]? = some th' := by
      rw [threads, List.getElem?_set_self (lt_length_of_getElem? before)]
    have hfaithful := hb.faithful id th before
    have hpasses : (th'.pc.conversionAhead = false →
          th.pc.conversionAhead = false ∨ id ∈ s'.converted) ∧
        (th'.pc.callbackAhead = false → th.pc.callbackAhead = false ∨
          th.pc.outcome = some none ∨ ∃ message, th.pc.outcome = some (some message) ∧
            (id, message, th.info) ∈ s'.delivered) := by
      rcases event with rfl | ⟨rfl, hpc⟩
      · refine (stepThread_passes hstep before hnew ?_).2
        intro hcon
        cases hl id th before hcon
      · rw [hpc]
        exact ⟨.inl, .inl⟩
    have hdelivered : ∀ d ∈ s.delivered, d ∈ s'.delivered := by
      intro d hd
      cases progress with
      | converted _ _ _ _ hsame | quiet _ hsame => rw [hsame]; exact hd
      | delivered _ _ _ _ hmore => rw [hmore]; exact List.mem_append_left _ hd
    have hconverted : ∀ i ∈ s.converted, i ∈ s'.converted := by
      intro i hi
      cases progress with
      | converted _ _ _ hmore => rw [hmore]; exact List.mem_append_left _ hi
      | delivered _ _ _ hsame | quiet hsame => rw [hsame]; exact hi
    -- a thread with its callback still ahead had it ahead before, and made none
    have hquiet : s'.delivered = s.delivered →
        (th'.pc.callbackAhead = true → th.pc.callbackAhead = true) →
        (s'.delivered.map Prod.fst).Nodup ∧ ∀ (i : Nat) (u : Thread C I M),
          s'.threads[i]? = some u → u.pc.callbackAhead = true →
          i ∉ s'.delivered.map Prod.fst := by
      intro hsame hback
      rw [hsame, threads]
      refine ⟨h.once, ?_⟩
      intro i u hu hahead
      rcases getElem?_set_cases before hu with ⟨rfl, rfl⟩ | ⟨-, hold⟩
      · exact h.ahead i th before (hback hahead)
      · exact h.ahead i u hold hahead
    have honce : (s'.delivered.map Prod.fst).Nodup ∧ ∀ (i : Nat) (u : Thread C I M),
        s'.threads[i]? = some u → u.pc.callbackAhead = true →
        i ∉ s'.delivered.map Prod.fst := by
      cases progress with
      | converted message hpc hpc' converted delivered =>
        exact hquiet delivered (by rw [hpc]; exact fun _ => rfl)
      | quiet converted delivered conversion callback pending => exact hquiet delivered callback
      | delivered message hpc hpc' converted delivered =>
        have hfresh := h.ahead id th before (by rw [hpc]; rfl)
        rw [delivered, List.map_append, threads]
        constructor
        · refine List.nodup_append.mpr ⟨h.once, List.nodup_singleton _, ?_⟩
          intro i hi j hj heq
          rw [List.mem_singleton.mp hj] at heq
          rw [heq] at hi
          exact hfresh hi
        · intro i u hu hahead
          rcases getElem?_set_cases before hu with ⟨rfl, rfl⟩ | ⟨hne, hold⟩
          · rw [hpc'] at hahead
            cases hahead
          · intro hmem
            rcases List.mem_append.mp hmem with hmem | hmem
            · exact h.ahead i u hold hahead hmem
            · exact hne (List.mem_singleton.mp hmem)
    refine ⟨honce.1, honce.2, ?_, ?_⟩
    · rw [threads]
      intro i u hu hahead message hmessage
      rcases getElem?_set_cases before hu with ⟨rfl, rfl⟩ | ⟨-, hold⟩
      · rw [hsample before hnew] at hmessage ⊢
        rcases hpasses.2 hahead with hold | hnone | ⟨message', hsome, hmem⟩
        · exact hdelivered _ (h.made i th before hold message hmessage)
        · rw [← hfaithful.outcome _ hnone] at hmessage
          cases hmessage
        · rw [← hfaithful.outcome _ hsome] at hmessage
          cases hmessage
          rw [← hfaithful.info]
          exact hmem
      · exact hdelivered _ (h.made i u hold hahead message hmessage)
    · rw [threads]
      intro i u hu hahead
      rcases getElem?_set_cases before hu with ⟨rfl, rfl⟩ | ⟨-, hold⟩
      · rcases hpasses.1 hahead with hold | hmem
        · exact hconverted i (h.converted i th before hold)
        · exact hmem
      · exact hconverted i (h.converted i u hold hahead)

theorem looksUp_of_reachable (h : (machine r fastddsToXtypes (I := I)).Reachable s) :
    LooksUp r s := by
  refine h.invariant ?_ fun _ _ _ hl hstep => step_looksUp hl hstep
  rintro s rfl
  exact looksUp_initial

theorem deliveryInv_of_reachable
    (h : (machine .subscriber fastddsToXtypes (I := I)).Reachable s) :
    DeliveryInv fastddsToXtypes s := by
  refine Machine.ReachableVia.invariant_using h
    (J := fun s => BufferInv fastddsToXtypes s ∧ LooksUp .subscriber s) ?_ ?_ ?_
  · exact fun _ hr => ⟨bufferInv_of_reachable hr, looksUp_of_reachable hr⟩
  · rintro s rfl
    exact deliveryInv_initial
  · intro s e s' hboth hinv _ hstep
    exact hinv.step hboth.1 hboth.2 hstep

/-! ## Runs -/

/-- A message was passed on exactly if its thread is past its callback and converted to it. -/
theorem mem_delivered_iff (h : (machine .subscriber fastddsToXtypes (I := I)).Reachable s)
    {id : Nat} {m : M × I} : (id, m) ∈ s.delivered ↔ ∃ th : Thread C I M,
      s.threads[id]? = some th ∧ th.pc.callbackAhead = false ∧
        th.sample.message fastddsToXtypes = some m := by
  have hinv := deliveryInv_of_reachable h
  constructor
  · intro hmem
    obtain ⟨th, hth, hmessage, hinfo⟩ := (bufferInv_of_reachable h).delivered _ hmem
    refine ⟨th, hth, ?_, ?_⟩
    · by_contra hahead
      exact hinv.ahead id th hth (Bool.eq_true_of_not_eq_false hahead)
        (List.mem_map_of_mem (f := Prod.fst) hmem)
    · show (fastddsToXtypes th.sample.data).map _ = _
      rw [hmessage, ← hinfo]
      rfl
  · rintro ⟨th, hth, hahead, hmessage⟩
    obtain ⟨message, hconverted, rfl⟩ := Option.map_eq_some_iff.mp hmessage
    exact hinv.made id th hth hahead message hconverted

/-- When every thread has ended, the conversions were made one after another, and the callback got
each message once. -/
theorem delivered_of_allEnded (h : (machine .subscriber fastddsToXtypes (I := I)).Reachable s)
    (hall : AllEnded s) : s.converted = List.range s.threads.length ∧
      (s.delivered.map Prod.snd).Perm
        (s.threads.filterMap fun th => th.sample.message fastddsToXtypes) := by
  have hinv := deliveryInv_of_reachable h
  have hconversion := conversionInv_of_reachable h
  constructor
  · refine List.Perm.eq_of_pairwise ?_ hconversion.sorted List.pairwise_lt_range ?_
    · intro a b _ _ hab hba
      omega
    · refine (List.perm_ext_iff_of_nodup (hconversion.sorted.imp ne_of_lt) List.nodup_range).mpr ?_
      intro id
      rw [List.mem_range]
      refine ⟨hconversion.bound id, fun hlt => ?_⟩
      have hth := List.getElem?_eq_getElem hlt
      exact hinv.converted id _ hth (by rw [hall id _ hth]; rfl)
  · apply perm_filterMap_of_numbered hinv.once
    intro id m
    rw [mem_delivered_iff h]
    constructor
    · rintro ⟨th, hth, -, hmessage⟩
      exact ⟨th, hth, hmessage⟩
    · rintro ⟨th, hth, hmessage⟩
      exact ⟨th, hth, by rw [hall id th hth]; rfl, hmessage⟩

/-- In every run the callback of a subscriber gets messages of samples that were taken and whose
instance was alive, at most one for each.  When the destructor has come to its end, these samples
were converted one after another, and the callback got the message of every one of them that
converts, once, and nothing else. -/
theorem samples_delivered_once {events : List (Event C I)}
    (hrun : (machine .subscriber fastddsToXtypes).run .initial events = some s) :
    (s.delivered.map Prod.fst).Nodup ∧
    (∀ d ∈ s.delivered, ∃ t, d.1 ∈ s.converted ∧
      ((machine .subscriber fastddsToXtypes).log takes .initial events)[d.1]? = some t ∧
      t.message fastddsToXtypes = some d.2) ∧
    (s.destructor = .done →
      s.converted = List.range
        ((machine .subscriber fastddsToXtypes).log takes .initial events).length ∧
      (s.delivered.map Prod.snd).Perm
        (((machine .subscriber fastddsToXtypes).log takes .initial events).filterMap
          (Taken.message fastddsToXtypes))) := by
  have hreach : (machine .subscriber fastddsToXtypes).Reachable s :=
    Machine.Reachable.of_run (Machine.ReachableVia.init rfl) events hrun
  rw [← samples_of_run hrun]
  refine ⟨(deliveryInv_of_reachable hreach).once, ?_, ?_⟩
  · rintro ⟨id, m⟩ hd
    obtain ⟨th, hth, hahead, hmessage⟩ := (mem_delivered_iff hreach).mp hd
    refine ⟨th.sample, ?_, by rw [List.getElem?_map, hth]; rfl, hmessage⟩
    apply (deliveryInv_of_reachable hreach).converted id th hth
    -- the conversion comes before the callback
    obtain ⟨pc, sample, info, reads⟩ := th
    cases pc <;> first | rfl | cases hahead
  · intro hdone
    obtain ⟨hconverted, hdelivered⟩ :=
      delivered_of_allEnded hreach (allEnded_of_done hreach hdone)
    rw [List.length_map, List.filterMap_map]
    exact ⟨hconverted, hdelivered⟩

def takeAndConvert (id : Nat) (alive : Bool) : List (Event Nat Nat) :=
  .listener none :: .listener none :: .listener (some ⟨id + 7, id, alive⟩) :: .listener none ::
    if alive then [.thread id true, .thread id true] else []

/-- Three samples are converted, the second one to no message, and a fourth instance is not alive;
the last callback comes first, and the destructor waits for all of them. -/
def threeSamples : List (Event Nat Nat) :=
  List.flatten [takeAndConvert 0 true, takeAndConvert 1 true, takeAndConvert 2 true,
    takeAndConvert 3 false, ([2, 0, 1] : List Nat).map fun id => .thread id true,
    [2, 0, 1].flatMap fun id => List.replicate 3 (.thread id true),
    List.replicate 2 .destructor, List.replicate 9 .cleaner, List.replicate 3 .destructor]

def unlessEight (n : Nat) : Option Nat :=
  if n = 8 then none else some n

theorem samples_delivered_once_threeSamples :
    ∃ s, (machine .subscriber unlessEight).run (.initial : State Nat Nat Nat) threeSamples =
        some s ∧
      s.delivered = [(2, 9, 2), (0, 7, 0)] ∧ (s.delivered.map Prod.fst).Nodup ∧
      s.converted = List.range ((machine .subscriber unlessEight).log takes
        (.initial : State Nat Nat Nat) threeSamples).length := by
  have hrun : ((machine .subscriber unlessEight).run (.initial : State Nat Nat Nat)
      threeSamples).map (fun s => (s.delivered, s.destructor)) =
        some ([(2, 9, 2), (0, 7, 0)], .done) := by
    decide +kernel
  obtain ⟨s, hs, hfinal⟩ := Option.map_eq_some_iff.mp hrun
  obtain ⟨hdelivered, hdone⟩ := Prod.ext_iff.mp hfinal
  have h := samples_delivered_once hs
  exact ⟨s, hs, hdelivered, h.1, (h.2.2 hdone).1⟩

end FastDdsSh.Reception
