import FastDdsSh.Reception.Buffer

/-!
# The order of conversions and callbacks

Threads are numbered in the order in which their samples were taken.  A thread is started with the
data mutex locked, so the threads convert in that order.  The callback comes after the mutex is
released: a thread that has released it can be overtaken.
-/

namespace FastDdsSh.Reception

open Transition

variable {C I M : Type} {r : Receiver} {fastddsToXtypes : C → Option M} {s s' : State C I M}

def ThreadPc.conversionAhead : ThreadPc M → Bool
  | .lookup | .convert => true
  | _ => false

def ThreadPc.callbackAhead : ThreadPc M → Bool
  | .lookup | .convert | .unlock _ | .dispatch (some _) => true
  | _ => false

/-- A message is converted, the data mutex is released, and the callback has not been invoked. -/
def ThreadPc.callbackPending : ThreadPc M → Bool
  | .dispatch (some _) => true
  | _ => false

theorem ThreadPc.callbackAhead_cases {pc : ThreadPc M} (h : pc.callbackAhead = true) :
    pc.holdsData = true ∨ pc.callbackPending = true := by
  cases pc with
  | dispatch message =>
    cases message with
    | none => cases h
    | some m => exact .inr rfl
  | lookup | convert | unlock => exact .inl rfl
  | lockCleaner | notify | leave | ended => cases h

theorem ThreadPc.holdsData_of_conversionAhead {pc : ThreadPc M} (h : pc.conversionAhead = true) :
    pc.holdsData = true := by
  cases pc <;> first | rfl | cases h

/-! ## What a step does to threads, conversions and callbacks -/

def NoHandover (s s' : State C I M) : Prop :=
  ∀ id, s'.dataMtx = some (.thread id) → s.dataMtx = some (.thread id)

inductive Progress (id : Nat) (th th' : Thread C I M) (s s' : State C I M) : Prop where
  | converted (message : Option M) (before : th.pc = .convert) (after : th'.pc = .unlock message)
      (converted : s'.converted = s.converted ++ [id]) (delivered : s'.delivered = s.delivered)
  | delivered (message : M) (before : th.pc = .dispatch (some message))
      (after : th'.pc = .lockCleaner) (converted : s'.converted = s.converted)
      (delivered : s'.delivered = s.delivered ++ [(id, message, th.info)])
  | quiet (converted : s'.converted = s.converted) (delivered : s'.delivered = s.delivered)
      (conversion : th'.pc.conversionAhead = true → th.pc.conversionAhead = true)
      (callback : th'.pc.callbackAhead = true → th.pc.callbackAhead = true)
      (pending : th'.pc.callbackPending = true → ∃ message, th.pc = .unlock (some message))

inductive Effect (r : Receiver) (e : Event C I) (s s' : State C I M) : Prop where
  | same (threads : s'.threads = s.threads) (converted : s'.converted = s.converted)
      (delivered : s'.delivered = s.delivered) (mutex : NoHandover s s')
  | spawn (t : Taken C I) (taking : s.listener = .take)
      (threads : s'.threads = s.threads ++ [⟨r.entry, t, t.info, []⟩])
      (converted : s'.converted = s.converted) (delivered : s'.delivered = s.delivered)
      (mutex : ∀ id, s'.dataMtx = some (.thread id) → id = s.threads.length)
  | thread (id : Nat) (branch : Bool) (th th' : Thread C I M)
      (event : e = .thread id branch ∨ (e = .read id ∧ th'.pc = th.pc))
      (before : s.threads[id]? = some th) (threads : s'.threads = s.threads.set id th')
      (mutex : NoHandover s s') (progress : Progress id th th' s s')

theorem noHandover_of_none (h : s'.dataMtx = none) : NoHandover s s' := by
  intro id hid
  rw [h] at hid
  cases hid

theorem stepListener_effect {result : Option (Taken C I)} {e : Event C I}
    (h : stepListener r s result = some s') : Effect r e s s' := by
  have hunlock : ∀ d : Option C, ∀ pc : ListenerPc, Effect r e s
      { ({ s with dynamicData := d } : State C I M).unlockData .listener with listener := pc } := by
    intro d pc
    obtain ⟨ht, hc, hd, hm, -⟩ := unlockData_fields (s := { s with dynamicData := d }) .listener
    exact .same ht hc hd (noHandover_of_none hm)
  unfold stepListener at h
  split at h
  · split at h <;> cases h
    exact .same rfl rfl rfl fun _ hid => hid
  · split at h <;> cases h
    exact .same rfl rfl rfl fun _ hid => by cases hid
  · rename_i htake
    split at h <;> cases h
    · exact hunlock s.dynamicData .leave
    · cases result with
      | none => exact hunlock s.dynamicData .leave
      | some t =>
        simp only [takeSample]
        split
        · refine .spawn t htake rfl rfl rfl fun id hid => ?_
          obtain ⟨a, -, ha⟩ := Option.map_eq_some_iff.mp hid
          simpa using ha.symm
        · exact hunlock (some t.data) .leave
  · cases h
    exact .same rfl rfl rfl fun _ hid => hid

theorem stepRead_effect {id : Nat} (h : stepRead s id = some s') : Effect r (.read id) s s' := by
  unfold stepRead at h
  split at h
  · rename_i th d hth hd
    split at h <;> cases h
    exact .thread id true th { th with reads := d :: th.reads } (.inr ⟨rfl, rfl⟩) hth rfl
      (fun _ hid => hid) (.quiet rfl rfl (fun hc => hc) (fun hc => hc)
        (fun hc => by simp_all [ThreadPc.callbackPending]))
  · cases h

theorem stepThread_effect {id : Nat} {branch : Bool}
    (h : stepThread r fastddsToXtypes s id branch = some s') :
    Effect r (.thread id branch) s s' := by
  unfold stepThread at h
  split at h
  · cases h
  rename_i th hth
  split at h
  · rename_i hpc
    split at h <;> cases h
    · exact .thread id branch th _ (.inl rfl) hth rfl (fun _ hid => hid)
        (.quiet rfl rfl (by simp [hpc, ThreadPc.conversionAhead])
          (by simp [hpc, ThreadPc.callbackAhead]) (by simp [ThreadPc.callbackPending]))
    · obtain ⟨ht, hc, hd, hm, -⟩ :=
        unlockData_fields (s := s.setThread id { th with pc := .ended }) (.thread id)
      exact .thread id branch th { th with pc := .ended } (.inl rfl) hth ht
        (noHandover_of_none hm) (.quiet hc hd (by simp [ThreadPc.conversionAhead])
          (by simp [ThreadPc.callbackAhead]) (by simp [ThreadPc.callbackPending]))
  · rename_i hpc
    split at h <;> cases h
    exact .thread id branch th _ (.inl rfl) hth rfl (fun _ hid => hid)
      (.converted _ hpc rfl rfl rfl)
  · rename_i message hpc
    cases h
    obtain ⟨ht, hc, hd, hm, -⟩ :=
      unlockData_fields (s := s.setThread id { th with pc := .dispatch message }) (.thread id)
    refine .thread id branch th { th with pc := .dispatch message } (.inl rfl) hth ht
      (noHandover_of_none hm) (.quiet hc hd (by simp [ThreadPc.conversionAhead])
        (by simp [hpc, ThreadPc.callbackAhead]) fun hpending => ?_)
    cases message with
    | none => cases hpending
    | some m => exact ⟨m, hpc⟩
  · rename_i hpc
    cases h
    exact .thread id branch th _ (.inl rfl) hth rfl (fun _ hid => hid)
      (.quiet rfl rfl (by simp [ThreadPc.conversionAhead]) (by simp [ThreadPc.callbackAhead])
        (by simp [ThreadPc.callbackPending]))
  · rename_i message hpc
    split at h <;> cases h
    · exact .thread id branch th _ (.inl rfl) hth rfl (fun _ hid => hid)
        (.delivered message hpc rfl rfl rfl)
    · exact .thread id branch th _ (.inl rfl) hth rfl (fun _ hid => hid)
        (.quiet rfl rfl (by simp [ThreadPc.conversionAhead]) (by simp [ThreadPc.callbackAhead])
          (by simp [ThreadPc.callbackPending]))
  · split at h <;> cases h
    exact .thread id branch th _ (.inl rfl) hth rfl (fun _ hid => hid)
      (.quiet rfl rfl (by simp [ThreadPc.conversionAhead]) (by simp [ThreadPc.callbackAhead])
        (by simp [ThreadPc.callbackPending]))
  · cases h
    exact .thread id branch th _ (.inl rfl) hth rfl (fun _ hid => hid)
      (.quiet rfl rfl (by simp [ThreadPc.conversionAhead]) (by simp [ThreadPc.callbackAhead])
        (by simp [ThreadPc.callbackPending]))
  · cases h
    exact .thread id branch th _ (.inl rfl) hth rfl (fun _ hid => hid)
      (.quiet rfl rfl (by simp [ThreadPc.conversionAhead]) (by simp [ThreadPc.callbackAhead])
        (by simp [ThreadPc.callbackPending]))
  · cases h

theorem stepCleaner_effect {e : Event C I} (h : stepCleaner s = some s') : Effect r e s s' := by
  have hsame := stepCleaner_sameData h
  refine .same hsame.threads ?_ hsame.delivered fun id hid => by rw [← hsame.dataMtx]; exact hid
  unfold stepCleaner at h
  split at h <;> (try split at h) <;> cases h <;> rfl

theorem stepDestructor_effect {e : Event C I} (h : stepDestructor s = some s') :
    Effect r e s s' := by
  unfold stepDestructor at h
  split at h
  · split at h <;> cases h
    exact .same rfl rfl rfl fun _ hid => hid
  · cases h
    exact .same rfl rfl rfl fun _ hid => hid
  · split at h <;> cases h
    exact .same rfl rfl rfl fun _ hid => hid
  · split at h <;> cases h
    exact .same rfl rfl rfl fun _ hid => by cases hid
  · cases h
    obtain ⟨ht, hc, hd, hm, -⟩ :=
      unlockData_fields (s := { s with dynamicData := none }) .destructor
    exact .same ht hc hd (noHandover_of_none hm)
  · cases h

theorem step_effect {e : Event C I} (h : step r fastddsToXtypes s e = some s') :
    Effect r e s s' := by
  cases e with
  | listener result => exact stepListener_effect h
  | read id => exact stepRead_effect h
  | thread id branch => exact stepThread_effect h
  | cleaner => exact stepCleaner_effect h
  | destructor => exact stepDestructor_effect h

theorem step_delivered {e : Event C I} (h : step r fastddsToXtypes s e = some s') :
    s.delivered <+: s'.delivered := by
  cases step_effect h with
  | same _ _ hd _ => rw [hd]
  | spawn _ _ _ _ hd _ => rw [hd]
  | thread _ _ _ _ _ _ _ _ hprogress =>
    cases hprogress with
    | converted _ _ _ _ hd => rw [hd]
    | delivered _ _ _ _ hd =>
      rw [hd]
      exact List.prefix_append _ _
    | quiet _ hd => rw [hd]

/-! ## Conversions -/

structure ConversionInv (s : State C I M) : Prop where
  last : ∀ id, s.dataMtx = some (.thread id) → id + 1 = s.threads.length
  bound : ∀ c ∈ s.converted, c < s.threads.length
  sorted : s.converted.Pairwise (· < ·)
  ahead : ∀ (id : Nat) (th : Thread C I M), s.threads[id]? = some th →
    th.pc.conversionAhead = true → ∀ c ∈ s.converted, c < id

theorem conversionInv_initial : ConversionInv (.initial : State C I M) where
  last := by simp [State.initial]
  bound := by simp [State.initial]
  sorted := by simp [State.initial]
  ahead := by simp [State.initial]

/-- Threads that hold the data mutex are one thread. -/
theorem BufferInv.holdsData_unique {i j : Nat} {th u : Thread C I M}
    (h : BufferInv fastddsToXtypes s) (hi : s.threads[i]? = some th) (hth : th.pc.holdsData = true)
    (hj : s.threads[j]? = some u) (hu : u.pc.holdsData = true) : i = j := by
  have hmtxi := h.dataMtx_of_holds hi hth
  have hmtxj := h.dataMtx_of_holds hj hu
  rw [hmtxi] at hmtxj
  simpa using hmtxj

theorem ConversionInv.step {e : Event C I} (hb : BufferInv fastddsToXtypes s) (h : ConversionInv s)
    (heff : Effect r e s s') : ConversionInv s' := by
  cases heff with
  | same threads converted delivered mutex =>
    refine ⟨fun id hid => ?_, ?_, ?_, ?_⟩
    · rw [threads]
      exact h.last id (mutex id hid)
    · rw [threads, converted]
      exact h.bound
    · rw [converted]
      exact h.sorted
    · rw [threads, converted]
      exact h.ahead
  | spawn t taking threads converted delivered mutex =>
    refine ⟨fun id hid => ?_, ?_, ?_, ?_⟩
    -- the listener gives the mutex to the thread it has just started
    · rw [threads, mutex id hid]
      simp
    · rw [threads, converted]
      intro c hc
      have hlt := h.bound c hc
      simp
      omega
    · rw [converted]
      exact h.sorted
    · rw [threads, converted]
      intro id th hth hahead c hc
      rcases getElem?_concat_cases hth with hold | ⟨rfl, -⟩
      · exact h.ahead id th hold hahead c hc
      · exact h.bound c hc
  | thread id branch th th' event before threads mutex progress =>
    have hlast : ∀ i, s'.dataMtx = some (.thread i) → i + 1 = s'.threads.length := by
      intro i hi
      rw [threads, List.length_set]
      exact h.last i (mutex i hi)
    -- what holds of the other threads when the conversions are as before
    have hquiet : s'.converted = s.converted →
        (th'.pc.conversionAhead = true → th.pc.conversionAhead = true) → ConversionInv s' := by
      intro converted hahead
      refine ⟨hlast, ?_, ?_, ?_⟩
      · rw [threads, converted, List.length_set]
        exact h.bound
      · rw [converted]
        exact h.sorted
      · rw [threads, converted]
        intro i u hu hu'
        rcases getElem?_set_cases before hu with ⟨rfl, rfl⟩ | ⟨-, hold⟩
        · exact h.ahead i th before (hahead hu')
        · exact h.ahead i u hold hu'
    cases progress with
    | converted message hpc hpc' converted delivered =>
      -- the thread holds the data mutex, so it is the only one with a conversion ahead
      have hahead : th.pc.conversionAhead = true := by rw [hpc]; rfl
      have hbelow := h.ahead id th before hahead
      refine ⟨hlast, ?_, ?_, ?_⟩
      · rw [threads, converted, List.length_set]
        intro c hc
        rcases List.mem_append.mp hc with hc | hc
        · exact h.bound c hc
        · rw [List.mem_singleton.mp hc]
          exact lt_length_of_getElem? before
      · rw [converted]
        refine List.pairwise_append.mpr ⟨h.sorted, List.pairwise_singleton _ _, ?_⟩
        intro c hc j hj
        rw [List.mem_singleton.mp hj]
        exact hbelow c hc
      · rw [threads]
        intro i u hu hu'
        rcases getElem?_set_cases before hu with ⟨rfl, rfl⟩ | ⟨hne, hold⟩
        · rw [hpc'] at hu'
          cases hu'
        · have hsame := hb.holdsData_unique hold (ThreadPc.holdsData_of_conversionAhead hu')
            before (ThreadPc.holdsData_of_conversionAhead hahead)
          exact absurd hsame hne
    | delivered message hpc hpc' converted delivered =>
      exact hquiet converted (by rw [hpc']; intro hc; cases hc)
    | quiet converted delivered conversion callback pending => exact hquiet converted conversion

theorem conversionInv_of_reachable (h : (machine r fastddsToXtypes (I := I)).Reachable s) :
    ConversionInv s := by
  refine Machine.ReachableVia.invariant_using h (J := BufferInv fastddsToXtypes) ?_ ?_ ?_
  · exact fun _ hr => bufferInv_of_reachable hr
  · rintro s rfl
    exact conversionInv_initial
  · intro s e s' hb hinv _ hstep
    exact hinv.step hb (step_effect hstep)

/-! ## Callbacks -/

def releasesMessage (s : State C I M) : Event C I → Bool
  | .thread id _ =>
      match s.threads[id]? with
      | some th => match th.pc with | .unlock (some _) => true | _ => false
      | none => false
  | _ => false

/-- No thread releases the data mutex with a message while another message waits for its callback.
-/
def promptCallbacks (s : State C I M) (e : Event C I) : Prop :=
  releasesMessage s e = true → ∀ th ∈ s.threads, th.pc.callbackPending = false

instance (s : State C I M) (e : Event C I) : Decidable (promptCallbacks s e) := by
  unfold promptCallbacks
  infer_instance

structure CallbackInv (s : State C I M) : Prop where
  bound : ∀ d ∈ s.delivered, d.1 < s.threads.length
  sorted : (s.delivered.map (·.1)).Pairwise (· < ·)
  ahead : ∀ (id : Nat) (th : Thread C I M), s.threads[id]? = some th →
    th.pc.callbackAhead = true → ∀ d ∈ s.delivered, d.1 < id
  pending : ∀ (i j : Nat) (th u : Thread C I M), s.threads[i]? = some th → s.threads[j]? = some u →
    th.pc.callbackPending = true → u.pc.callbackPending = true → i = j

theorem callbackInv_initial : CallbackInv (.initial : State C I M) where
  bound := by simp [State.initial]
  sorted := by simp [State.initial]
  ahead := by simp [State.initial]
  pending := by simp [State.initial]

/-- The thread whose callback is due is behind every other thread with a callback ahead: those
either wait for their callback too, which the runs at hand exclude, or hold the data mutex and were
started last. -/
theorem CallbackInv.first {id i : Nat} {th u : Thread C I M} (hb : BufferInv fastddsToXtypes s)
    (hc : ConversionInv s) (h : CallbackInv s) (hth : s.threads[id]? = some th)
    (hpending : th.pc.callbackPending = true) (hu : s.threads[i]? = some u) (hne : i ≠ id)
    (hahead : u.pc.callbackAhead = true) : id < i := by
  rcases ThreadPc.callbackAhead_cases hahead with hholds | hwaits
  · have hlast := hc.last i (hb.dataMtx_of_holds hu hholds)
    have hlt := lt_length_of_getElem? hth
    omega
  · exact absurd (h.pending i id u th hu hth hwaits hpending) hne

theorem CallbackInv.step {e : Event C I} (hb : BufferInv fastddsToXtypes s)
    (hc : ConversionInv s) (h : CallbackInv s) (hprompt : promptCallbacks s e)
    (heff : Effect r e s s') : CallbackInv s' := by
  cases heff with
  | same threads converted delivered mutex =>
    refine ⟨?_, ?_, ?_, ?_⟩
    · rw [threads, delivered]
      exact h.bound
    · rw [delivered]
      exact h.sorted
    · rw [threads, delivered]
      exact h.ahead
    · rw [threads]
      exact h.pending
  | spawn t taking threads converted delivered mutex =>
    -- a thread that was just started has its conversion to do first
    have hentry : (r.entry : ThreadPc M).callbackPending = false := by cases r <;> rfl
    refine ⟨?_, ?_, ?_, ?_⟩
    · rw [threads, delivered]
      intro d hd
      have hlt := h.bound d hd
      simp
      omega
    · rw [delivered]
      exact h.sorted
    · rw [threads, delivered]
      intro id th hth hahead d hd
      rcases getElem?_concat_cases hth with hold | ⟨rfl, -⟩
      · exact h.ahead id th hold hahead d hd
      · exact h.bound d hd
    · rw [threads]
      intro i j th u hi hj hth hu
      rcases getElem?_concat_cases hi with hi | ⟨-, rfl⟩
      · rcases getElem?_concat_cases hj with hj | ⟨-, rfl⟩
        · exact h.pending i j th u hi hj hth hu
        · rw [hentry] at hu
          cases hu
      · rw [hentry] at hth
        cases hth
  | thread id branch th th' event before threads mutex progress =>
    -- what holds of the other threads when no callback was made
    have hquiet : s'.delivered = s.delivered →
        (th'.pc.callbackAhead = true → th.pc.callbackAhead = true) →
        (th'.pc.callbackPending = true → th.pc.callbackPending = true ∨
          ∀ u ∈ s.threads, u.pc.callbackPending = false) → CallbackInv s' := by
      intro delivered hahead hpending
      refine ⟨?_, ?_, ?_, ?_⟩
      · rw [threads, delivered, List.length_set]
        exact h.bound
      · rw [delivered]
        exact h.sorted
      · rw [threads, delivered]
        intro i u hu hu'
        rcases getElem?_set_cases before hu with ⟨rfl, rfl⟩ | ⟨-, hold⟩
        · exact h.ahead i th before (hahead hu')
        · exact h.ahead i u hold hu'
      · rw [threads]
        intro i j u v hi hj hu hv
        have hother : ∀ (k : Nat) (w : Thread C I M), s.threads[k]? = some w →
            w.pc.callbackPending = true → th'.pc.callbackPending = true → k = id := by
          intro k w hk hw hnew
          rcases hpending hnew with hold | hnone
          · exact h.pending k id w th hk before hw hold
          · rw [hnone w (List.mem_of_getElem? hk)] at hw
            cases hw
        rcases getElem?_set_cases before hi with ⟨hid, rfl⟩ | ⟨-, hiold⟩
        · rcases getElem?_set_cases before hj with ⟨hjd, rfl⟩ | ⟨-, hjold⟩
          · rw [hid, hjd]
          · rw [hid, hother j v hjold hv hu]
        · rcases getElem?_set_cases before hj with ⟨hjd, rfl⟩ | ⟨-, hjold⟩
          · rw [hjd, hother i u hiold hu hv]
          · exact h.pending i j u v hiold hjold hu hv
    cases progress with
    | converted message hpc hpc' converted delivered =>
      exact hquiet delivered (by rw [hpc]; exact fun _ => rfl)
        (by rw [hpc']; intro hcon; cases hcon)
    | quiet converted delivered conversion callback pending =>
      refine hquiet delivered callback fun hnew => ?_
      obtain ⟨message, hpc⟩ := pending hnew
      rcases event with rfl | ⟨-, hsame⟩
      -- the mutex is released with a message: no other message waits in these runs
      · right
        apply hprompt
        simp only [releasesMessage, before, hpc]
      · rw [hsame, hpc] at hnew
        cases hnew
    | delivered message hpc hpc' converted delivered =>
      have hdue : th.pc.callbackPending = true := by rw [hpc]; rfl
      have hbelow := h.ahead id th before (by rw [hpc]; rfl)
      refine ⟨?_, ?_, ?_, ?_⟩
      · rw [threads, delivered, List.length_set]
        intro d hd
        rcases List.mem_append.mp hd with hd | hd
        · exact h.bound d hd
        · rw [List.mem_singleton.mp hd]
          exact lt_length_of_getElem? before
      · rw [delivered, List.map_append]
        refine List.pairwise_append.mpr ⟨h.sorted, List.pairwise_singleton _ _, ?_⟩
        intro i hi j hj
        obtain ⟨d, hd, rfl⟩ := List.mem_map.mp hi
        rw [List.mem_singleton.mp hj]
        exact hbelow d hd
      · rw [threads, delivered]
        intro i u hu hu' d hd
        rcases getElem?_set_cases before hu with ⟨rfl, rfl⟩ | ⟨hne, hold⟩
        · rw [hpc'] at hu'
          cases hu'
        · rcases List.mem_append.mp hd with hd | hd
          · exact h.ahead i u hold hu' d hd
          · rw [List.mem_singleton.mp hd]
            exact h.first hb hc before hdue hold hne hu'
      · rw [threads]
        intro i j u v hi hj hu hv
        rcases getElem?_set_cases before hi with ⟨-, rfl⟩ | ⟨-, hiold⟩
        · rw [hpc'] at hu
          cases hu
        · rcases getElem?_set_cases before hj with ⟨-, rfl⟩ | ⟨-, hjold⟩
          · rw [hpc'] at hv
            cases hv
          · exact h.pending i j u v hiold hjold hu hv

theorem callbackInv_of_reachableVia
    (h : (machine r fastddsToXtypes (I := I)).ReachableVia promptCallbacks s) : CallbackInv s := by
  refine h.invariant_using (J := fun s => BufferInv fastddsToXtypes s ∧ ConversionInv s) ?_ ?_ ?_
  · exact fun _ hr => ⟨bufferInv_of_reachable hr, conversionInv_of_reachable hr⟩
  · rintro s rfl
    exact callbackInv_initial
  · intro s e s' hboth hinv hprompt hstep
    exact hinv.step hboth.1 hboth.2 hprompt (step_effect hstep)

/-! ## Order on a topic -/

/-- Samples are converted in the order in which they were taken, in every run; their messages are
passed to the callback in that order in every run in which no thread releases the data mutex with a
message while an earlier message still waits for its callback. -/
theorem callbacks_in_order (fastddsToXtypes : C → Option M) :
    (∀ s, (machine .subscriber fastddsToXtypes (I := I)).Reachable s →
      s.converted.Pairwise (· < ·)) ∧
    ∀ s, (machine .subscriber fastddsToXtypes (I := I)).ReachableVia promptCallbacks s →
      (s.delivered.map (·.1)).Pairwise (· < ·) :=
  ⟨fun _ h => (conversionInv_of_reachable h).sorted,
    fun _ h => (callbackInv_of_reachableVia h).sorted⟩

/-- Two samples, the second taken while the first is past its conversion; both callbacks are made
before the second conversion is over. -/
def promptRun : List (Event Nat Nat) :=
  [.listener none, .listener none, .listener (some ⟨7, 0, true⟩), .listener none,
    .thread 0 true, .thread 0 true, .listener none, .listener none,
    .listener (some ⟨8, 1, true⟩), .thread 0 true, .thread 1 true, .thread 1 true, .thread 1 true]

theorem callbacks_in_order_promptRun :
    ∃ s, (machine .subscriber some).runVia promptCallbacks (.initial : State Nat Nat Nat)
        promptRun = some s ∧ s.delivered = [(0, 7, 0), (1, 8, 1)] ∧
      s.converted.Pairwise (· < ·) ∧ (s.delivered.map (·.1)).Pairwise (· < ·) := by
  refine ⟨_, rfl, rfl, ?_⟩
  have hreach := Machine.ReachableVia.of_runVia (S := machine .subscriber some)
    (C := promptCallbacks) (Machine.ReachableVia.init rfl) promptRun rfl
  have h := callbacks_in_order (I := Nat) (some : Nat → Option Nat)
  exact ⟨h.1 _ hreach.reachable, h.2 _ hreach⟩

/-- The first thread stops between the release of the data mutex and its callback, and a second
sample goes all the way. -/
def overtakingRun : List (Event Nat Nat) :=
  [.listener none, .listener none, .listener (some ⟨7, 0, true⟩), .listener none,
    .thread 0 true, .thread 0 true,
    .listener none, .listener none, .listener (some ⟨8, 1, true⟩), .listener none,
    .thread 1 true, .thread 1 true, .thread 1 true, .thread 0 true]

theorem callbacks_overtakingRun :
    ∃ s, (machine .subscriber some).run (.initial : State Nat Nat Nat) overtakingRun = some s ∧
      (machine .subscriber some).Reachable s ∧ s.delivered = [(1, 8, 1), (0, 7, 0)] ∧
      ¬ (s.delivered.map (·.1)).Pairwise (· < ·) := by
  refine ⟨_, rfl, ?_, rfl, by decide⟩
  exact Machine.Reachable.of_run (Machine.ReachableVia.init rfl) overtakingRun rfl

end FastDdsSh.Reception
