import FastDdsSh.Conversion.Transfer
import FastDdsSh.Reception.Delivery

/-!
# Messages over a topic

Publishers, each with the one data object that it converts into, write to a topic; a subscriber
takes the samples and passes them on with their infos, by which the Integration Service tells the
messages that it has written itself.  A sample may be lost or overtaken, but is taken once only.  A
conversion that throws is no step.
-/

namespace FastDdsSh

structure Guid (P E : Type) where
  guidPrefix : P
  entityId : E
  deriving DecidableEq, Repr

/-- The parts of a `SampleInfo` by which a sample is known; a sample is called by its position among
those of the topic. -/
structure SampleInfo (P E : Type) where
  publicationHandle : Guid P E
  sampleIdentity : Nat
  deriving DecidableEq, Repr

variable {P E : Type}

def isInternalMessage [DecidableEq P] (participant : P) (info : SampleInfo P E) : Bool :=
  let sampleWriterGuid := info.publicationHandle
  decide (sampleWriterGuid.guidPrefix = participant)

structure Publisher (P E : Type) where
  guid : Guid P E
  dynamicData : DdsData

namespace Publisher

variable [Xtypes] [Dds]

def publish (t : DynamicType) (p : Publisher P E) (message : Value) (written : Bool) :
    Except Fault (Bool × Publisher P E) :=
  match xtypesToFastdds t message p.dynamicData with
  | .error e => .error e
  | .ok (success, data) => .ok (success && written, { p with dynamicData := data })

/-- Whatever was published before, the message is converted, and written if the writer can. -/
theorem publish_eq_ok [LawfulDds] {fuel : Nat} {t : DynamicType} (ht : Transferable fuel t)
    {p q : Publisher P E} {message : Value} (hmessage : t.admits message = true)
    (hdata : Shaped t p.dynamicData) {written success : Bool}
    (h : p.publish t message written = .ok (success, q)) :
    success = written ∧ q.guid = p.guid ∧ Shaped t q.dynamicData ∧
      Carries fuel t message q.dynamicData := by
  unfold publish at h
  split at h
  · cases h
  · rename_i converted data hconvert
    cases h
    obtain ⟨rfl, hshaped, hcarries⟩ := carries_of_xtypesToFastdds ht hmessage hdata hconvert
    exact ⟨Bool.true_and _, rfl, hshaped, hcarries⟩

end Publisher

namespace Topic

open Transition Reception

structure Sample (P E : Type) where
  writer : Guid P E
  message : Value
  data : DdsData

/-- The publishers of the topic, what they have written so far, a subscriber, and the samples that
it has taken. -/
structure State (P E : Type) where
  publishers : List (Publisher P E)
  sent : List (Sample P E)
  subscriber : Reception.State DdsData (SampleInfo P E) Value
  taken : List Nat

/-- `take` is `on_data_available` with the sample that it takes; `dispose` the same when the sample
tells that an instance is not alive.  All else the subscriber does by itself. -/
inductive Event (P E : Type) where
  | publish (k : Nat) (message : Value) (written : Bool)
  | take (i : Nat)
  | dispose (data : DdsData) (info : SampleInfo P E)
  | subscriber (e : Reception.Event DdsData (SampleInfo P E))

def takesNone : Reception.Event DdsData (SampleInfo P E) → Bool
  | .listener (some _) => false
  | _ => true

def State.setSubscriber (s : State P E)
    (subscriber : Reception.State DdsData (SampleInfo P E) Value) : State P E :=
  { s with subscriber := subscriber }

variable [Xtypes] [Dds]

def stepPublish (t : DynamicType) (s : State P E) (k : Nat) (message : Value) (written : Bool) :
    Option (State P E) :=
  (s.publishers[k]?).bind fun p =>
    -- a message is data of the message type
    if t.admits message then
      match p.publish t message written with
      | .error _ => none
      | .ok (success, q) =>
          some { s with
            publishers := s.publishers.set k q
            sent := s.sent ++ if success then [⟨p.guid, message, q.dynamicData⟩] else [] }
    else none

def stepTake (fuel : Nat) (t : DynamicType) (s : State P E) (i : Nat) : Option (State P E) :=
  (s.sent[i]?).bind fun sample =>
    if s.subscriber.listener = .take ∧ s.subscriber.stopCleaner = false ∧ i ∉ s.taken then
      (Reception.step .subscriber (readSample fuel t) s.subscriber
        (.listener (some ⟨sample.data, ⟨sample.writer, i⟩, true⟩))).map fun subscriber =>
          { s with subscriber := subscriber, taken := s.taken ++ [i] }
    else none

def step (fuel : Nat) (t : DynamicType) (s : State P E) : Event P E → Option (State P E)
  | .publish k message written => stepPublish t s k message written
  | .take i => stepTake fuel t s i
  | .dispose data info =>
      (Reception.step .subscriber (readSample fuel t) s.subscriber
        (.listener (some ⟨data, info, false⟩))).map s.setSubscriber
  | .subscriber e =>
      if takesNone e then
        (Reception.step .subscriber (readSample fuel t) s.subscriber e).map s.setSubscriber
      else none

structure Initial (t : DynamicType) (s : State P E) : Prop where
  publishers : ∀ p ∈ s.publishers, ∃ T, t.getBuilder = some T ∧ p.dynamicData = T.createData
  sent : s.sent = []
  subscriber : s.subscriber = .initial
  taken : s.taken = []

def machine (fuel : Nat) (t : DynamicType) : Machine (State P E) (Event P E) where
  init := Initial t
  step := step fuel t

/-! ## What each step does -/

variable {fuel : Nat} {t : DynamicType} {s s' : State P E}

theorem stepPublish_eq_some {k : Nat} {message : Value} {written : Bool}
    (h : stepPublish t s k message written = some s') :
    ∃ p success q, s.publishers[k]? = some p ∧ t.admits message = true ∧
      p.publish t message written = .ok (success, q) ∧
      s' = { s with
        publishers := s.publishers.set k q
        sent := s.sent ++ if success then [⟨p.guid, message, q.dynamicData⟩] else [] } := by
  obtain ⟨p, hp, h⟩ := Option.bind_eq_some_iff.mp h
  split at h
  · rename_i hadmits
    split at h
    · cases h
    · rename_i success q hpublish
      cases h
      exact ⟨p, success, q, hp, hadmits, hpublish, rfl⟩
  · cases h

theorem stepTake_eq_some {i : Nat} (h : stepTake fuel t s i = some s') :
    ∃ sample subscriber, s.sent[i]? = some sample ∧ s.subscriber.listener = .take ∧
      s.subscriber.stopCleaner = false ∧ i ∉ s.taken ∧
      Reception.step .subscriber (readSample fuel t) s.subscriber
        (.listener (some ⟨sample.data, ⟨sample.writer, i⟩, true⟩)) = some subscriber ∧
      s' = { s with subscriber := subscriber, taken := s.taken ++ [i] } := by
  obtain ⟨sample, hsample, h⟩ := Option.bind_eq_some_iff.mp h
  split at h
  · rename_i hcan
    obtain ⟨subscriber, hstep, rfl⟩ := Option.map_eq_some_iff.mp h
    exact ⟨sample, subscriber, hsample, hcan.1, hcan.2.1, hcan.2.2, hstep, rfl⟩
  · cases h

/-- What a step adds to the topic was published in it. -/
theorem step_sent {e : Event P E} (h : step fuel t s e = some s') :
    ∃ added, s'.sent = s.sent ++ added ∧ ∀ x ∈ added, ∃ k message written p,
      e = .publish k message written ∧ s.publishers[k]? = some p ∧ x.writer = p.guid := by
  have hnone (hsent : s'.sent = s.sent) : ∃ added, s'.sent = s.sent ++ added ∧ ∀ x ∈ added,
      ∃ k message written p, e = .publish k message written ∧ s.publishers[k]? = some p ∧
        x.writer = p.guid :=
    ⟨[], by rw [hsent, List.append_nil], List.forall_mem_nil _⟩
  cases e with
  | publish k message written =>
    obtain ⟨p, success, q, hp, -, -, rfl⟩ := stepPublish_eq_some h
    refine ⟨_, rfl, fun x hx => ⟨k, message, written, p, rfl, hp, ?_⟩⟩
    split at hx
    · rw [List.mem_singleton.mp hx]
    · cases hx
  | take i =>
    obtain ⟨sample, subscriber, -, -, -, -, -, rfl⟩ := stepTake_eq_some h
    exact hnone rfl
  | dispose data info =>
    obtain ⟨subscriber, -, rfl⟩ := Option.map_eq_some_iff.mp h
    exact hnone rfl
  | subscriber e =>
    simp only [step] at h
    split at h
    · obtain ⟨subscriber, -, rfl⟩ := Option.map_eq_some_iff.mp h
      exact hnone rfl
    · cases h

/-- The callbacks of the subscriber stay in their places. -/
theorem step_delivered {e : Event P E} (h : step fuel t s e = some s') :
    s.subscriber.delivered <+: s'.subscriber.delivered := by
  cases e with
  | publish k message written =>
    obtain ⟨p, success, q, -, -, -, rfl⟩ := stepPublish_eq_some h
    exact List.prefix_rfl
  | take i =>
    obtain ⟨sample, subscriber, -, -, -, -, hsubscriber, rfl⟩ := stepTake_eq_some h
    exact Reception.step_delivered hsubscriber
  | dispose data info =>
    obtain ⟨subscriber, hsubscriber, rfl⟩ := Option.map_eq_some_iff.mp h
    exact Reception.step_delivered hsubscriber
  | subscriber e =>
    simp only [step] at h
    split at h
    · obtain ⟨subscriber, hsubscriber, rfl⟩ := Option.map_eq_some_iff.mp h
      exact Reception.step_delivered hsubscriber
    · cases h

theorem subscriber_reachable (h : (machine fuel t).Reachable s) :
    (Reception.machine .subscriber (readSample fuel t)).Reachable s.subscriber := by
  refine h.map State.subscriber (fun s hs => hs.subscriber) ?_
  intro s e s' hstep
  cases e with
  | publish k message written =>
    obtain ⟨p, success, q, -, -, -, rfl⟩ := stepPublish_eq_some hstep
    exact .inl rfl
  | take i =>
    obtain ⟨sample, subscriber, -, -, -, -, hsubscriber, rfl⟩ := stepTake_eq_some hstep
    exact .inr ⟨.listener _, hsubscriber⟩
  | dispose data info =>
    obtain ⟨subscriber, hsubscriber, rfl⟩ := Option.map_eq_some_iff.mp hstep
    exact .inr ⟨.listener _, hsubscriber⟩
  | subscriber e =>
    simp only [machine, step] at hstep
    split at hstep
    · obtain ⟨subscriber, hsubscriber, rfl⟩ := Option.map_eq_some_iff.mp hstep
      exact .inr ⟨e, hsubscriber⟩
    · cases hstep

/-! ## What is on the topic -/

/-- Every sample carries the message that its writer published, and every thread of the subscriber
has a sample of its own. -/
structure Traffic (fuel : Nat) (t : DynamicType) (s : State P E) : Prop where
  publishers : ∀ p ∈ s.publishers, Shaped t p.dynamicData
  sent : ∀ x ∈ s.sent, Carries fuel t x.message x.data ∧
    x.writer ∈ s.publishers.map Publisher.guid
  threads : ∀ u ∈ s.subscriber.threads.map Thread.sample, ∃ x,
    s.sent[u.info.sampleIdentity]? = some x ∧ u.data = x.data ∧
      u.info.publicationHandle = x.writer
  taken : (s.subscriber.threads.map Thread.sample).map (fun u => u.info.sampleIdentity) = s.taken
  once : s.taken.Nodup

theorem traffic_initial (h : Initial t s) : Traffic fuel t s := by
  refine ⟨fun p hp => ?_, ?_, ?_, ?_, ?_⟩
  · obtain ⟨T, hT, hdata⟩ := h.publishers p hp
    rw [hdata]
    exact shaped_createData hT
  · rw [h.sent]
    exact List.forall_mem_nil _
  · rw [h.subscriber]
    exact List.forall_mem_nil _
  · rw [h.subscriber, h.taken]
    rfl
  · rw [h.taken]
    exact List.nodup_nil

/-- The subscriber goes on without a new sample. -/
theorem Traffic.setSubscriber (h : Traffic fuel t s)
    {subscriber : Reception.State DdsData (SampleInfo P E) Value}
    (hsamples : subscriber.threads.map Thread.sample = s.subscriber.threads.map Thread.sample) :
    Traffic fuel t (s.setSubscriber subscriber) := by
  refine ⟨h.publishers, h.sent, ?_, ?_, h.once⟩
  · show ∀ u ∈ subscriber.threads.map Thread.sample, _
    rw [hsamples]
    exact h.threads
  · show (subscriber.threads.map Thread.sample).map _ = _
    rw [hsamples]
    exact h.taken

theorem Traffic.publish [LawfulDds] (ht : Transferable fuel t) {k : Nat} {message : Value}
    {written : Bool} (h : Traffic fuel t s)
    (hstep : stepPublish t s k message written = some s') : Traffic fuel t s' := by
  obtain ⟨p, success, q, hp, hadmits, hpublish, rfl⟩ := stepPublish_eq_some hstep
  obtain ⟨rfl, hguid, hshaped, hcarries⟩ :=
    Publisher.publish_eq_ok ht hadmits (h.publishers p (List.mem_of_getElem? hp)) hpublish
  have hguids : (s.publishers.set k q).map Publisher.guid = s.publishers.map Publisher.guid :=
    map_set_of_same hp hguid
  refine ⟨?_, ?_, ?_, h.taken, h.once⟩
  · intro p' hp'
    rcases List.mem_or_eq_of_mem_set hp' with hold | rfl
    · exact h.publishers p' hold
    · exact hshaped
  · show ∀ x ∈ s.sent ++ _, _ ∧ x.writer ∈ (s.publishers.set k q).map Publisher.guid
    rw [hguids]
    intro x hx
    rcases List.mem_append.mp hx with hx | hx
    · exact h.sent x hx
    · split at hx
      · obtain rfl := List.mem_singleton.mp hx
        exact ⟨hcarries, List.mem_map_of_mem (List.mem_of_getElem? hp)⟩
      · cases hx
  · intro u hu
    obtain ⟨x, hx, hrest⟩ := h.threads u hu
    exact ⟨x, (List.getElem?_append_left (lt_length_of_getElem? hx)).trans hx, hrest⟩

/-- A message that was written is the next sample. -/
theorem Traffic.sent_of_publish [LawfulDds] (ht : Transferable fuel t) {k : Nat} {message : Value}
    {written : Bool} (h : Traffic fuel t s)
    (hstep : stepPublish t s k message written = some s') :
    ∃ p data, s.publishers[k]? = some p ∧
      s'.sent = s.sent ++ if written then [⟨p.guid, message, data⟩] else [] := by
  obtain ⟨p, success, q, hp, hadmits, hpublish, rfl⟩ := stepPublish_eq_some hstep
  obtain ⟨rfl, -⟩ :=
    Publisher.publish_eq_ok ht hadmits (h.publishers p (List.mem_of_getElem? hp)) hpublish
  exact ⟨p, q.dynamicData, hp, rfl⟩

theorem Traffic.take {i : Nat} (h : Traffic fuel t s) (hstep : stepTake fuel t s i = some s') :
    Traffic fuel t s' := by
  obtain ⟨x, subscriber, hx, hlistener, hstop, hnew, hsubscriber, rfl⟩ := stepTake_eq_some hstep
  have hsamples := step_samples hsubscriber
  rw [takes, if_pos ⟨hlistener, hstop, rfl⟩] at hsamples
  refine ⟨h.publishers, h.sent, ?_, ?_, ?_⟩
  · show ∀ u ∈ subscriber.threads.map Thread.sample, _
    rw [hsamples]
    intro u hu
    rcases List.mem_append.mp hu with hu | hu
    · exact h.threads u hu
    · obtain rfl := List.mem_singleton.mp hu
      exact ⟨x, hx, rfl, rfl⟩
  · show (subscriber.threads.map Thread.sample).map _ = s.taken ++ [i]
    rw [hsamples, List.map_append, h.taken]
    rfl
  · exact List.nodup_append.mpr ⟨h.once, List.nodup_singleton i,
      fun a ha b hb heq => hnew (by rw [← List.mem_singleton.mp hb, ← heq]; exact ha)⟩

theorem traffic_of_reachable [LawfulDds] (ht : Transferable fuel t)
    (h : (machine fuel t).Reachable s) : Traffic fuel t s := by
  refine h.invariant (fun _ => traffic_initial) ?_
  intro s e s' h hstep
  cases e with
  | publish k message written => exact h.publish ht hstep
  | take i => exact h.take hstep
  | dispose data info =>
    obtain ⟨subscriber, hsubscriber, rfl⟩ := Option.map_eq_some_iff.mp hstep
    apply h.setSubscriber
    -- an instance that is not alive starts no thread
    have hnone : takes s.subscriber (.listener (some ⟨data, info, false⟩)) = [] :=
      if_neg fun hcon => by cases hcon.2.2
    rw [step_samples hsubscriber, hnone, List.append_nil]
  | subscriber e =>
    simp only [machine, step] at hstep
    split at hstep
    · rename_i hnone
      obtain ⟨subscriber, hsubscriber, rfl⟩ := Option.map_eq_some_iff.mp hstep
      apply h.setSubscriber
      have hsamples := step_samples hsubscriber
      cases e with
      | listener result =>
        cases result with
        | none => rw [hsamples]; exact List.append_nil _
        | some x => cases hnone
      | read id | thread id branch => rw [hsamples]; exact List.append_nil _
      | cleaner | destructor => rw [hsamples]; exact List.append_nil _
    · cases hstep

/-! ## Messages -/

/-- A message that was passed on is that of a sample which the subscriber has taken. -/
theorem exists_sample_of_delivered [LawfulDds] (ht : Transferable fuel t)
    (h : (machine fuel t).Reachable s) {d : Nat × Value × SampleInfo P E}
    (hd : d ∈ s.subscriber.delivered) :
    s.taken[d.1]? = some d.2.2.sampleIdentity ∧ ∃ x, s.sent[d.2.2.sampleIdentity]? = some x ∧
      d.2.1 = t.rebuilt x.message ∧ d.2.2.publicationHandle = x.writer := by
  obtain ⟨id, message, info⟩ := d
  have htraffic := traffic_of_reachable ht h
  obtain ⟨th, hth, -, hmessage⟩ := (mem_delivered_iff (subscriber_reachable h)).mp hd
  obtain ⟨m, hread, heq⟩ := Option.map_eq_some_iff.mp hmessage
  cases heq
  have hsample : (s.subscriber.threads.map Thread.sample)[id]? = some th.sample := by
    rw [List.getElem?_map, hth]
    rfl
  obtain ⟨x, hx, hdata, hwriter⟩ := htraffic.threads _ (List.mem_of_getElem? hsample)
  rw [hdata] at hread
  refine ⟨?_, x, hx, ((htraffic.sent x (List.mem_of_getElem? hx)).1).read hread, hwriter⟩
  rw [← htraffic.taken, List.getElem?_map, hsample]
  rfl

/-- A sample has one thread, and a thread one callback. -/
theorem nodup_delivered [LawfulDds] (ht : Transferable fuel t)
    (h : (machine fuel t).Reachable s) :
    (s.subscriber.delivered.map fun d => d.2.2.sampleIdentity).Nodup := by
  have htraffic := traffic_of_reachable ht h
  have hdelivery := deliveryInv_of_reachable (subscriber_reachable h)
  refine List.Nodup.map_on ?_ (.of_map Prod.fst hdelivery.once)
  intro d hd d' hd' heq
  have htaken := (exists_sample_of_delivered ht h hd).1
  have htaken' := (exists_sample_of_delivered ht h hd').1
  have hid : d.1 = d'.1 := by
    apply (List.getElem?_inj (lt_length_of_getElem? htaken) htraffic.once).mp
    rw [htaken, htaken', heq]
  exact List.inj_on_of_nodup_map hdelivery.once hd hd' hid

/-- With a type whose values are converted, and in every interleaving, a message is passed on at
most once for each sample; it is the one that was published in that sample, its unions rebuilt, by
the publisher that its info names, and it is internal exactly if that publisher is in the
participant.  When the destructor of the subscriber has come to its end, a sample that was taken has
been passed on if its message can be put into xtypes data. -/
theorem messages_delivered [LawfulDds] [DecidableEq P] (ht : Transferable fuel t)
    (h : (machine fuel t).Reachable s) (participant : P) :
    (s.subscriber.delivered.map fun d => d.2.2.sampleIdentity).Nodup ∧
    (∀ d ∈ s.subscriber.delivered, ∃ x p, s.sent[d.2.2.sampleIdentity]? = some x ∧
      d.2.1 = t.rebuilt x.message ∧ p ∈ s.publishers ∧ x.writer = p.guid ∧
      isInternalMessage participant d.2.2 = decide (p.guid.guidPrefix = participant)) ∧
    (s.subscriber.destructor = .done → ∀ i ∈ s.taken, ∀ x, s.sent[i]? = some x →
      t.writable .entry x.message = true →
      i ∈ s.subscriber.delivered.map fun d => d.2.2.sampleIdentity) := by
  have htraffic := traffic_of_reachable ht h
  have hreach := subscriber_reachable h
  refine ⟨nodup_delivered ht h, ?_, ?_⟩
  · intro d hd
    obtain ⟨-, x, hx, hmessage, hwriter⟩ := exists_sample_of_delivered ht h hd
    obtain ⟨p, hp, hguid⟩ :=
      List.mem_map.mp (htraffic.sent x (List.mem_of_getElem? hx)).2
    refine ⟨x, p, hx, hmessage, hp, hguid.symm, ?_⟩
    show decide (d.2.2.publicationHandle.guidPrefix = participant) = _
    rw [hwriter, hguid]
  · intro hdone i hi x hx hwritable
    rw [← htraffic.taken] at hi
    obtain ⟨u, hu, rfl⟩ := List.mem_map.mp hi
    obtain ⟨y, hy, hdata, -⟩ := htraffic.threads u hu
    rw [hx] at hy
    cases hy
    have hcarries := (htraffic.sent x (List.mem_of_getElem? hx)).1
    have hmessage : u.message (readSample fuel t) = some (t.rebuilt x.message, u.info) := by
      unfold Taken.message
      rw [hdata, hcarries.read_of_writable hwritable]
      rfl
    obtain ⟨th, hth, rfl⟩ := List.mem_map.mp hu
    obtain ⟨id, hid⟩ := List.mem_iff_getElem?.mp hth
    have hmem := (mem_delivered_iff hreach).mpr
      ⟨th, hid, by rw [allEnded_of_done hreach hdone id th hid]; rfl, hmessage⟩
    exact List.mem_map.mpr ⟨_, hmem, rfl⟩

/-! ## Examples -/

def pingType : DynamicType := .structType "Ping" [("n", .leafType "int32_t" .int32)]

def ping (n : Int) : Value := .struct [("n", .leaf (.integral n))]

def pingStart : State Nat Nat where
  publishers := [7, 8].map fun participant =>
    { guid := ⟨participant, 1⟩
      dynamicData := (pingType.getBuilder).elim (.leaf (.string8 0) (.text ""))
        (@DdsType.createData zeroDds) }
  sent := []
  subscriber := .initial
  taken := []

def receive (i id : Nat) : List (Event Nat Nat) :=
  .subscriber (.listener none) :: .subscriber (.listener none) :: .take i ::
    .subscriber (.listener none) :: List.replicate 6 (.subscriber (.thread id true))

def overtakenPing : List (Event Nat Nat) :=
  List.flatten [[.publish 0 (ping 4) true, .publish 1 (ping 5) true, .publish 0 (ping 6) false],
    receive 1 0, receive 0 1, List.replicate 2 (.subscriber .destructor),
    List.replicate 7 (.subscriber .cleaner), List.replicate 3 (.subscriber .destructor)]

omit [Xtypes] [Dds] in
theorem transferable_ping : Transferable 2 pingType :=
  ⟨by decide, by decide, by decide⟩

omit [Xtypes] [Dds] in
theorem messages_delivered_overtakenPing :
    ∃ s : State Nat Nat, s.subscriber.delivered =
        [(0, ping 5, ⟨⟨8, 1⟩, 1⟩), (1, ping 4, ⟨⟨7, 1⟩, 0⟩)] ∧
      (s.subscriber.delivered.map fun d => d.2.2.sampleIdentity).Nodup ∧
      (∀ d ∈ s.subscriber.delivered, ∃ x p, s.sent[d.2.2.sampleIdentity]? = some x ∧
        d.2.1 = @DynamicType.rebuilt firstLabelXtypes pingType x.message ∧ p ∈ s.publishers ∧
        x.writer = p.guid ∧ isInternalMessage 7 d.2.2 = decide (p.guid.guidPrefix = 7)) ∧
      ∀ i ∈ s.taken, ∀ x, s.sent[i]? = some x →
        @DynamicType.writable firstLabelXtypes pingType .entry x.message = true →
        i ∈ s.subscriber.delivered.map fun d => d.2.2.sampleIdentity := by
  have hstart : (@machine Nat Nat firstLabelXtypes zeroDds 2 pingType).Reachable pingStart := by
    refine Machine.ReachableVia.init (@Initial.mk Nat Nat zeroDds _ _ ?_ rfl rfl rfl)
    intro p hp
    obtain ⟨participant, -, rfl⟩ := List.mem_map.mp hp
    exact ⟨_, rfl, rfl⟩
  have hrun : ((@machine Nat Nat firstLabelXtypes zeroDds 2 pingType).run pingStart
      overtakenPing).map (fun s => (s.subscriber.delivered, s.subscriber.destructor)) =
        some ([(0, ping 5, ⟨⟨8, 1⟩, 1⟩), (1, ping 4, ⟨⟨7, 1⟩, 0⟩)], .done) := by
    decide +kernel
  obtain ⟨s, hs, hfinal⟩ := Option.map_eq_some_iff.mp hrun
  obtain ⟨hdelivered, hdone⟩ := Prod.ext_iff.mp hfinal
  have h := @messages_delivered Nat Nat firstLabelXtypes zeroDds 2 pingType s lawful_zeroDds _
    transferable_ping (hstart.of_run overtakenPing hs) 7
  exact ⟨s, hdelivered, h.1, h.2.1, h.2.2 hdone⟩

end Topic

end FastDdsSh
