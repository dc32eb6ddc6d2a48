import FastDdsSh.Topic
import FastDdsSh.Lib.Cells

/-!
# The handle between its topics

The core of the Integration Service is told of every message that a subscriber of the handle passes
on, and asks the handle whether the message is internal.  It may answer with messages of its own, on
topics of its choice, and it brings messages of other systems; all of them are written by publishers
of the handle's participant.  What the core publishes is a parameter.
-/

namespace FastDdsSh.Bridge

open Transition

/-- The handle among its topics.  `core a message internal` are the messages, each with its topic,
that the core publishes for a message of topic `a`. -/
structure Setting (ι P : Type) where
  participant : P
  fuel : ι → Nat
  types : ι → DynamicType
  core : ι → Value → Bool → List (ι × Value)

/-- Why the core publishes: the sample, and which of the messages for it is meant. -/
structure Cause (ι : Type) where
  topic : ι
  sampleIdentity : Nat
  item : Nat
  deriving DecidableEq

/-- A message that the core has given to a publisher of the handle.  One from another system has no
cause; any other has the number of the callback in which it was given among those on the topic of
the cause.  `copy` is the place on the topic at which the message was written. -/
structure Order (ι : Type) where
  cause : Option (Cause ι)
  callback : Nat
  topic : ι
  message : Value
  copy : Option Nat

structure State (ι P E : Type) where
  topics : ι → Topic.State P E
  orders : List (Order ι)

/-- `topic` is all that happens on a topic without the core, `callback` what the core does in the
callback of a subscriber. -/
inductive Event (ι P E : Type) where
  | topic (a : ι) (e : Topic.Event P E)
  | system (b : ι) (message : Value) (k : Nat) (written : Bool)
  | callback (a : ι) (n item k : Nat) (written : Bool)

variable {ι P E : Type} [DecidableEq ι]

def State.setTopic (s : State ι P E) (a : ι) (topic : Topic.State P E) : State ι P E :=
  { s with topics := Function.update s.topics a topic }

def Order.given (o : Order ι) : Option (ι × Nat × Nat) :=
  o.cause.map fun cause => (cause.topic, o.callback, cause.item)

def Order.sample (o : Order ι) : Option (ι × Nat) :=
  o.copy.map fun i => (o.topic, i)

variable [DecidableEq P]

def isOwn (participant : P) (s : Topic.State P E) (k : Nat) : Bool :=
  (s.publishers[k]?).any fun p => decide (p.guid.guidPrefix = participant)

def publishesOwn (participant : P) (s : Topic.State P E) : Topic.Event P E → Bool
  | .publish k _ _ => isOwn participant s k
  | _ => false

variable [Xtypes] [Dds]

def stepTopic (c : Setting ι P) (s : State ι P E) (a : ι) (e : Topic.Event P E) :
    Option (State ι P E) :=
  if publishesOwn c.participant (s.topics a) e then none
  else (Topic.step (c.fuel a) (c.types a) (s.topics a) e).map (s.setTopic a)

def stepOrder (c : Setting ι P) (s : State ι P E) (cause : Option (Cause ι)) (n : Nat) (b : ι)
    (message : Value) (k : Nat) (written : Bool) : Option (State ι P E) :=
  if isOwn c.participant (s.topics b) k then
    (Topic.step (c.fuel b) (c.types b) (s.topics b) (.publish k message written)).map fun topic =>
      { topics := (s.setTopic b topic).topics
        orders := s.orders ++
          [⟨cause, n, b, message, if written then some (s.topics b).sent.length else none⟩] }
  else none

/-- In a callback the core gives each of its messages to one publisher, once. -/
def stepCallback (c : Setting ι P) (s : State ι P E) (a : ι) (n item k : Nat) (written : Bool) :
    Option (State ι P E) :=
  ((s.topics a).subscriber.delivered[n]?).bind fun d =>
    ((c.core a d.2.1 (isInternalMessage c.participant d.2.2))[item]?).bind fun answer =>
      if (a, n, item) ∈ s.orders.filterMap Order.given then none
      else stepOrder c s (some ⟨a, d.2.2.sampleIdentity, item⟩) n answer.1 answer.2 k written

def step (c : Setting ι P) (s : State ι P E) : Event ι P E → Option (State ι P E)
  | .topic a e => stepTopic c s a e
  | .system b message k written => stepOrder c s none 0 b message k written
  | .callback a n item k written => stepCallback c s a n item k written

structure Initial (c : Setting ι P) (s : State ι P E) : Prop where
  topics : ∀ a, Topic.Initial (c.types a) (s.topics a)
  orders : s.orders = []

def machine (c : Setting ι P) : Machine (State ι P E) (Event ι P E) where
  init := Initial c
  step := step c

/-! ## One topic moves -/

section SetTopic

variable {s : State ι P E} {a b : ι} {topic : Topic.State P E} {added : List (Topic.Sample P E)}
  {i : Nat} {x : Topic.Sample P E}

omit [DecidableEq P] [Xtypes] [Dds]

theorem forall_setTopic {p : ι → Topic.State P E → Prop} (h : ∀ b, p b (s.topics b))
    (ha : p a topic) : ∀ b, p b ((s.setTopic a topic).topics b) :=
  (Function.forall_update_iff s.topics p).mpr ⟨ha, fun b _ => h b⟩

theorem sent_setTopic_of_sent (hsent : topic.sent = (s.topics a).sent ++ added)
    (h : (s.topics b).sent[i]? = some x) :
    ((s.setTopic a topic).topics b).sent[i]? = some x := by
  unfold State.setTopic
  by_cases hb : b = a
  · subst hb
    show (Function.update s.topics b topic b).sent[i]? = some x
    rw [Function.update_self, hsent]
    exact (List.getElem?_append_left (lt_length_of_getElem? h)).trans h
  · show (Function.update s.topics a topic b).sent[i]? = some x
    rw [Function.update_of_ne hb]
    exact h

theorem sent_setTopic_cases (hsent : topic.sent = (s.topics a).sent ++ added)
    (h : ((s.setTopic a topic).topics b).sent[i]? = some x) :
    (s.topics b).sent[i]? = some x ∨
      b = a ∧ ∃ j, i = (s.topics a).sent.length + j ∧ added[j]? = some x := by
  replace h : (Function.update s.topics a topic b).sent[i]? = some x := h
  by_cases hb : b = a
  · subst hb
    rw [Function.update_self, hsent, List.getElem?_append] at h
    split at h
    · exact .inl h
    · rename_i hlt
      exact .inr ⟨rfl, i - (s.topics b).sent.length, by omega, h⟩
  · rw [Function.update_of_ne hb] at h
    exact .inl h

end SetTopic

/-! ## What each step does -/

variable {c : Setting ι P} {s s' : State ι P E}

theorem stepTopic_eq_some {a : ι} {e : Topic.Event P E} (h : stepTopic c s a e = some s') :
    ∃ topic, publishesOwn c.participant (s.topics a) e = false ∧
      Topic.step (c.fuel a) (c.types a) (s.topics a) e = some topic ∧ s' = s.setTopic a topic := by
  unfold stepTopic at h
  split at h
  · cases h
  · rename_i hown
    obtain ⟨topic, hstep, rfl⟩ := Option.map_eq_some_iff.mp h
    exact ⟨topic, Bool.eq_false_iff.mpr hown, hstep, rfl⟩

theorem stepOrder_eq_some {cause : Option (Cause ι)} {n : Nat} {b : ι} {message : Value} {k : Nat}
    {written : Bool} (h : stepOrder c s cause n b message k written = some s') :
    ∃ topic, isOwn c.participant (s.topics b) k = true ∧
      Topic.step (c.fuel b) (c.types b) (s.topics b) (.publish k message written) = some topic ∧
      s' = {
        topics := (s.setTopic b topic).topics
        orders := s.orders ++
          [⟨cause, n, b, message, if written then some (s.topics b).sent.length else none⟩] } := by
  unfold stepOrder at h
  split at h
  · rename_i hown
    obtain ⟨topic, hstep, rfl⟩ := Option.map_eq_some_iff.mp h
    exact ⟨topic, hown, hstep, rfl⟩
  · cases h

theorem stepCallback_eq_some {a : ι} {n item k : Nat} {written : Bool}
    (h : stepCallback c s a n item k written = some s') :
    ∃ d b message, (s.topics a).subscriber.delivered[n]? = some d ∧
      (c.core a d.2.1 (isInternalMessage c.participant d.2.2))[item]? = some (b, message) ∧
      (a, n, item) ∉ s.orders.filterMap Order.given ∧
      stepOrder c s (some ⟨a, d.2.2.sampleIdentity, item⟩) n b message k written = some s' := by
  obtain ⟨d, hd, h⟩ := Option.bind_eq_some_iff.mp h
  obtain ⟨publication, hpublication, h⟩ := Option.bind_eq_some_iff.mp h
  split at h
  · cases h
  · rename_i hnew
    exact ⟨d, publication.1, publication.2, hd, hpublication, hnew, h⟩

omit [Xtypes] [Dds] in
/-- A publisher is the handle's exactly if its samples are of the participant. -/
theorem isOwn_eq {participant : P} {s : Topic.State P E} {k : Nat} {p : Publisher P E}
    (hp : s.publishers[k]? = some p) :
    isOwn participant s k = decide (p.guid.guidPrefix = participant) := by
  rw [isOwn, hp]
  rfl

/-! ## Every sample of the handle has been ordered -/

omit [Xtypes] [Dds] in
theorem nodup_filterMap_concat {α β : Type} {f : α → Option β} {l : List α} {a : α}
    (h : (l.filterMap f).Nodup) (hnew : ∀ b ∈ f a, b ∉ l.filterMap f) :
    ((l ++ [a]).filterMap f).Nodup := by
  rw [List.filterMap_append]
  cases hfa : f a with
  | none =>
    rw [List.filterMap_cons_none hfa]
    exact (List.append_nil _).symm ▸ h
  | some b =>
    rw [List.filterMap_cons_some hfa]
    refine List.nodup_append.mpr ⟨h, List.nodup_singleton b, fun x hx y hy heq => ?_⟩
    obtain rfl := List.mem_singleton.mp hy
    exact hnew y hfa (heq ▸ hx)

def Caused (c : Setting ι P) (s : State ι P E) (cause : Cause ι) (b : ι) (message : Value) : Prop :=
  ∃ x, (s.topics cause.topic).sent[cause.sampleIdentity]? = some x ∧
    x.writer.guidPrefix ≠ c.participant ∧
    (c.core cause.topic ((c.types cause.topic).rebuilt x.message) false)[cause.item]? =
      some (b, message)

def Given (s : State ι P E) (cause : Cause ι) (n : Nat) : Prop :=
  ∃ d, (s.topics cause.topic).subscriber.delivered[n]? = some d ∧
    d.2.2.sampleIdentity = cause.sampleIdentity

structure Accounted (c : Setting ι P) (s : State ι P E) : Prop where
  topics : ∀ a, (Topic.machine (c.fuel a) (c.types a)).Reachable (s.topics a)
  given : ∀ o ∈ s.orders, ∀ cause ∈ o.cause, Given s cause o.callback
  caused : ∀ o ∈ s.orders, ∀ cause ∈ o.cause, Caused c s cause o.topic o.message
  copied : ∀ o ∈ s.orders, ∀ i ∈ o.copy, ∃ x, (s.topics o.topic).sent[i]? = some x ∧
    x.message = o.message
  ordered : ∀ b i x, (s.topics b).sent[i]? = some x → x.writer.guidPrefix = c.participant →
    (b, i) ∈ s.orders.filterMap Order.sample
  causes : (s.orders.filterMap Order.cause).Nodup
  samples : (s.orders.filterMap Order.sample).Nodup

omit [DecidableEq ι] [DecidableEq P] in
theorem accounted_initial (h : Initial c s) : Accounted c s := by
  have hsent (b : ι) (i : Nat) : (s.topics b).sent[i]? = none := by
    rw [(h.topics b).sent]
    rfl
  refine ⟨fun a => Machine.ReachableVia.init (h.topics a), ?_, ?_, ?_, ?_, ?_, ?_⟩
  · rw [h.orders]
    exact List.forall_mem_nil _
  · rw [h.orders]
    exact List.forall_mem_nil _
  · rw [h.orders]
    exact List.forall_mem_nil _
  · intro b i x hx
    rw [hsent] at hx
    cases hx
  · rw [h.orders]
    exact List.nodup_nil
  · rw [h.orders]
    exact List.nodup_nil

omit [DecidableEq P] [Dds] in
/-- What was published stays on its topic. -/
theorem Caused.setTopic {cause : Cause ι} {b : ι} {message : Value}
    (h : Caused c s cause b message) {a : ι} {topic : Topic.State P E}
    {added : List (Topic.Sample P E)} (hsent : topic.sent = (s.topics a).sent ++ added) :
    Caused c (s.setTopic a topic) cause b message := by
  obtain ⟨x, hx, hrest⟩ := h
  exact ⟨x, sent_setTopic_of_sent hsent hx, hrest⟩

omit [DecidableEq P] [Xtypes] [Dds] in
theorem Given.setTopic {cause : Cause ι} {n : Nat} (h : Given s cause n) {a : ι}
    {topic : Topic.State P E}
    (hdelivered : (s.topics a).subscriber.delivered <+: topic.subscriber.delivered) :
    Given (s.setTopic a topic) cause n := by
  obtain ⟨d, hd, hsample⟩ := h
  refine ⟨d, ?_, hsample⟩
  show ((Function.update s.topics a topic cause.topic).subscriber.delivered)[n]? = some d
  by_cases ha : cause.topic = a
  · subst ha
    rw [Function.update_self]
    obtain ⟨added, hadded⟩ := hdelivered
    rw [← hadded]
    exact (List.getElem?_append_left (lt_length_of_getElem? hd)).trans hd
  · rw [Function.update_of_ne ha]
    exact hd

theorem Accounted.topic (h : Accounted c s) {a : ι} {e : Topic.Event P E}
    (hstep : stepTopic c s a e = some s') : Accounted c s' := by
  obtain ⟨topic, hown, htopic, rfl⟩ := stepTopic_eq_some hstep
  obtain ⟨added, hsent, hadded⟩ := Topic.step_sent htopic
  have hdelivered := Topic.step_delivered htopic
  refine ⟨forall_setTopic h.topics ((h.topics a).step trivial htopic), ?_, ?_, ?_, ?_, h.causes,
    h.samples⟩
  · exact fun o ho cause hcause => (h.given o ho cause hcause).setTopic hdelivered
  · exact fun o ho cause hcause => (h.caused o ho cause hcause).setTopic hsent
  · intro o ho i hi
    obtain ⟨x, hx, hmessage⟩ := h.copied o ho i hi
    exact ⟨x, sent_setTopic_of_sent hsent hx, hmessage⟩
  · intro b i x hx hwriter
    rcases sent_setTopic_cases hsent hx with hold | ⟨rfl, j, -, hj⟩
    · exact h.ordered b i x hold hwriter
    · -- what is published here is by another participant
      obtain ⟨k, message, written, p, rfl, hp, hguid⟩ := hadded x (List.mem_of_getElem? hj)
      rw [hguid] at hwriter
      have hcon : isOwn c.participant (s.topics b) k = false := hown
      rw [isOwn_eq hp, hwriter, decide_eq_false_iff_not] at hcon
      exact absurd rfl hcon

theorem Accounted.order [LawfulDds] (ht : ∀ a, Transferable (c.fuel a) (c.types a))
    (h : Accounted c s) {cause : Option (Cause ι)} {n : Nat} {b : ι} {message : Value} {k : Nat}
    {written : Bool} (hgiven : ∀ x ∈ cause, Given s x n)
    (hcause : ∀ x ∈ cause, Caused c s x b message)
    (hnew : ∀ x ∈ cause, (x.topic, n, x.item) ∉ s.orders.filterMap Order.given)
    (hstep : stepOrder c s cause n b message k written = some s') : Accounted c s' := by
  obtain ⟨topic, hown, htopic, rfl⟩ := stepOrder_eq_some hstep
  obtain ⟨p, data, hp, hsent⟩ :=
    (Topic.traffic_of_reachable (ht b) (h.topics b)).sent_of_publish (ht b) htopic
  have hdelivered : (s.topics b).subscriber.delivered <+: topic.subscriber.delivered :=
    Topic.step_delivered (e := .publish k message written) htopic
  refine ⟨forall_setTopic h.topics
    ((h.topics b).step (a := .publish k message written) trivial htopic), ?_, ?_, ?_, ?_, ?_, ?_⟩
  · intro o ho x hx
    rcases List.mem_append.mp ho with ho | ho
    · exact (h.given o ho x hx).setTopic hdelivered
    · obtain rfl := List.mem_singleton.mp ho
      exact (hgiven x hx).setTopic hdelivered
  · intro o ho x hx
    rcases List.mem_append.mp ho with ho | ho
    · exact (h.caused o ho x hx).setTopic hsent
    · obtain rfl := List.mem_singleton.mp ho
      exact (hcause x hx).setTopic hsent
  · intro o ho i hi
    rcases List.mem_append.mp ho with ho | ho
    · obtain ⟨x, hx, hmessage⟩ := h.copied o ho i hi
      exact ⟨x, sent_setTopic_of_sent hsent hx, hmessage⟩
    · obtain rfl := List.mem_singleton.mp ho
      cases written with
      | false => cases hi
      | true =>
        cases hi
        refine ⟨⟨p.guid, message, data⟩, ?_, rfl⟩
        show (Function.update s.topics b topic b).sent[_]? = _
        rw [Function.update_self, hsent]
        exact List.getElem?_concat_length
  · intro a i x hx hwriter
    rw [List.filterMap_append]
    apply List.mem_append.mpr
    rcases sent_setTopic_cases hsent hx with hold | ⟨rfl, j, rfl, hj⟩
    · exact .inl (h.ordered a i x hold hwriter)
    · right
      cases written with
      | false => cases hj
      | true =>
        cases j with
        | zero => exact List.mem_singleton_self _
        | succ j => cases hj
  · apply nodup_filterMap_concat h.causes
    intro x hx hcon
    obtain ⟨o, ho, hsame⟩ := List.mem_filterMap.mp hcon
    -- the two callbacks have one sample, so they are the same callback
    obtain ⟨d, hd, hsample⟩ := h.given o ho x hsame
    obtain ⟨d', hd', hsample'⟩ := hgiven x hx
    have hcallback : o.callback = n := by
      have hnodup := Topic.nodup_delivered (ht x.topic) (h.topics x.topic)
      have hlt : o.callback < ((s.topics x.topic).subscriber.delivered.map
          fun d => d.2.2.sampleIdentity).length := by
        rw [List.length_map]
        exact lt_length_of_getElem? hd
      apply (List.getElem?_inj hlt hnodup).mp
      rw [List.getElem?_map, List.getElem?_map, hd, hd', Option.map_some, Option.map_some, hsample,
        hsample']
    refine hnew x hx (List.mem_filterMap.mpr ⟨o, ho, ?_⟩)
    rw [Order.given, hsame, hcallback]
    rfl
  · apply nodup_filterMap_concat h.samples
    intro place hplace hcon
    obtain ⟨i, hi, rfl⟩ := Option.map_eq_some_iff.mp hplace
    obtain ⟨o, ho, hsample⟩ := List.mem_filterMap.mp hcon
    obtain ⟨n, hn, heq⟩ := Option.map_eq_some_iff.mp hsample
    obtain ⟨rfl, rfl⟩ := Prod.mk.inj heq
    obtain ⟨x, hx, -⟩ := h.copied o ho n hn
    have hlt := lt_length_of_getElem? hx
    cases written with
    | false => cases hi
    | true =>
      cases hi
      exact absurd hlt (Nat.lt_irrefl _)

theorem accounted_of_reachable [LawfulDds] (ht : ∀ a, Transferable (c.fuel a) (c.types a))
    (hcore : ∀ a message, c.core a message true = []) (h : (machine c).Reachable s) :
    Accounted c s := by
  refine h.invariant (fun _ => accounted_initial) ?_
  intro s e s' h hstep
  cases e with
  | topic a e => exact h.topic hstep
  | system b message k written =>
    exact h.order ht (fun _ hcon => by cases hcon) (fun _ hcon => by cases hcon)
      (fun _ hcon => by cases hcon) hstep
  | callback a n item k written =>
    obtain ⟨d, b, message, hd, hitem, hnew, horder⟩ := stepCallback_eq_some hstep
    obtain ⟨-, x, hx, hmessage, hwriter⟩ :=
      Topic.exists_sample_of_delivered (ht a) (h.topics a) (List.mem_of_getElem? hd)
    have hinternal : isInternalMessage c.participant d.2.2 =
        decide (x.writer.guidPrefix = c.participant) := by
      rw [← hwriter]
      rfl
    rw [hinternal, hmessage] at hitem
    refine h.order ht ?_ ?_ ?_ horder
    · intro cause hcause
      obtain rfl := Option.some.inj hcause
      exact ⟨d, hd, rfl⟩
    · intro cause hcause
      obtain rfl := Option.some.inj hcause
      by_cases hown : x.writer.guidPrefix = c.participant
      · -- the core leaves internal messages alone
        rw [decide_eq_true hown, hcore] at hitem
        cases hitem
      · rw [decide_eq_false hown] at hitem
        exact ⟨x, hx, hown, hitem⟩
    · intro cause hcause
      obtain rfl := Option.some.inj hcause
      exact hnew

omit [DecidableEq ι] [DecidableEq P] in
theorem Accounted.exists_order (h : Accounted c s) {b : ι} {i : Nat} {x : Topic.Sample P E}
    (hx : (s.topics b).sent[i]? = some x) (hwriter : x.writer.guidPrefix = c.participant) :
    ∃ o ∈ s.orders, o.sample = some (b, i) ∧ o.message = x.message ∧
      ∀ cause ∈ o.cause, Caused c s cause b x.message := by
  obtain ⟨o, ho, hsample⟩ := List.mem_filterMap.mp (h.ordered b i x hx hwriter)
  obtain ⟨n, hn, heq⟩ := Option.map_eq_some_iff.mp hsample
  obtain ⟨rfl, rfl⟩ := Prod.mk.inj heq
  obtain ⟨y, hy, hmessage⟩ := h.copied o ho n hn
  rw [hx] at hy
  cases hy
  refine ⟨o, ho, hsample, hmessage.symm, ?_⟩
  rw [hmessage]
  exact h.caused o ho

/-! ## How much the handle writes -/

def Setting.own (c : Setting ι P) (x : Topic.Sample P E) : Bool :=
  decide (x.writer.guidPrefix = c.participant)

/-- How many messages the core publishes for a sample of topic `a`, if it is not the handle's. -/
def Setting.answers (c : Setting ι P) (a : ι) (x : Topic.Sample P E) : Nat :=
  if c.own x then 0 else (c.core a ((c.types a).rebuilt x.message) false).length

omit [DecidableEq ι] in
theorem Accounted.own_le [Fintype ι] (h : Accounted c s) :
    ∑ b, (s.topics b).sent.countP c.own ≤ s.orders.length := by
  have hcells : ∑ b, ((s.topics b).sent.map fun x => (c.own x).toNat).sum ≤
      (s.orders.filterMap Order.sample).length := by
    have hone {j : Nat} {x : Topic.Sample P E} (hj : j < (c.own x).toNat) :
        j = 0 ∧ c.own x = true := by
      cases hown : c.own x with
      | false => rw [hown] at hj; cases hj
      | true => rw [hown] at hj; exact ⟨Nat.lt_one_iff.mp hj, rfl⟩
    refine Cells.sum_le_length (fun cell => (cell.1, cell.2.1)) ?_ ?_
    · rintro ⟨a, i, j⟩ hcell ⟨a', i', j'⟩ hcell' heq
      obtain ⟨x, -, hj⟩ := Cells.mem_all_iff.mp hcell
      obtain ⟨x', -, hj'⟩ := Cells.mem_all_iff.mp hcell'
      obtain ⟨rfl, rfl⟩ := Prod.mk.inj heq
      rw [(hone hj).1, (hone hj').1]
    · rintro ⟨a, i, j⟩ hcell
      obtain ⟨x, hx, hj⟩ := Cells.mem_all_iff.mp hcell
      exact h.ordered a i x hx (of_decide_eq_true (hone hj).2)
  simp only [Cells.sum_map_toNat] at hcells
  exact hcells.trans (List.length_filterMap_le _ _)

omit [DecidableEq ι] in
theorem Accounted.causes_le [Fintype ι] (h : Accounted c s) :
    (s.orders.filterMap Order.cause).length ≤
      ∑ a, ((s.topics a).sent.map (c.answers a)).sum := by
  refine Cells.length_le_sum h.causes
    (fun cause => ⟨cause.topic, cause.sampleIdentity, cause.item⟩) ?_ ?_
  · rintro ⟨a, i, j⟩ ⟨a', i', j'⟩ heq
    cases heq
    rfl
  · intro cause hcause
    obtain ⟨o, ho, hcause⟩ := List.mem_filterMap.mp hcause
    obtain ⟨x, hx, hwriter, hitem⟩ := h.caused o ho cause hcause
    refine Cells.mem_all_iff.mpr ⟨x, hx, ?_⟩
    have hown : ¬ c.own x = true := fun hcon => hwriter (of_decide_eq_true hcon)
    rw [Setting.answers, if_neg hown]
    exact lt_length_of_getElem? hitem

/-- If the values of every topic's type are converted and the core leaves internal messages alone,
then in every interleaving each sample of the handle has an order of its own, for a message of
another system or one that the core publishes for a sample of another participant, once for each.
So a message of the handle is never answered, and what it writes is bounded by what comes from
elsewhere. -/
theorem no_echo [LawfulDds] [Fintype ι] (ht : ∀ a, Transferable (c.fuel a) (c.types a))
    (hcore : ∀ a message, c.core a message true = []) (h : (machine c).Reachable s) :
    (∀ b i x, (s.topics b).sent[i]? = some x → x.writer.guidPrefix = c.participant →
      ∃ o ∈ s.orders, o.sample = some (b, i) ∧ o.message = x.message ∧
        ∀ cause ∈ o.cause, Caused c s cause b x.message) ∧
    (s.orders.filterMap Order.sample).Nodup ∧ (s.orders.filterMap Order.cause).Nodup ∧
    ∑ b, (s.topics b).sent.countP c.own ≤ s.orders.countP (fun o => o.cause.isNone) +
      ∑ a, ((s.topics a).sent.map (c.answers a)).sum := by
  have haccounted := accounted_of_reachable ht hcore h
  refine ⟨fun b i x hx => haccounted.exists_order hx, haccounted.samples, haccounted.causes, ?_⟩
  calc ∑ b, (s.topics b).sent.countP c.own
      ≤ s.orders.length := haccounted.own_le
    _ = s.orders.countP (fun o => o.cause.isNone) + (s.orders.filterMap Order.cause).length := by
      rw [List.length_filterMap_eq_countP,
        List.length_eq_countP_add_countP (fun o : Order ι => o.cause.isNone)]
      congr 2
      funext o
      cases o.cause <;> rfl
    _ ≤ _ := Nat.add_le_add_left haccounted.causes_le _

/-! ## Examples -/

def pingRoutes : Setting Bool Nat where
  participant := 7
  fuel _ := 2
  types _ := Topic.pingType
  core a message internal := if internal then [] else [(!a, message)]

def pingTopics : State Bool Nat Nat where
  topics _ := Topic.pingStart
  orders := []

/-- A message of participant 8 goes to the other topic and comes to the subscriber there; a message
of another system cannot be written. -/
def routedPing : List (Event Bool Nat Nat) :=
  List.flatten [[.topic false (.publish 1 (Topic.ping 4) true)],
    (Topic.receive 0 0).map (.topic false), [.callback false 0 0 0 true],
    (Topic.receive 0 0).map (.topic true), [.system true (Topic.ping 6) 0 false]]

omit [Xtypes] [Dds] in
theorem no_echo_routedPing :
    ∃ s : State Bool Nat Nat, (s.topics true).subscriber.delivered.map (fun d => d.2.1) =
        [Topic.ping 4] ∧
      s.orders.map (fun o => (o.cause, o.sample)) =
        [(some ⟨false, 0, 0⟩, some (true, 0)), (none, none)] ∧
      (∀ b i x, (s.topics b).sent[i]? = some x → x.writer.guidPrefix = 7 →
        ∃ o ∈ s.orders, o.sample = some (b, i) ∧ o.message = x.message ∧
          ∀ cause ∈ o.cause,
            @Caused Bool Nat Nat firstLabelXtypes pingRoutes s cause b x.message) ∧
      (s.orders.filterMap Order.sample).Nodup ∧ (s.orders.filterMap Order.cause).Nodup ∧
      ∑ b, (s.topics b).sent.countP pingRoutes.own ≤ s.orders.countP (fun o => o.cause.isNone) +
        ∑ a, ((s.topics a).sent.map (@Setting.answers Bool Nat Nat _ firstLabelXtypes
          pingRoutes a)).sum := by
  have hstart : (@machine Bool Nat Nat _ _ firstLabelXtypes zeroDds pingRoutes).Reachable
      pingTopics := by
    refine Machine.ReachableVia.init (@Initial.mk Bool Nat Nat zeroDds _ _ ?_ rfl)
    intro a
    refine @Topic.Initial.mk Nat Nat zeroDds _ _ ?_ rfl rfl rfl
    intro p hp
    obtain ⟨participant, -, rfl⟩ := List.mem_map.mp hp
    exact ⟨_, rfl, rfl⟩
  have hrun : ((@machine Bool Nat Nat _ _ firstLabelXtypes zeroDds pingRoutes).run pingTopics
      routedPing).any (fun s =>
        (s.topics true).subscriber.delivered.map (fun d => d.2.1) = [Topic.ping 4] ∧
          s.orders.map (fun o => (o.cause, o.sample)) =
            [(some ⟨false, 0, 0⟩, some (true, 0)), (none, none)]) = true := by
    decide +kernel
  obtain ⟨s, hs, hfinal⟩ := (Option.any_eq_true _ _).mp hrun
  obtain ⟨hdelivered, horders⟩ := of_decide_eq_true hfinal
  have h := @no_echo Bool Nat Nat _ _ firstLabelXtypes zeroDds pingRoutes s lawful_zeroDds _
    (fun _ => Topic.transferable_ping) (fun _ _ => rfl) (hstart.of_run routedPing hs)
  exact ⟨s, hdelivered, horders, h⟩

end FastDdsSh.Bridge
