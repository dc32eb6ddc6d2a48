import FastDdsSh.Participant.Topics
import FastDdsSh.SystemHandle

/-!
# The DDS entities of a system handle

What the constructors and destructors of `Publisher`, `Subscriber`, `Client` and `Server` make of
the DDS participant: on each of its topics an object has a publisher or subscriber and in it a data
writer or reader, and it finds the topic or creates it.  Entities are numbers, which stand for
pointers; the number of one that was deleted can be given to a new one.
-/

namespace FastDdsSh

open Sharing Transition

namespace Entities

/-- The DDS entities of an object on one topic: its data writer or reader, the publisher or
subscriber that has it, and the topic. -/
structure Side where
  endpoint : Nat
  group : Nat
  topic : Nat
  deriving DecidableEq, Repr

/-- The DDS participant: topics with their names, publishers and subscribers, and data writers and
readers. -/
structure Domain where
  topics : List (Nat × String)
  groups : List Nat
  sides : List Side
  deriving DecidableEq, Repr

/-- What the library returns if it is asked to create an entity; `none` is a null pointer. -/
structure Outcomes where
  group : Option Nat
  topic : Option Nat
  endpoint : Option Nat
  deriving DecidableEq, Repr

namespace Domain

def empty : Domain :=
  ⟨[], [], []⟩

def lookupTopicdescription (d : Domain) (name : String) : Option Nat :=
  (d.topics.find? fun t => t.2 = name).map Prod.fst

def addGroup (d : Domain) (group : Nat) : Domain :=
  { d with groups := d.groups ++ [group] }

def addTopic (d : Domain) (topic : Nat) (name : String) : Domain :=
  { d with topics := d.topics ++ [(topic, name)] }

def addSide (d : Domain) (side : Side) : Domain :=
  { d with sides := d.sides ++ [side] }

def deleteEndpoint (d : Domain) (endpoint : Nat) : Bool × Domain :=
  if d.sides.any fun side => side.endpoint = endpoint then
    (true, { d with sides := d.sides.filter fun side => side.endpoint ≠ endpoint })
  else (false, d)

/-- `delete_publisher` or `delete_subscriber`, which is refused while it has a writer or reader. -/
def deleteGroup (d : Domain) (group : Nat) : Bool × Domain :=
  if group ∈ d.groups ∧ ∀ side ∈ d.sides, side.group ≠ group then
    (true, { d with groups := d.groups.erase group })
  else (false, d)

def deleteTopic (d : Domain) (topic : Nat) : Bool × Domain :=
  if topic ∈ d.topics.map Prod.fst ∧ ∀ side ∈ d.sides, side.topic ≠ topic then
    (true, { d with topics := d.topics.filter fun t => t.1 ≠ topic })
  else (false, d)

def hasActiveEntities (d : Domain) : Bool :=
  !(d.groups.isEmpty && d.topics.isEmpty)

/-- `~Participant`: is the DDS participant deleted?  The library would only refuse it for entities
that are active. -/
def deleteParticipant (d : Domain) : Bool :=
  !d.hasActiveEntities

def live (d : Domain) : List Nat :=
  d.topics.map Prod.fst ++ d.groups ++ d.sides.map Side.endpoint

end Domain

structure Site where
  participant : Participant
  domain : Domain

def createEndpoint (endpoint : Option Nat) (group topic : Nat) (s : Site) : Option Side × Site :=
  match endpoint with
  | none => (none, s)
  | some endpoint =>
      (some ⟨endpoint, group, topic⟩,
        ⟨s.participant.associate topic endpoint, s.domain.addSide ⟨endpoint, group, topic⟩⟩)

/-- The part of the constructors that creates the entities on one topic; where there is no result it
throws, and what was created before stays. -/
def createSide (o : Outcomes) (topicName : String) (s : Site) : Option Side × Site :=
  match o.group with
  | none => (none, s)
  | some group =>
      let s := { s with domain := s.domain.addGroup group }
      match s.domain.lookupTopicdescription topicName, o.topic with
      | some topic, _ => createEndpoint o.endpoint group topic s
      | none, some topic =>
          createEndpoint o.endpoint group topic
            { s with domain := s.domain.addTopic topic topicName }
      | none, none => (none, s)

def createSides : List (String × Outcomes) → Site → Option (List Side) × Site
  | [], s => (some [], s)
  | (topicName, o) :: rest, s =>
      match createSide o topicName s with
      | (none, s) => (none, s)
      | (some side, s) =>
          match createSides rest s with
          | (none, s) => (none, s)
          | (some sides, s) => (some (side :: sides), s)

/-- The part of the destructors that deletes the entities on one topic, with what the deletions
return, which nobody looks at; `none` is an exception, which ends the process. -/
def deleteSide (side : Side) (s : Site) : Option (List Bool × Site) :=
  match Participant.dissociate side.topic side.endpoint s.participant with
  | .error _ _ => none
  | .ok last participant =>
      let endpoint := s.domain.deleteEndpoint side.endpoint
      let group := endpoint.2.deleteGroup side.group
      if last then
        let topic := group.2.deleteTopic side.topic
        some ([endpoint.1, group.1, topic.1], ⟨participant, topic.2⟩)
      else some ([endpoint.1, group.1], ⟨participant, group.2⟩)

def deleteSides : List Side → Site → Option (List Bool × Site)
  | [], s => some ([], s)
  | side :: sides, s =>
      (deleteSide side s).bind fun first =>
        (deleteSides sides first.2).map fun rest => (first.1 ++ rest.1, rest.2)

/-! ## Objects over time -/

structure Leftover where
  group : Nat
  topic : Option Nat
  deriving DecidableEq, Repr

def leftover (o : Outcomes) (topicName : String) (d : Domain) : List Leftover :=
  match o.group with
  | none => []
  | some group =>
      [⟨group, if (d.lookupTopicdescription topicName).isSome then none else o.topic⟩]

/-- The objects with their entities, what failed constructions have left, and what the deletions
have returned so far. -/
structure State where
  site : Site
  objects : List (List Side)
  left : List Leftover
  codes : List Bool

/-- `advertise` makes a `Publisher`; `create` is for the objects with a cleaner thread. -/
inductive Event where
  | advertise (topicName : String) (o : Outcomes)
  | create (requests : List (String × Outcomes))
  | destroy (k : Nat)

def Outcomes.entities (o : Outcomes) : List Nat :=
  o.group.toList ++ o.topic.toList ++ o.endpoint.toList

def Fresh (d : Domain) (outcomes : List Outcomes) : Prop :=
  (outcomes.flatMap Outcomes.entities).Nodup ∧
    ∀ id ∈ outcomes.flatMap Outcomes.entities, id ∉ d.live

instance (d : Domain) (outcomes : List Outcomes) : Decidable (Fresh d outcomes) := by
  unfold Fresh
  infer_instance

def stepAdvertise (s : State) (topicName : String) (o : Outcomes) : Option State :=
  if Fresh s.site.domain [o] then
    match createSide o topicName s.site with
    | (some side, site) => some { s with site := site, objects := s.objects ++ [[side]] }
    | (none, site) =>
        some { s with site := site, left := s.left ++ leftover o topicName s.site.domain }
  else none

def stepCreate (s : State) (requests : List (String × Outcomes)) : Option State :=
  if Fresh s.site.domain (requests.map Prod.snd) then
    match createSides requests s.site with
    | (some sides, site) => some { s with site := site, objects := s.objects ++ [sides] }
    -- an exception in the constructor of an object that has its thread ends the process
    | (none, _) => none
  else none

def stepDestroy (s : State) (k : Nat) : Option State :=
  (s.objects[k]?).bind fun sides =>
    (deleteSides sides s.site).map fun deleted =>
      { s with
        site := deleted.2
        objects := s.objects.eraseIdx k
        codes := s.codes ++ deleted.1 }

def step (s : State) : Event → Option State
  | .advertise topicName o => stepAdvertise s topicName o
  | .create requests => stepCreate s requests
  | .destroy k => stepDestroy s k

def State.initial : State :=
  ⟨⟨.initial, .empty⟩, [], [], []⟩

def machine : Machine State Event where
  init s := s = .initial
  step := step

/-! ## One construction -/

variable {s s' : Site} {o : Outcomes} {topicName : String} {side : Side}

theorem createEndpoint_eq_some {endpoint : Option Nat} {group topic : Nat}
    (h : createEndpoint endpoint group topic s = (some side, s')) :
    ∃ e, endpoint = some e ∧ side = ⟨e, group, topic⟩ ∧
      s' = ⟨s.participant.associate topic e, s.domain.addSide ⟨e, group, topic⟩⟩ := by
  cases endpoint with
  | none => cases h
  | some e =>
    cases h
    exact ⟨e, rfl, rfl, rfl⟩

theorem createEndpoint_eq_none {endpoint : Option Nat} {group topic : Nat}
    (h : createEndpoint endpoint group topic s = (none, s')) : endpoint = none ∧ s' = s := by
  cases endpoint with
  | none =>
    cases h
    exact ⟨rfl, rfl⟩
  | some e => cases h

/-- The topic is the one that is found, or else a new one. -/
theorem createSide_eq_some (h : createSide o topicName s = (some side, s')) :
    o.group = some side.group ∧ o.endpoint = some side.endpoint ∧
      s'.participant = s.participant.associate side.topic side.endpoint ∧
      s'.domain.groups = s.domain.groups ++ [side.group] ∧
      s'.domain.sides = s.domain.sides ++ [side] ∧
      ((s.domain.lookupTopicdescription topicName = some side.topic ∧
          s'.domain.topics = s.domain.topics) ∨
        (s.domain.lookupTopicdescription topicName = none ∧ o.topic = some side.topic ∧
          s'.domain.topics = s.domain.topics ++ [(side.topic, topicName)])) := by
  unfold createSide at h
  split at h
  · cases h
  rename_i group hgroup
  dsimp only at h
  split at h
  · rename_i topic hfound
    obtain ⟨e, he, rfl, rfl⟩ := createEndpoint_eq_some h
    exact ⟨hgroup, he, rfl, rfl, rfl, .inl ⟨hfound, rfl⟩⟩
  · rename_i topic hnone htopic
    obtain ⟨e, he, rfl, rfl⟩ := createEndpoint_eq_some h
    exact ⟨hgroup, he, rfl, rfl, rfl, .inr ⟨hnone, htopic, rfl⟩⟩
  · cases h

theorem createSide_eq_none (h : createSide o topicName s = (none, s')) :
    s'.participant = s.participant ∧ s'.domain.sides = s.domain.sides ∧
      s'.domain.groups = s.domain.groups ++ (leftover o topicName s.domain).map Leftover.group ∧
      (s'.domain.topics = s.domain.topics ∨ ∃ topic,
        s.domain.lookupTopicdescription topicName = none ∧ o.topic = some topic ∧
        s'.domain.topics = s.domain.topics ++ [(topic, topicName)] ∧
        ∃ x ∈ leftover o topicName s.domain, x.topic = some topic) := by
  unfold createSide at h
  unfold leftover
  split at h
  · cases h
    exact ⟨rfl, rfl, (List.append_nil _).symm, .inl rfl⟩
  dsimp only at h
  split at h
  · obtain ⟨-, rfl⟩ := createEndpoint_eq_none h
    exact ⟨rfl, rfl, rfl, .inl rfl⟩
  · rename_i topic hnone htopic
    obtain ⟨-, rfl⟩ := createEndpoint_eq_none h
    refine ⟨rfl, rfl, rfl, .inr ⟨topic, hnone, htopic, rfl, _, List.mem_cons_self, ?_⟩⟩
    have hnone : s.domain.lookupTopicdescription topicName = none := hnone
    rw [hnone]
    exact htopic
  · cases h
    exact ⟨rfl, rfl, rfl, .inl rfl⟩

/-- With the answers of this DDS participant, the constructors do what is modelled here. -/
theorem createEntities_of_createSide {typeName noGroup noEndpoint : String} {c : Context}
    {d d' : Domain} {p' : Participant} {result : Option Side}
    (h : createSide o topicName ⟨c.participant, d⟩ = (result, ⟨p', d'⟩)) :
    (∀ side, result = some side →
      createEntities ⟨o.group.isSome, d.lookupTopicdescription topicName, o.topic, o.endpoint⟩
        topicName typeName noGroup noEndpoint c =
          .ok (side.topic, side.endpoint) { c with participant := p' }) ∧
    (result = none → ∃ what,
      createEntities ⟨o.group.isSome, d.lookupTopicdescription topicName, o.topic, o.endpoint⟩
        topicName typeName noGroup noEndpoint c = .error (.middleware what) c ∧
          p' = c.participant) := by
  obtain ⟨group, topic, endpoint⟩ := o
  unfold createSide at h
  unfold createEntities
  dsimp only at h ⊢
  cases group with
  | none =>
    cases h
    exact ⟨(fun _ hnone => by cases hnone), fun _ => ⟨_, rfl, rfl⟩⟩
  | some group =>
    dsimp only at h
    have hlookup : (d.addGroup group).lookupTopicdescription topicName =
      d.lookupTopicdescription topicName := rfl
    rw [hlookup] at h
    cases hfound : d.lookupTopicdescription topicName with
    | some found =>
      rw [hfound] at h
      cases endpoint with
      | none =>
        cases h
        exact ⟨(fun _ hnone => by cases hnone), fun _ => ⟨_, rfl, rfl⟩⟩
      | some e =>
        cases h
        exact ⟨(fun _ hsome => by cases hsome; rfl), (fun hnone => by cases hnone)⟩
    | none =>
      rw [hfound] at h
      cases topic with
      | none =>
        cases h
        exact ⟨(fun _ hnone => by cases hnone), fun _ => ⟨_, rfl, rfl⟩⟩
      | some topic =>
        cases endpoint with
        | none =>
          cases h
          exact ⟨(fun _ hnone => by cases hnone), fun _ => ⟨_, rfl, rfl⟩⟩
        | some e =>
          cases h
          exact ⟨(fun _ hsome => by cases hsome; rfl), (fun hnone => by cases hnone)⟩

/-! ## What there is belongs to somebody -/

/-- The writers and readers are those of the objects; their publishers and subscribers are there,
with those that were left, and a topic is there for an object or was left.  The participant knows
who is on which topic. -/
structure Keeps (s : Site) (owned : List Side) (left : List Leftover) : Prop where
  sides : s.domain.sides.Perm owned
  endpoints : (owned.map Side.endpoint).Nodup
  groups : s.domain.groups.Perm (owned.map Side.group ++ left.map Leftover.group)
  groupsNodup : s.domain.groups.Nodup
  topicIds : (s.domain.topics.map Prod.fst).Nodup
  topicNames : (s.domain.topics.map Prod.snd).Nodup
  topic : ∀ side ∈ owned, side.topic ∈ s.domain.topics.map Prod.fst
  needed : ∀ topic ∈ s.domain.topics.map Prod.fst,
    (∃ side ∈ owned, side.topic = topic) ∨ ∃ x ∈ left, x.topic = some topic
  users : ∃ calls, s.participant.KeepsUsers calls ∧ ∀ topic entity,
    Uses calls topic entity ↔ ∃ side ∈ owned, side.topic = topic ∧ side.endpoint = entity

variable {owned owned' : List Side} {left : List Leftover}

theorem Keeps.initial : Keeps State.initial.site [] [] where
  sides := .nil
  endpoints := .nil
  groups := .nil
  groupsNodup := .nil
  topicIds := .nil
  topicNames := .nil
  topic := List.forall_mem_nil _
  needed := List.forall_mem_nil _
  users := by
    refine ⟨[], Participant.keepsUsers_nil rfl, fun topic entity => ?_⟩
    exact iff_of_false (not_uses_nil topic entity) fun h => by simp at h

/-- The order of the objects does not matter. -/
theorem Keeps.perm (h : Keeps s owned left) (hperm : owned.Perm owned') : Keeps s owned' left where
  sides := h.sides.trans hperm
  endpoints := (hperm.map _).nodup h.endpoints
  groups := h.groups.trans ((hperm.map _).append_right _)
  groupsNodup := h.groupsNodup
  topicIds := h.topicIds
  topicNames := h.topicNames
  topic side hside := h.topic side (hperm.mem_iff.mpr hside)
  needed topic htopic := (h.needed topic htopic).imp_left fun hused =>
    hused.imp fun _ hside => ⟨hperm.mem_iff.mp hside.1, hside.2⟩
  users := by
    obtain ⟨calls, hcalls, hiff⟩ := h.users
    refine ⟨calls, hcalls, fun topic entity => (hiff topic entity).trans ?_⟩
    simp only [hperm.mem_iff]

def Unused (d : Domain) (o : Outcomes) : Prop :=
  (∀ group, o.group = some group → group ∉ d.groups) ∧
    (∀ topic, o.topic = some topic → topic ∉ d.topics.map Prod.fst) ∧
    ∀ endpoint, o.endpoint = some endpoint → endpoint ∉ d.sides.map Side.endpoint

theorem Unused.of_disjoint {d : Domain} (h : ∀ id ∈ o.entities, id ∉ d.live) : Unused d o := by
  unfold Outcomes.entities Domain.live at h
  simp only [List.mem_append, Option.mem_toList, not_or] at h
  exact ⟨fun group hgroup => (h group (.inl (.inl hgroup))).1.2,
    fun topic htopic => (h topic (.inl (.inr htopic))).1.1,
    fun endpoint hendpoint => (h endpoint (.inr hendpoint)).2⟩

theorem lookupTopicdescription_mem {d : Domain} {topic : Nat}
    (h : d.lookupTopicdescription topicName = some topic) : topic ∈ d.topics.map Prod.fst := by
  obtain ⟨t, ht, rfl⟩ := Option.map_eq_some_iff.mp h
  exact List.mem_map_of_mem (List.mem_of_find?_eq_some ht)

theorem not_mem_of_lookupTopicdescription {d : Domain}
    (h : d.lookupTopicdescription topicName = none) : topicName ∉ d.topics.map Prod.snd := by
  intro hmem
  obtain ⟨t, ht, heq⟩ := List.mem_map.mp hmem
  have hne := List.find?_eq_none.mp (Option.map_eq_none_iff.mp h) t ht
  exact hne (decide_eq_true heq)

/-- A topic that is created has a new name and is a new entity. -/
theorem nodup_addTopic {d : Domain} {topic : Nat} (hids : (d.topics.map Prod.fst).Nodup)
    (hnames : (d.topics.map Prod.snd).Nodup) (hnew : topic ∉ d.topics.map Prod.fst)
    (hnone : d.lookupTopicdescription topicName = none) :
    ((d.topics ++ [(topic, topicName)]).map Prod.fst).Nodup ∧
      ((d.topics ++ [(topic, topicName)]).map Prod.snd).Nodup := by
  rw [List.map_append, List.map_append]
  exact ⟨hids.append (List.nodup_singleton _) (List.disjoint_singleton.mpr hnew),
    hnames.append (List.nodup_singleton _)
      (List.disjoint_singleton.mpr (not_mem_of_lookupTopicdescription hnone))⟩

theorem Keeps.create (h : Keeps s owned left) (hnew : Unused s.domain o)
    (hside : createSide o topicName s = (some side, s')) : Keeps s' (owned ++ [side]) left := by
  obtain ⟨hgroup, hendpoint, hparticipant, hgroups, hsides, htopics⟩ := createSide_eq_some hside
  -- the topics afterwards: the old ones, and the one of the side
  have hids : (s'.domain.topics.map Prod.fst).Nodup ∧ (s'.domain.topics.map Prod.snd).Nodup ∧
      ∀ topic, topic ∈ s'.domain.topics.map Prod.fst ↔
        topic ∈ s.domain.topics.map Prod.fst ∨ topic = side.topic := by
    rcases htopics with ⟨hfound, heq⟩ | ⟨hnone, htopic, heq⟩
    · rw [heq]
      refine ⟨h.topicIds, h.topicNames, fun topic => (or_iff_left_of_imp ?_).symm⟩
      rintro rfl
      exact lookupTopicdescription_mem hfound
    · rw [heq]
      obtain ⟨hfst, hsnd⟩ := nodup_addTopic h.topicIds h.topicNames (hnew.2.1 _ htopic) hnone
      refine ⟨hfst, hsnd, fun topic => ?_⟩
      rw [List.map_append, List.mem_append, List.map_singleton, List.mem_singleton]
  exact
    { sides := by
        rw [hsides]
        exact h.sides.append_right _
      endpoints := by
        rw [List.map_append]
        refine h.endpoints.append (List.nodup_singleton _) (List.disjoint_singleton.mpr ?_)
        rw [← (h.sides.map Side.endpoint).mem_iff]
        exact hnew.2.2 _ hendpoint
      groups := by
        rw [hgroups, List.map_append, List.append_assoc]
        refine (h.groups.append_right _).trans ?_
        rw [List.append_assoc]
        exact List.perm_append_comm.append_left _
      groupsNodup := by
        rw [hgroups]
        exact h.groupsNodup.append (List.nodup_singleton _)
          (List.disjoint_singleton.mpr (hnew.1 _ hgroup))
      topicIds := hids.1
      topicNames := hids.2.1
      topic := by
        intro x hx
        rw [hids.2.2]
        rcases List.mem_append.mp hx with hx | hx
        · exact .inl (h.topic x hx)
        · exact .inr (congrArg Side.topic (List.mem_singleton.mp hx))
      needed := by
        intro topic htopic
        rcases (hids.2.2 topic).mp htopic with htopic | rfl
        · exact (h.needed topic htopic).imp_left fun hused =>
            hused.imp fun _ hx => ⟨List.mem_append_left _ hx.1, hx.2⟩
        · exact .inl ⟨side, List.mem_append_right _ List.mem_cons_self, rfl⟩
      users := by
        obtain ⟨calls, hcalls, hiff⟩ := h.users
        rw [hparticipant]
        refine ⟨_, Participant.keepsUsers_associate _ _ hcalls, fun topic entity => ?_⟩
        rw [uses_concat_iff, hiff]
        simp [or_and_right, exists_or, or_comm] }

/-- A constructor that throws leaves what it has created. -/
theorem Keeps.fail (h : Keeps s owned left) (hnew : Unused s.domain o)
    (hside : createSide o topicName s = (none, s')) :
    Keeps s' owned (left ++ leftover o topicName s.domain) := by
  obtain ⟨hparticipant, hsides, hgroups, htopics⟩ := createSide_eq_none hside
  have hids : (s'.domain.topics.map Prod.fst).Nodup ∧ (s'.domain.topics.map Prod.snd).Nodup ∧
      ∀ topic, topic ∈ s'.domain.topics.map Prod.fst ↔ topic ∈ s.domain.topics.map Prod.fst ∨
        topic ∈ s'.domain.topics.map Prod.fst ∧
          ∃ x ∈ leftover o topicName s.domain, x.topic = some topic := by
    rcases htopics with heq | ⟨new, hnone, htopic, heq, hx⟩
    · rw [heq]
      exact ⟨h.topicIds, h.topicNames, fun topic => (or_iff_left_of_imp And.left).symm⟩
    · rw [heq]
      obtain ⟨hfst, hsnd⟩ := nodup_addTopic h.topicIds h.topicNames (hnew.2.1 _ htopic) hnone
      refine ⟨hfst, hsnd, fun topic => ?_⟩
      rw [List.map_append, List.mem_append, List.map_singleton, List.mem_singleton]
      constructor
      · intro hmem
        exact hmem.imp_right fun heq => ⟨.inr heq, heq ▸ hx⟩
      · intro hmem
        exact hmem.elim .inl And.left
  exact
    { sides := hsides ▸ h.sides
      endpoints := h.endpoints
      groups := by
        rw [hgroups, List.map_append, ← List.append_assoc]
        exact h.groups.append_right _
      groupsNodup := by
        rw [hgroups]
        refine h.groupsNodup.append ?_ ?_
        · unfold leftover
          split
          · exact List.nodup_nil
          · exact List.nodup_singleton _
        · unfold leftover
          split
          · exact List.disjoint_nil_right _
          · rename_i group hgroup
            exact List.disjoint_singleton.mpr (hnew.1 group hgroup)
      topicIds := hids.1
      topicNames := hids.2.1
      topic := fun side hx => (hids.2.2 _).mpr (.inl (h.topic side hx))
      needed := by
        intro topic htopic
        rcases (hids.2.2 topic).mp htopic with htopic | ⟨-, x, hx, heq⟩
        · exact (h.needed topic htopic).imp_right fun hleft =>
            hleft.imp fun _ hx => ⟨List.mem_append_left _ hx.1, hx.2⟩
        · exact .inr ⟨x, List.mem_append_right _ hx, heq⟩
      users := hparticipant ▸ h.users }

/-- The entities of the second side are still new when the first one has been created. -/
theorem Fresh.rest {outcomes : List Outcomes} (h : Fresh s.domain (o :: outcomes))
    (hside : createSide o topicName s = (some side, s')) :
    Unused s.domain o ∧ Fresh s'.domain outcomes := by
  obtain ⟨hnodup, hnew⟩ := h
  rw [List.flatMap_cons] at hnodup hnew
  obtain ⟨-, hrest, hdisjoint⟩ := List.nodup_append'.mp hnodup
  refine ⟨.of_disjoint fun id hid => hnew id (List.mem_append_left _ hid), hrest, ?_⟩
  intro id hid hlive
  have hold := hnew id (List.mem_append_right _ hid)
  have hother : id ∉ o.entities := fun hmem => hdisjoint hmem hid
  obtain ⟨hgroup, hendpoint, -, hgroups, hsides, htopics⟩ := createSide_eq_some hside
  unfold Domain.live at hold hlive
  unfold Outcomes.entities at hother
  rw [hgroups, hsides] at hlive
  rcases htopics with ⟨-, heq⟩ | ⟨-, htopic, heq⟩
  · rw [heq] at hlive
    rw [hgroup, hendpoint] at hother
    simp at hold hlive hother
    tauto
  · rw [heq] at hlive
    rw [hgroup, hendpoint, htopic] at hother
    simp at hold hlive hother
    tauto

theorem Keeps.createSides {requests : List (String × Outcomes)} {sides : List Side}
    (h : Keeps s owned left) (hfresh : Fresh s.domain (requests.map Prod.snd))
    (hsides : createSides requests s = (some sides, s')) : Keeps s' (owned ++ sides) left := by
  induction requests generalizing s owned sides with
  | nil =>
    cases hsides
    rw [List.append_nil]
    exact h
  | cons request requests ih =>
    obtain ⟨topicName, o⟩ := request
    unfold Entities.createSides at hsides
    split at hsides
    · cases hsides
    rename_i side s₁ hside
    split at hsides
    · cases hsides
    rename_i rest s₂ hrest
    cases hsides
    obtain ⟨hnew, hfresh⟩ := hfresh.rest hside
    rw [List.append_cons]
    exact ih (h.create hnew hside) hfresh hrest

/-! ## One destruction -/

/-- The writer or reader of no other side. -/
theorem filter_endpoint {sides : List Side} (hperm : sides.Perm (side :: owned))
    (hnodup : ((side :: owned).map Side.endpoint).Nodup) :
    (sides.filter fun x => x.endpoint ≠ side.endpoint).Perm owned := by
  rw [List.map_cons, List.nodup_cons] at hnodup
  have hothers : (owned.filter fun x => x.endpoint ≠ side.endpoint) = owned := by
    refine List.filter_eq_self.mpr fun x hx => decide_eq_true fun heq => hnodup.1 ?_
    rw [← heq]
    exact List.mem_map_of_mem hx
  have hfilter := hperm.filter fun x : Side => x.endpoint ≠ side.endpoint
  rwa [List.filter_cons_of_neg (by simp), hothers] at hfilter

/-- Who is on which topic, when the first side is not any more. -/
theorem uses_leave_iff {calls : List TopicCall}
    (hiff : ∀ topic entity, Uses calls topic entity ↔
      ∃ x ∈ side :: owned, x.topic = topic ∧ x.endpoint = entity)
    (hnodup : ((side :: owned).map Side.endpoint).Nodup) (topic entity : Nat) :
    Uses (calls ++ [.leave side.topic side.endpoint]) topic entity ↔
      ∃ x ∈ owned, x.topic = topic ∧ x.endpoint = entity := by
  rw [List.map_cons, List.nodup_cons] at hnodup
  rw [uses_concat_iff, hiff]
  constructor
  · intro h
    rcases h with hjoin | ⟨⟨x, hx, rfl, rfl⟩, hne⟩
    · cases hjoin
    · rcases List.mem_cons.mp hx with rfl | hx
      · exact absurd rfl hne
      · exact ⟨x, hx, rfl, rfl⟩
  · intro h
    obtain ⟨x, hx, rfl, rfl⟩ := h
    refine .inr ⟨⟨x, List.mem_cons_of_mem _ hx, rfl, rfl⟩, fun heq => ?_⟩
    injection heq with _ hendpoint
    exact hnodup.1 (hendpoint ▸ List.mem_map_of_mem hx)

/-- Nothing is refused, because the writer or reader goes first, and the topic goes with the last
writer or reader on it. -/
theorem Keeps.deleteSide (h : Keeps s (side :: owned) left) :
    ∃ codes s', deleteSide side s = some (codes, s') ∧ (∀ code ∈ codes, code = true) ∧
      Keeps s' owned left := by
  obtain ⟨calls, hcalls, hiff⟩ := h.users
  have huses := uses_leave_iff hiff h.endpoints
  obtain ⟨last, p', hp', hkeeps, hlast⟩ := Participant.dissociate_of_uses hcalls
    ((hiff _ _).mpr ⟨side, List.mem_cons_self, rfl, rfl⟩)
  have hsides := filter_endpoint h.sides h.endpoints
  have hendpoint : (s.domain.sides.any fun x => x.endpoint = side.endpoint) = true :=
    List.any_eq_true.mpr ⟨side, h.sides.mem_iff.mpr List.mem_cons_self, decide_eq_true rfl⟩
  have hgroups := h.groups
  rw [List.map_cons, List.cons_append] at hgroups
  obtain ⟨hgroupNew, -⟩ := List.nodup_cons.mp (hgroups.nodup_iff.mp h.groupsNodup)
  have hgroup : side.group ∈ s.domain.groups ∧
      ∀ x ∈ s.domain.sides.filter fun x => x.endpoint ≠ side.endpoint, x.group ≠ side.group := by
    refine ⟨hgroups.mem_iff.mpr List.mem_cons_self, fun x hx heq => hgroupNew ?_⟩
    rw [← heq]
    exact List.mem_append_left _ (List.mem_map_of_mem (hsides.mem_iff.mp hx))
  have hgroups' : (s.domain.groups.erase side.group).Perm
      (owned.map Side.group ++ left.map Leftover.group) := by
    have herase := hgroups.erase side.group
    rwa [List.erase_cons_head] at herase
  have hold : ∀ x ∈ owned, x.topic ∈ s.domain.topics.map Prod.fst := fun x hx =>
    h.topic x (List.mem_cons_of_mem _ hx)
  have husers : ∃ calls, p'.KeepsUsers calls ∧ ∀ topic entity,
      Uses calls topic entity ↔ ∃ x ∈ owned, x.topic = topic ∧ x.endpoint = entity :=
    ⟨_, hkeeps, huses⟩
  unfold Entities.deleteSide Domain.deleteEndpoint
  rw [hp', if_pos hendpoint]
  dsimp only
  unfold Domain.deleteGroup
  rw [if_pos hgroup]
  cases last with
  | false =>
    -- somebody else is on the topic
    have hother : ∃ x ∈ owned, x.topic = side.topic := by
      by_contra hnone
      refine absurd (hlast.mpr fun hsome => ?_) Bool.false_ne_true
      obtain ⟨e, he⟩ := hsome
      obtain ⟨x, hx, htopic, -⟩ := (huses _ _).mp he
      exact hnone ⟨x, hx, htopic⟩
    refine ⟨_, _, rfl, fun code hcode => by simpa using hcode, hsides,
      (List.nodup_cons.mp h.endpoints).2, hgroups', h.groupsNodup.erase _, h.topicIds, h.topicNames,
      hold, ?_, husers⟩
    intro topic htopic
    refine (h.needed topic htopic).imp_left fun hused => ?_
    obtain ⟨x, hx, rfl⟩ := hused
    rcases List.mem_cons.mp hx with rfl | hx
    · exact hother
    · exact ⟨x, hx, rfl⟩
  | true =>
    have hnone : ∀ x ∈ owned, x.topic ≠ side.topic := fun x hx heq =>
      hlast.mp rfl ⟨x.endpoint, (huses _ _).mpr ⟨x, hx, heq, rfl⟩⟩
    have htopic : side.topic ∈ s.domain.topics.map Prod.fst ∧
        ∀ x ∈ s.domain.sides.filter fun x => x.endpoint ≠ side.endpoint, x.topic ≠ side.topic :=
      ⟨h.topic side List.mem_cons_self, fun x hx => hnone x (hsides.mem_iff.mp hx)⟩
    have hmem : ∀ topic, topic ∈ (s.domain.topics.filter fun t => t.1 ≠ side.topic).map Prod.fst ↔
        topic ∈ s.domain.topics.map Prod.fst ∧ topic ≠ side.topic := by
      intro topic
      simp only [List.mem_map, List.mem_filter, decide_eq_true_eq]
      grind
    rw [if_pos rfl]
    dsimp only
    unfold Domain.deleteTopic
    rw [if_pos htopic]
    refine ⟨_, _, rfl, fun code hcode => by simpa using hcode, hsides,
      (List.nodup_cons.mp h.endpoints).2, hgroups', h.groupsNodup.erase _,
      h.topicIds.sublist (List.filter_sublist.map _),
      h.topicNames.sublist (List.filter_sublist.map _),
      fun x hx => (hmem _).mpr ⟨hold x hx, hnone x hx⟩, ?_, husers⟩
    intro topic hin
    obtain ⟨hin, hne⟩ := (hmem topic).mp hin
    refine (h.needed topic hin).imp_left fun hused => ?_
    obtain ⟨x, hx, rfl⟩ := hused
    rcases List.mem_cons.mp hx with rfl | hx
    · exact absurd rfl hne
    · exact ⟨x, hx, rfl⟩

theorem Keeps.deleteSides {sides : List Side} (h : Keeps s (sides ++ owned) left) :
    ∃ codes s', deleteSides sides s = some (codes, s') ∧ (∀ code ∈ codes, code = true) ∧
      Keeps s' owned left := by
  induction sides generalizing s with
  | nil => exact ⟨[], s, rfl, List.forall_mem_nil _, h⟩
  | cons side sides ih =>
    obtain ⟨codes₁, s₁, hs₁, hcodes₁, hkeeps₁⟩ := Keeps.deleteSide h
    obtain ⟨codes₂, s₂, hs₂, hcodes₂, hkeeps₂⟩ := ih hkeeps₁
    refine ⟨codes₁ ++ codes₂, s₂, ?_, List.forall_mem_append.mpr ⟨hcodes₁, hcodes₂⟩, hkeeps₂⟩
    unfold Entities.deleteSides
    rw [hs₁, Option.bind_some, hs₂]
    rfl

/-! ## Runs -/

/-- Every entity belongs to an object or was left, and no deletion was refused. -/
def Accounted (s : State) : Prop :=
  Keeps s.site s.objects.flatten s.left ∧ ∀ code ∈ s.codes, code = true

/-- An object that is there can be destroyed. -/
theorem Accounted.stepDestroy {s : State} {k : Nat} (h : Accounted s) (hk : k < s.objects.length) :
    ∃ s', stepDestroy s k = some s' ∧ Accounted s' := by
  obtain ⟨hkeeps, hcodes⟩ := h
  have hperm := (List.getElem_cons_eraseIdx_perm hk).flatten.symm
  rw [List.flatten_cons] at hperm
  obtain ⟨codes, site, hdeleted, hok, hkeeps'⟩ := (hkeeps.perm hperm).deleteSides
  refine ⟨{ s with site := site, objects := s.objects.eraseIdx k, codes := s.codes ++ codes }, ?_,
    hkeeps', List.forall_mem_append.mpr ⟨hcodes, hok⟩⟩
  unfold Entities.stepDestroy
  rw [List.getElem?_eq_getElem hk, Option.bind_some, hdeleted]
  rfl

theorem Accounted.step {s s' : State} {a : Event} (h : Accounted s)
    (hstep : machine.step s a = some s') : Accounted s' := by
  cases a with
  | advertise topicName o =>
    have hstep : stepAdvertise s topicName o = some s' := hstep
    unfold stepAdvertise at hstep
    split at hstep
    · rename_i hfresh
      have hnew : Unused s.site.domain o := by
        refine .of_disjoint fun id hid => hfresh.2 id ?_
        rwa [List.flatMap_singleton]
      split at hstep
      · rename_i side site hside
        cases hstep
        refine ⟨?_, h.2⟩
        show Keeps site (s.objects ++ [[side]]).flatten s.left
        rw [List.flatten_append, List.flatten_singleton]
        exact h.1.create hnew hside
      · rename_i site hside
        cases hstep
        exact ⟨h.1.fail hnew hside, h.2⟩
    · cases hstep
  | create requests =>
    have hstep : stepCreate s requests = some s' := hstep
    unfold stepCreate at hstep
    split at hstep
    · rename_i hfresh
      split at hstep
      · rename_i sides site hsides
        cases hstep
        refine ⟨?_, h.2⟩
        show Keeps site (s.objects ++ [sides]).flatten s.left
        rw [List.flatten_append, List.flatten_singleton]
        exact h.1.createSides hfresh hsides
      · cases hstep
    · cases hstep
  | destroy k =>
    have hstep : Entities.stepDestroy s k = some s' := hstep
    have hk : k < s.objects.length := by
      by_contra hlen
      unfold Entities.stepDestroy at hstep
      rw [List.getElem?_eq_none (Nat.le_of_not_lt hlen)] at hstep
      cases hstep
    obtain ⟨s₁, hs₁, haccounted⟩ := h.stepDestroy hk
    rw [hs₁] at hstep
    cases hstep
    exact haccounted

theorem accounted_of_reachable {s : State} (h : machine.Reachable s) : Accounted s := by
  refine h.invariant (fun s hs => ?_) fun s a s' hs hstep => hs.step hstep
  have hs : s = .initial := hs
  subst hs
  exact ⟨.initial, List.forall_mem_nil _⟩

/-- The participant's table has the writers and readers on each topic. -/
theorem Keeps.mem_topicToEntities_iff (h : Keeps s owned left) (topic entity : Nat) :
    (∃ entities, s.participant.topicToEntities topic = some entities ∧ entity ∈ entities) ↔
      ∃ side ∈ owned, side.topic = topic ∧ side.endpoint = entity := by
  obtain ⟨calls, hcalls, hiff⟩ := h.users
  have htopic := hcalls topic
  rw [← hiff]
  cases hentities : s.participant.topicToEntities topic with
  | none =>
    rw [hentities] at htopic
    exact iff_of_false (fun hsome => by simp at hsome) (htopic entity)
  | some entities =>
    rw [hentities] at htopic
    rw [← htopic.2.2 entity]
    simp

/-- Without objects there is only what was left; a topic that was left may have been deleted with
the last object that was on it. -/
theorem Keeps.deleteParticipant_iff (h : Keeps s [] left) :
    s.domain.deleteParticipant = true ↔ left = [] := by
  have hgroups : s.domain.groups = [] ↔ left = [] := by
    rw [← List.perm_nil, h.groups.congr_left, List.perm_nil]
    simp
  have htopics : left = [] → s.domain.topics = [] := by
    rintro rfl
    refine List.eq_nil_iff_forall_not_mem.mpr fun topic htopic => ?_
    have hneeded := h.needed topic.1 (List.mem_map_of_mem htopic)
    simp at hneeded
  unfold Domain.deleteParticipant Domain.hasActiveEntities
  rw [← hgroups] at htopics
  rw [← hgroups]
  simp
  exact htopics

/-- Whatever objects are made and destroyed in whatever order, the readers, writers, publishers and
subscribers on the DDS participant are those of the objects that are there and those that failed
constructions have left, and there are no other topics than theirs: no topic is there twice or is
deleted under an object that is on it, no deletion is refused or throws, and in the end the
participant is deleted unless something was left. -/
theorem entities_accounted {s : State} (h : machine.Reachable s) :
    s.site.domain.sides.Perm s.objects.flatten ∧
      s.site.domain.groups.Perm
        (s.objects.flatten.map Side.group ++ s.left.map Leftover.group) ∧
      (s.site.domain.topics.map Prod.snd).Nodup ∧
      (∀ side ∈ s.objects.flatten, side.topic ∈ s.site.domain.topics.map Prod.fst) ∧
      (∀ topic ∈ s.site.domain.topics.map Prod.fst,
        (∃ side ∈ s.objects.flatten, side.topic = topic) ∨ ∃ x ∈ s.left, x.topic = some topic) ∧
      (∀ topic entity,
        (∃ entities, s.site.participant.topicToEntities topic = some entities ∧
          entity ∈ entities) ↔
            ∃ side ∈ s.objects.flatten, side.topic = topic ∧ side.endpoint = entity) ∧
      (∀ code ∈ s.codes, code = true) ∧
      (∀ k < s.objects.length, (machine.step s (.destroy k)).isSome = true) ∧
      (s.objects = [] → (s.site.domain.deleteParticipant = true ↔ s.left = [])) := by
  have haccounted := accounted_of_reachable h
  have hkeeps := haccounted.1
  refine ⟨hkeeps.sides, hkeeps.groups, hkeeps.topicNames, hkeeps.topic, hkeeps.needed,
    hkeeps.mem_topicToEntities_iff, haccounted.2, fun k hk => ?_, fun hnil => ?_⟩
  · obtain ⟨s', hs', -⟩ := haccounted.stepDestroy hk
    show (stepDestroy s k).isSome = true
    rw [hs']
    rfl
  · rw [hnil] at hkeeps
    exact hkeeps.deleteParticipant_iff

/-- A publisher and a subscriber on one topic, a server, a publisher whose data writer is not
created, and one that uses the topic that it has left; they are destroyed in another order. -/
def failedWriter : List Event :=
  [.advertise "a" ⟨some 1, some 2, some 3⟩,
    .create [("a", ⟨some 4, none, some 5⟩)],
    .create [("s_Request", ⟨some 6, some 7, some 8⟩), ("s_Reply", ⟨some 9, some 10, some 11⟩)],
    .advertise "b" ⟨some 12, some 13, none⟩,
    .advertise "b" ⟨some 14, none, some 15⟩,
    .destroy 0, .destroy 2, .destroy 1, .destroy 0]

theorem entities_accounted_failedWriter :
    ∃ s, machine.run .initial failedWriter = some s ∧ s.site.domain = ⟨[], [12], []⟩ ∧
      s.codes.length = 14 ∧ (∀ code ∈ s.codes, code = true) ∧
      (s.site.domain.deleteParticipant = true ↔ s.left = []) := by
  have hrun : (machine.run .initial failedWriter).map (fun s =>
      (s.site.domain, s.codes.length, s.objects)) = some (⟨[], [12], []⟩, 14, []) := by
    decide
  obtain ⟨s, hs, hfinal⟩ := Option.map_eq_some_iff.mp hrun
  obtain ⟨hdomain, hrest⟩ := Prod.ext_iff.mp hfinal
  obtain ⟨hlength, hobjects⟩ := Prod.ext_iff.mp hrest
  have hstart : machine.Reachable .initial := Machine.ReachableVia.init rfl
  have h := entities_accounted (hstart.of_run failedWriter hs)
  exact ⟨s, hs, hdomain, hlength, h.2.2.2.2.2.2.1, h.2.2.2.2.2.2.2.2 hobjects⟩

end Entities

end FastDdsSh
