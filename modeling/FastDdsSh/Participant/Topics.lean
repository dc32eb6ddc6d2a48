import FastDdsSh.Lib.Sharing
import FastDdsSh.Participant

/-!
# Topics and their entities

Publishers, subscribers, clients and servers share the DDS topics.  Each associates the entity it
creates with the topic, and deletes the topic if its entity is the last one to be dissociated from
it.
-/

namespace FastDdsSh

open Sharing

/-- A call of `associate_topic_to_dds_entity` or of `dissociate_topic_from_dds_entity`, on a topic
and an entity. -/
abbrev TopicCall := Sharing.Step Nat Nat

namespace Participant

def performTopicCall : TopicCall → EStateM Thrown Participant (Option Bool)
  | .join topic entity => do
      modify (associate topic entity)
      return none
  | .leave topic entity => do
      let last ← dissociate topic entity
      return some last

def performTopicCalls : List TopicCall → EStateM Thrown Participant (List (Option Bool))
  | [] => return []
  | call :: calls => do
      let result ← performTopicCall call
      let results ← performTopicCalls calls
      return result :: results

/-- Every topic that entities are associated with has an entry, which is the set of them, and no
other topic has one. -/
def KeepsUsers (p : Participant) (calls : List TopicCall) : Prop :=
  ∀ topic, match p.topicToEntities topic with
    | none => ∀ entity, ¬ Uses calls topic entity
    | some entities =>
        entities ≠ [] ∧ entities.Nodup ∧ ∀ entity, entity ∈ entities ↔ Uses calls topic entity

/-! ## One call -/

theorem keepsUsers_nil {p : Participant} (h : p.topicToEntities = .empty) : p.KeepsUsers [] := by
  intro topic
  rw [h]
  exact fun entity => not_uses_nil topic entity

/-- A call is about one topic only. -/
theorem uses_concat_of_ne {calls : List TopicCall} {call : TopicCall} {topic topic' : Nat}
    (hcall : ∃ entity, call = .join topic entity ∨ call = .leave topic entity)
    (hne : topic' ≠ topic) (entity' : Nat) :
    Uses (calls ++ [call]) topic' entity' ↔ Uses calls topic' entity' := by
  rw [uses_concat_iff]
  obtain ⟨entity, rfl | rfl⟩ := hcall
  · simp [hne.symm]
  · simp [hne.symm]

section

variable {p p' : Participant} {calls : List TopicCall} {call : TopicCall} {topic : Nat}

/-- The entries of the other topics are right after a call that does not write them. -/
theorem keepsUsers_of_ne (h : p.KeepsUsers calls)
    (hcall : ∃ entity, call = .join topic entity ∨ call = .leave topic entity) {topic' : Nat}
    (hne : topic' ≠ topic) (hsame : p'.topicToEntities topic' = p.topicToEntities topic') :
    match p'.topicToEntities topic' with
    | none => ∀ entity, ¬ Uses (calls ++ [call]) topic' entity
    | some entities => entities ≠ [] ∧ entities.Nodup ∧
        ∀ entity, entity ∈ entities ↔ Uses (calls ++ [call]) topic' entity := by
  have htopic := h topic'
  rw [hsame]
  simp only [uses_concat_of_ne hcall hne]
  exact htopic

/-- A call that leaves the topic with some entities. -/
theorem keepsUsers_set (h : p.KeepsUsers calls)
    (hcall : ∃ entity, call = .join topic entity ∨ call = .leave topic entity)
    {entities : List Nat} (hentry : p'.topicToEntities = p.topicToEntities.set topic entities)
    (hnil : entities ≠ []) (hnodup : entities.Nodup)
    (hmem : ∀ entity, entity ∈ entities ↔ Uses (calls ++ [call]) topic entity) :
    p'.KeepsUsers (calls ++ [call]) := by
  intro topic'
  by_cases hne : topic' = topic
  · rw [hentry, hne, KeyedStore.set_self]
    exact ⟨hnil, hnodup, hmem⟩
  · apply keepsUsers_of_ne h hcall hne
    rw [hentry, KeyedStore.set_ne _ _ hne]

/-- A call that leaves the topic without entities. -/
theorem keepsUsers_erase (h : p.KeepsUsers calls)
    (hcall : ∃ entity, call = .join topic entity ∨ call = .leave topic entity)
    (hentry : p'.topicToEntities = p.topicToEntities.erase topic)
    (hnone : ∀ entity, ¬ Uses (calls ++ [call]) topic entity) :
    p'.KeepsUsers (calls ++ [call]) := by
  intro topic'
  by_cases hne : topic' = topic
  · rw [hentry, hne, KeyedStore.erase_self]
    exact hnone
  · apply keepsUsers_of_ne h hcall hne
    rw [hentry, KeyedStore.erase_ne _ hne]

end

/-- `associate` adds the entity to those of the topic. -/
theorem keepsUsers_associate {p : Participant} {calls : List TopicCall} (topic entity : Nat)
    (h : p.KeepsUsers calls) :
    (p.associate topic entity).KeepsUsers (calls ++ [.join topic entity]) := by
  have hcall : ∃ e, Step.join topic entity = .join topic e ∨
      Step.join topic entity = .leave topic e :=
    ⟨entity, .inl rfl⟩
  have huses : ∀ e, Uses (calls ++ [.join topic entity]) topic e ↔
      e = entity ∨ Uses calls topic e := by
    intro e
    rw [uses_concat_iff]
    simp [eq_comm]
  have htopic := h topic
  unfold associate
  cases hentities : p.topicToEntities topic with
  | none =>
    rw [hentities] at htopic
    apply keepsUsers_set h hcall rfl (List.cons_ne_nil _ _) (List.nodup_singleton _)
    intro e
    rw [huses, List.mem_singleton]
    exact (or_iff_left (htopic e)).symm
  | some entities =>
    rw [hentities] at htopic
    obtain ⟨hnil, hnodup, hmem⟩ := htopic
    dsimp only
    by_cases hthere : entity ∈ entities
    · rw [if_pos hthere]
      have hentry := (KeyedStore.set_eq_self_iff.mpr hentities).symm
      apply keepsUsers_set h hcall hentry hnil hnodup
      intro e
      rw [huses, ← hmem]
      exact (or_iff_right_of_imp fun heq => heq ▸ hthere).symm
    · rw [if_neg hthere]
      have hnodup' : (entities ++ [entity]).Nodup := by
        rw [← List.concat_eq_append]
        exact hnodup.concat hthere
      apply keepsUsers_set h hcall rfl (List.append_ne_nil_of_left_ne_nil hnil _) hnodup'
      intro e
      rw [huses, ← hmem, List.mem_append, List.mem_singleton]
      exact or_comm

/-- `dissociate` of an entity that the topic has: it removes the entity from those of the topic and
says whether there is none left. -/
theorem dissociate_of_uses {p : Participant} {calls : List TopicCall} {topic entity : Nat}
    (h : p.KeepsUsers calls) (hentity : Uses calls topic entity) :
    ∃ last p', dissociate topic entity p = .ok last p' ∧
      p'.KeepsUsers (calls ++ [.leave topic entity]) ∧
      (last = true ↔ ¬ ∃ e, Uses (calls ++ [.leave topic entity]) topic e) := by
  have hcall : ∃ e, Step.leave topic entity = .join topic e ∨
      Step.leave topic entity = .leave topic e := ⟨entity, .inr rfl⟩
  have huses : ∀ e, Uses (calls ++ [.leave topic entity]) topic e ↔
      e ≠ entity ∧ Uses calls topic e := by
    intro e
    rw [uses_concat_iff]
    simp [eq_comm, and_comm]
  have htopic := h topic
  rw [dissociate_eq]
  cases hentities : p.topicToEntities topic with
  | none =>
    rw [hentities] at htopic
    exact absurd hentity (htopic entity)
  | some entities =>
    rw [hentities] at htopic
    obtain ⟨-, hnodup, hmem⟩ := htopic
    have hthere := (hmem entity).mpr hentity
    dsimp only
    by_cases hone : entities.length = 1
    · -- the one that is left is the one that is dissociated
      obtain ⟨e, rfl⟩ := List.length_eq_one_iff.mp hone
      obtain rfl := List.mem_singleton.mp hthere
      have hnone : ∀ e, ¬ Uses (calls ++ [.leave topic entity]) topic e := by
        intro e he
        rw [huses, ← hmem, List.mem_singleton] at he
        exact he.1 he.2
      rw [if_pos hone]
      exact ⟨_, _, rfl, keepsUsers_erase h hcall rfl hnone,
        iff_of_true rfl fun hsome => hsome.elim hnone⟩
    · have hrest : ∀ e, e ∈ entities.erase entity ↔
          Uses (calls ++ [.leave topic entity]) topic e := by
        intro e
        rw [huses, ← hmem, hnodup.mem_erase_iff]
      have hnil : entities.erase entity ≠ [] := by
        intro hnil
        have hlength := List.length_erase_of_mem hthere
        have hpos := List.length_pos_of_mem hthere
        rw [hnil, List.length_nil] at hlength
        omega
      obtain ⟨e, he⟩ := List.exists_mem_of_ne_nil _ hnil
      rw [if_neg hone]
      exact ⟨_, _, rfl, keepsUsers_set h hcall rfl hnil (hnodup.erase _) hrest,
        iff_of_false Bool.false_ne_true fun hnone => hnone ⟨e, (hrest e).mp he⟩⟩

/-! ## Runs -/

/-- A call that continues a proper history returns, and what it says is right. -/
theorem performTopicCall_of_proper {p : Participant} {calls later : List TopicCall}
    {call : TopicCall} (h : p.KeepsUsers calls) (hproper : Proper (calls ++ call :: later)) :
    ∃ result p', performTopicCall call p = .ok result p' ∧ p'.KeepsUsers (calls ++ [call]) ∧
      ∀ topic entity, call = .leave topic entity →
        ∃ last, result = some last ∧
          (last = true ↔ ¬ ∃ e, Uses (calls ++ [call]) topic e) := by
  cases call with
  | join topic entity =>
    exact ⟨none, _, rfl, keepsUsers_associate topic entity h, fun _ _ hleave => by cases hleave⟩
  | leave topic entity =>
    obtain ⟨last, p', hp', hkeeps, hlast⟩ := dissociate_of_uses h hproper.uses
    refine ⟨some last, p', ?_, hkeeps, ?_⟩
    · show EStateM.bind (dissociate topic entity) _ p = _
      rw [EStateM.bind, hp']
      rfl
    · intro _ _ hleave
      cases hleave
      exact ⟨last, rfl, hlast⟩

theorem performTopicCalls_of_proper {p : Participant} {earlier calls : List TopicCall}
    (h : p.KeepsUsers earlier) (hproper : Proper (earlier ++ calls)) :
    ∃ results p', performTopicCalls calls p = .ok results p' ∧ p'.KeepsUsers (earlier ++ calls) ∧
      ∀ (i : Nat) topic entity, calls[i]? = some (.leave topic entity) →
        ∃ last, results[i]? = some (some last) ∧
          (last = true ↔ ¬ ∃ e, Uses (earlier ++ calls.take (i + 1)) topic e) := by
  -- on the calls that are left, with those that have been made
  induction calls generalizing p earlier with
  | nil =>
    refine ⟨[], p, rfl, ?_, fun i topic entity hi => ?_⟩
    · rw [List.append_nil]
      exact h
    · rw [List.getElem?_nil] at hi
      cases hi
  | cons call calls ih =>
    obtain ⟨result, p₁, hp₁, hkeeps, hresult⟩ := performTopicCall_of_proper h hproper
    rw [List.append_cons] at hproper
    obtain ⟨results, p₂, hp₂, hkeeps₂, hresults⟩ := ih hkeeps hproper
    refine ⟨result :: results, p₂, ?_, ?_, ?_⟩
    · show EStateM.bind (performTopicCall call) _ p = _
      rw [EStateM.bind, hp₁]
      show EStateM.bind (performTopicCalls calls) _ p₁ = _
      rw [EStateM.bind, hp₂]
      rfl
    · rwa [List.append_cons]
    · intro i topic entity hi
      cases i with
      | zero =>
        obtain ⟨last, rfl, hlast⟩ := hresult topic entity (Option.some.inj hi)
        exact ⟨last, rfl, hlast⟩
      | succ i =>
        obtain ⟨last, hlast, hiff⟩ := hresults i topic entity hi
        rw [List.append_assoc] at hiff
        exact ⟨last, hlast, hiff⟩

/-- In any run in which entities are associated before they are dissociated, and dissociated at most
once, every call returns; dissociation says whether the topic has no entity any more, and the topics
with entries are those with entities, each with the set of its entities. -/
theorem topics_deleted_by_last {p : Participant} (hempty : p.topicToEntities = .empty)
    {calls : List TopicCall} (hproper : Proper calls) :
    ∃ results p', performTopicCalls calls p = .ok results p' ∧
      (∀ topic, (p'.topicToEntities topic).isSome = true ↔ ∃ entity, Uses calls topic entity) ∧
      (∀ topic entities, p'.topicToEntities topic = some entities →
        entities.Nodup ∧ ∀ entity, entity ∈ entities ↔ Uses calls topic entity) ∧
      ∀ (i : Nat) topic entity, calls[i]? = some (.leave topic entity) →
        ∃ last, results[i]? = some (some last) ∧
          (last = true ↔ ¬ ∃ e, Uses (calls.take (i + 1)) topic e) := by
  obtain ⟨results, p', hp', hkeeps, hresults⟩ :=
    performTopicCalls_of_proper (keepsUsers_nil hempty) hproper
  refine ⟨results, p', hp', fun topic => ?_, fun topic entities hentities => ?_, hresults⟩
  · have htopic := hkeeps topic
    cases hentities : p'.topicToEntities topic with
    | none =>
      rw [hentities] at htopic
      exact iff_of_false Bool.false_ne_true fun hsome => hsome.elim htopic
    | some entities =>
      rw [hentities] at htopic
      obtain ⟨hnil, -, hmem⟩ := htopic
      obtain ⟨e, he⟩ := List.exists_mem_of_ne_nil _ hnil
      exact iff_of_true rfl ⟨e, (hmem e).mp he⟩
  · have htopic := hkeeps topic
    rw [hentities] at htopic
    exact htopic.2

/-- Two entities on one topic, and one that comes back. -/
theorem topics_deleted_by_last_two :
    ∃ results p', performTopicCalls
        [.join 0 1, .join 0 2, .leave 0 1, .join 0 1, .leave 0 2] initial = .ok results p' ∧
      ∃ last, results[4]? = some (some last) ∧ (last = true ↔ ¬ ∃ e, Uses
        ([.join 0 1, .join 0 2, .leave 0 1, .join 0 1, .leave 0 2] : List TopicCall) 0 e) := by
  have hproper : Proper
      ([.join 0 1, .join 0 2, .leave 0 1, .join 0 1, .leave 0 2] : List TopicCall) :=
    ((((proper_nil.concat_join 0 1).concat_join 0 2).concat_leave (r := 0) (u := 1) (by decide)
      (by decide)).concat_join 0 1).concat_leave (by decide) (by decide)
  obtain ⟨results, p', hp', -, -, hresults⟩ := topics_deleted_by_last (p := initial) rfl hproper
  exact ⟨results, p', hp', hresults 4 0 2 rfl⟩

end Participant

end FastDdsSh
