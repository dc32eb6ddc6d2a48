import FastDdsSh.Participant

/-!
# Registration of types

A topic keeps the type it was first given, and a type that the DDS participant refused stays
entered.  Both are found out by looking at what is there before a call.
-/

namespace FastDdsSh

structure Registration where
  topicName : String
  typeName : String
  builder : Builder
  answers : TypeAnswers

namespace Participant

open KeyedStore

def register (r : Registration) : EStateM Thrown Participant PUnit :=
  registerDynamicType r.answers r.topicName r.typeName r.builder

def perform (p : Participant) (r : Registration) : Participant :=
  match register r p with
  | .ok _ p' | .error _ p' => p'

def after (rs : List Registration) : Participant :=
  rs.foldl perform initial

/-- The topic is mapped to the type of the call, and data created for it is of that type. -/
structure Provides (p : Participant) (r : Registration) : Prop where
  mapped : p.topicToType r.topicName = some r.typeName
  created : createDynamicData r.topicName p = .ok r.builder.type p

/-- A call that returns provides the type; one that throws leaves the participant as it was. -/
structure Exact (p : Participant) (r : Registration) : Prop where
  exact : ∀ p', register r p = .ok ⟨⟩ p' → p'.Provides r
  atomic : ∀ e p', register r p = .error e p' → p' = p

/-- The topic is free or has the type already, what is known under the name of the type is the type,
and a type that is built and not known to DDS is registered. -/
def Accepts (p : Participant) (r : Registration) : Prop :=
  match p.topicToType r.topicName, p.types r.typeName with
  | some typeName, some type => typeName = r.typeName ∧ type = r.builder.type
  | some _, none => False
  | none, some type => type = r.builder.type
  | none, none =>
      r.answers.built = true → r.answers.found = true ∨ r.answers.registered = true

structure Known (p : Participant) : Prop where
  participant : p.ddsParticipant = true
  types : ∀ topicName typeName, p.topicToType topicName = some typeName →
    (p.types typeName).isSome = true

structure Extends (p p' : Participant) : Prop where
  participant : p'.ddsParticipant = p.ddsParticipant
  topicToType : ∀ topicName typeName, p.topicToType topicName = some typeName →
    p'.topicToType topicName = some typeName
  types : ∀ typeName type, p.types typeName = some type → p'.types typeName = some type

def Along (P : Participant → Registration → Prop) : Participant → List Registration → Prop
  | _, [] => True
  | p, r :: rs => P p r ∧ Along P (p.perform r) rs

/-! ## One call -/

def mapTopic (p : Participant) (r : Registration) : Participant :=
  { p with topicToType := p.topicToType.set r.topicName r.typeName }

def enter (p : Participant) (r : Registration) : Participant :=
  { p with
    types := p.types.set r.typeName r.builder.type
    topicToType := p.topicToType.set r.topicName r.typeName }

section Updates

variable (p : Participant) (r : Registration)

@[simp] theorem mapTopic_topicToType_self :
    (p.mapTopic r).topicToType r.topicName = some r.typeName :=
  KeyedStore.set_self _ _ _

@[simp] theorem mapTopic_types : (p.mapTopic r).types = p.types := rfl

@[simp] theorem enter_topicToType : (p.enter r).topicToType = (p.mapTopic r).topicToType := rfl

@[simp] theorem enter_types_self : (p.enter r).types r.typeName = some r.builder.type :=
  KeyedStore.set_self _ _ _

end Updates

inductive Outcome (p : Participant) (r : Registration) :
    EStateM.Result Thrown Participant PUnit → Prop where
  | mapped {typeName} (htopic : p.topicToType r.topicName = some typeName) :
      Outcome p r (.ok ⟨⟩ p)
  | known {type} (htopic : p.topicToType r.topicName = none)
      (htype : p.types r.typeName = some type) : Outcome p r (.ok ⟨⟩ (p.mapTopic r))
  | notBuilt {what} (htopic : p.topicToType r.topicName = none)
      (htype : p.types r.typeName = none) (hbuilt : r.answers.built = false) :
      Outcome p r (.error (.middleware what) p)
  | refused {what} (htopic : p.topicToType r.topicName = none)
      (htype : p.types r.typeName = none) (hbuilt : r.answers.built = true)
      (hregistered : ¬ (r.answers.found = true ∨ r.answers.registered = true)) :
      Outcome p r (.error (.middleware what) (p.enter r))
  | entered (htopic : p.topicToType r.topicName = none) (htype : p.types r.typeName = none)
      (hbuilt : r.answers.built = true)
      (hregistered : r.answers.found = true ∨ r.answers.registered = true) :
      Outcome p r (.ok ⟨⟩ (p.enter r))

theorem register_outcome {p : Participant} (hp : p.ddsParticipant = true) (r : Registration) :
    p.Outcome r (register r p) := by
  unfold register
  rw [registerDynamicType_eq]
  -- the branches in the order of the source; a null DDS participant is excluded by `hp`
  split_ifs with htopic htype hbuilt hdds hregistered
  · obtain ⟨typeName, htypeName⟩ := Option.isSome_iff_exists.mp htopic
    exact .mapped htypeName
  · rw [Bool.not_eq_true, Option.isSome_eq_false_iff, Option.isNone_iff_eq_none] at htopic
    obtain ⟨type, htype⟩ := Option.isSome_iff_exists.mp htype
    exact .known htopic htype
  all_goals
    rw [Bool.not_eq_true, Option.isSome_eq_false_iff, Option.isNone_iff_eq_none] at htopic htype
  · exact .notBuilt htopic htype hbuilt
  · rw [hp] at hdds
    cases hdds
  · rw [Bool.not_eq_false] at hbuilt
    apply Outcome.refused htopic htype hbuilt
    rw [hregistered.1, hregistered.2]
    decide
  · rw [Bool.not_eq_false] at hbuilt
    rw [not_and_or, Bool.not_eq_false, Bool.not_eq_false] at hregistered
    exact .entered htopic htype hbuilt hregistered

theorem provides_iff {p : Participant} {r : Registration} :
    p.Provides r ↔
      p.topicToType r.topicName = some r.typeName ∧ p.types r.typeName = some r.builder.type := by
  have hcreate (htopic : p.topicToType r.topicName = some r.typeName) :
      createDynamicData r.topicName p = .ok r.builder.type p ↔
        p.types r.typeName = some r.builder.type := by
    rw [createDynamicData_eq, htopic]
    dsimp only
    cases p.types r.typeName with
    | none => simp
    | some type => simp
  constructor
  · intro h
    exact ⟨h.mapped, (hcreate h.mapped).mp h.created⟩
  · intro h
    exact ⟨h.1, (hcreate h.1).mpr h.2⟩

theorem exact_iff_of_ok {p p' : Participant} {r : Registration}
    (h : register r p = .ok ⟨⟩ p') : p.Exact r ↔ p'.Provides r := by
  constructor
  · intro hexact
    exact hexact.exact p' h
  · intro hprovides
    constructor
    · intro p'' hp''
      cases h.symm.trans hp''
      exact hprovides
    · intro e p'' hp''
      cases h.symm.trans hp''

theorem exact_iff_of_error {p p' : Participant} {r : Registration} {e : Thrown}
    (h : register r p = .error e p') : p.Exact r ↔ p' = p := by
  constructor
  · intro hexact
    exact hexact.atomic e p' h
  · intro hsame
    constructor
    · intro p'' hp''
      cases h.symm.trans hp''
    · intro e' p'' hp''
      cases h.symm.trans hp''
      exact hsame

/-- A call is exact, and atomic, in the states in which the participant accepts it. -/
theorem exact_iff_accepts {p : Participant} (hp : p.Known) (r : Registration) :
    p.Exact r ↔ p.Accepts r := by
  have houtcome := register_outcome hp.participant r
  generalize hresult : register r p = result at houtcome
  unfold Accepts
  cases houtcome with
  | mapped htopic =>
    -- the call returns at once, and provides its type only if the topic has it
    rw [exact_iff_of_ok hresult, provides_iff, htopic]
    cases htype : p.types r.typeName with
    | none => simp
    | some type => simp
  | known htopic htype =>
    -- the builder is not looked at
    rw [exact_iff_of_ok hresult, provides_iff, htopic, htype, mapTopic_types, htype]
    simp
  | notBuilt htopic htype hbuilt =>
    rw [exact_iff_of_error hresult, htopic, htype, hbuilt]
    simp
  | refused htopic htype hbuilt hregistered =>
    -- the topic was free before the call, and is not after it
    have hchanged : p.enter r ≠ p := by
      intro hsame
      have hentered : (p.enter r).topicToType r.topicName = some r.typeName :=
        mapTopic_topicToType_self p r
      rw [hsame, htopic] at hentered
      cases hentered
    rw [exact_iff_of_error hresult, htopic, htype]
    exact iff_of_false hchanged fun h => hregistered (h hbuilt)
  | entered htopic htype hbuilt hregistered =>
    rw [exact_iff_of_ok hresult, provides_iff, htopic, htype]
    exact iff_of_true ⟨by simp, by simp⟩ fun _ => hregistered

/-! ## What a call leaves -/

theorem Extends.refl (p : Participant) : p.Extends p :=
  ⟨rfl, fun _ _ h => h, fun _ _ h => h⟩

theorem Extends.trans {p p' p'' : Participant} (h : p.Extends p') (h' : p'.Extends p'') :
    p.Extends p'' where
  participant := h'.participant.trans h.participant
  topicToType topicName typeName htopic :=
    h'.topicToType topicName typeName (h.topicToType topicName typeName htopic)
  types typeName type htype := h'.types typeName type (h.types typeName type htype)

theorem Provides.mono {p p' : Participant} {r : Registration} (h : p.Provides r)
    (hextends : p.Extends p') : p'.Provides r := by
  obtain ⟨htopic, htype⟩ := provides_iff.mp h
  exact provides_iff.mpr ⟨hextends.topicToType _ _ htopic, hextends.types _ _ htype⟩

/-- What a call leaves: what was there, also with the topic mapped, or also with the type. -/
theorem perform_cases {p : Participant} (hp : p.ddsParticipant = true) (r : Registration) :
    p.perform r = p ∨
      (p.topicToType r.topicName = none ∧ (p.types r.typeName).isSome = true ∧
        p.perform r = p.mapTopic r) ∨
      (p.topicToType r.topicName = none ∧ p.types r.typeName = none ∧
        p.perform r = p.enter r) := by
  have houtcome := register_outcome hp r
  unfold perform
  generalize register r p = result at houtcome
  cases houtcome with
  | mapped htopic => exact .inl rfl
  | known htopic htype => exact .inr (.inl ⟨htopic, by rw [htype]; rfl, rfl⟩)
  | notBuilt htopic htype hbuilt => exact .inl rfl
  | refused htopic htype hbuilt hregistered => exact .inr (.inr ⟨htopic, htype, rfl⟩)
  | entered htopic htype hbuilt hregistered => exact .inr (.inr ⟨htopic, htype, rfl⟩)

theorem extends_perform {p : Participant} (hp : p.ddsParticipant = true) (r : Registration) :
    p.Extends (p.perform r) := by
  rcases perform_cases hp r with h | ⟨htopic, -, h⟩ | ⟨htopic, htype, h⟩
  · rw [h]
    exact .refl p
  · rw [h]
    exact ⟨rfl, fun _ _ => set_of_some htopic, fun _ _ h => h⟩
  · rw [h]
    exact ⟨rfl, fun _ _ => set_of_some htopic, fun _ _ => set_of_some htype⟩

theorem Known.perform {p : Participant} (hp : p.Known) (r : Registration) :
    (p.perform r).Known := by
  -- the only topic that is new is mapped to the type of the call
  have hmapped : ∀ topicName typeName,
      p.topicToType.set r.topicName r.typeName topicName = some typeName →
      typeName = r.typeName ∨ (p.types typeName).isSome = true := by
    intro topicName typeName h
    by_cases htopic : topicName = r.topicName
    · rw [htopic, KeyedStore.set_self] at h
      exact .inl (Option.some.inj h).symm
    · rw [KeyedStore.set_ne _ _ htopic] at h
      exact .inr (hp.types topicName typeName h)
  rcases perform_cases hp.participant r with h | ⟨-, htype, h⟩ | ⟨-, -, h⟩
  · rw [h]
    exact hp
  · rw [h]
    refine ⟨hp.participant, fun topicName typeName htopic => ?_⟩
    rcases hmapped topicName typeName htopic with heq | hknown
    · rw [heq]
      exact htype
    · exact hknown
  · rw [h]
    exact ⟨hp.participant, fun topicName typeName htopic =>
      isSome_set p.types _ (hmapped topicName typeName htopic)⟩

/-! ## Runs -/

theorem known_initial : initial.Known :=
  ⟨rfl, fun _ _ h => nomatch h⟩

theorem Known.foldl {p : Participant} (hp : p.Known) (rs : List Registration) :
    (rs.foldl Participant.perform p).Known ∧ p.Extends (rs.foldl Participant.perform p) := by
  induction rs generalizing p with
  | nil => exact ⟨hp, .refl p⟩
  | cons r rs ih =>
    obtain ⟨hknown, hextends⟩ := ih (hp.perform r)
    exact ⟨hknown, (extends_perform hp.participant r).trans hextends⟩

theorem known_after (rs : List Registration) : (after rs).Known :=
  (known_initial.foldl rs).1

theorem along_exact_iff {p : Participant} (hp : p.Known) (rs : List Registration) :
    Along Exact p rs ↔ Along Accepts p rs := by
  -- on the run, from any state in which the types are known
  induction rs generalizing p with
  | nil => exact Iff.rfl
  | cons r rs ih => exact and_congr (exact_iff_accepts hp r) (ih (hp.perform r))

/-- What a call has provided is still provided after any other calls. -/
theorem provides_after {before later : List Registration} {r : Registration} {p' : Participant}
    (haccepts : (after before).Accepts r) (hreturns : register r (after before) = .ok ⟨⟩ p') :
    (after (before ++ r :: later)).Provides r := by
  have hbefore := known_after before
  have hprovides := ((exact_iff_accepts hbefore r).mpr haccepts).exact p' hreturns
  -- the calls before, this one, and those after, which change nothing of what is provided
  have hperform : (after before).perform r = p' := by
    unfold perform
    rw [hreturns]
  have hafter : after (before ++ r :: later) = later.foldl perform p' := by
    rw [after, List.foldl_append, List.foldl_cons]
    show later.foldl perform ((after before).perform r) = _
    rw [hperform]
  have hp' : p'.Known := by
    rw [← hperform]
    exact hbefore.perform r
  rw [hafter]
  exact hprovides.mono (hp'.foldl later).2

theorem createDynamicData_ne_invalidPointer {p : Participant} (hp : p.Known) (topicName : String)
    (p' : Participant) : createDynamicData topicName p ≠ .error .invalidPointer p' := by
  rw [createDynamicData_eq]
  cases htopic : p.topicToType topicName with
  | none => simp
  | some typeName =>
    obtain ⟨type, htype⟩ := Option.isSome_iff_exists.mp (hp.types topicName typeName htopic)
    simp [htype]

/-- The calls of a run are all exact and atomic if and only if each is accepted when it is made.
What was accepted and returned is provided ever after, and no run leads to a topic without type. -/
theorem registrations_exact_iff (rs : List Registration) :
    (Along Exact initial rs ↔ Along Accepts initial rs) ∧
      (∀ before r later p', rs = before ++ r :: later → (after before).Accepts r →
        register r (after before) = .ok ⟨⟩ p' → (after rs).Provides r) ∧
      (∀ topicName typeName, (after rs).topicToType topicName = some typeName →
        ((after rs).types typeName).isSome = true) ∧
      ∀ topicName p', createDynamicData topicName (after rs) ≠ .error .invalidPointer p' := by
  refine ⟨along_exact_iff known_initial rs, ?_, (known_after rs).types,
    createDynamicData_ne_invalidPointer (known_after rs)⟩
  intro before r later p' hrs haccepts hreturns
  rw [hrs]
  exact provides_after haccepts hreturns

def refusedType : Registration :=
  ⟨"chatter", "std_string", ⟨"std_string", .leaf (.string8 0)⟩, ⟨true, false, false⟩⟩

/-- The type stays entered when its registration has thrown. -/
theorem not_registrations_exact : ¬ ∀ rs, Along Exact initial rs := by
  intro h
  have haccepts := (along_exact_iff known_initial [refusedType]).mp (h [refusedType])
  have hregistered := haccepts.1 rfl
  revert hregistered
  decide

end Participant

end FastDdsSh
