import FastDdsSh.Conversion.Builder

/-!
# The participant

`Participant` keeps the dynamic types it has registered and the type of every topic.  Its
constructor throws unless there is a DDS participant; what the DDS library answers is an argument.
-/

namespace FastDdsSh

/-- What ends a call: a `DDSMiddlewareException`, an exception of another library, or the use of a
pointer or iterator that is not valid. -/
inductive Thrown where
  | middleware (what : String)
  | other
  | invalidPointer
  deriving DecidableEq, Repr

/-- The members of `Participant`; `types` has the dynamic type within each `DynamicPubSubType`. -/
structure Participant where
  ddsParticipant : Bool
  types : KeyedStore String DdsType
  topicToType : KeyedStore String String
  topicToEntities : KeyedStore Nat (List Nat)

structure TypeAnswers where
  built : Bool
  found : Bool
  registered : Bool
  deriving DecidableEq, Repr

namespace Participant

def initial : Participant :=
  ⟨true, .empty, .empty, .empty⟩

def registerDynamicType (a : TypeAnswers) (topicName typeName : String) (builder : Builder) :
    EStateM Thrown Participant PUnit := do
  let p ← get
  if (p.topicToType topicName).isSome then
    return -- Already registered.
  -- the type known under the name is taken, whatever the builder builds
  if (p.types typeName).isSome then
    set { p with topicToType := p.topicToType.set topicName typeName }
    return
  -- `builder->build()`
  if a.built = false then
    throw (.middleware ("Dynamic type '" ++ typeName ++ "' for topic '" ++ topicName ++
      "' was not correctly built"))
  set { p with
    types := p.types.set typeName builder.type
    topicToType := p.topicToType.set topicName typeName }
  -- both maps have been written, also for the exceptions that follow
  if p.ddsParticipant = false then
    throw .invalidPointer
  -- `register_type` is called for a type that `find_type` does not know
  if a.found = false ∧ a.registered = false then
    throw (.middleware ("Dynamic type '" ++ typeName ++ "' registration failed"))

/-- `create_dynamic_data`, with the type of the data; where the type is missing the message is made
from an end iterator. -/
def createDynamicData (topicName : String) : EStateM Thrown Participant DdsType := do
  let p ← get
  match p.topicToType topicName with
  | none =>
      throw (.middleware ("Creating dynamic data for topic '" ++ topicName ++
        "' failed because the topic was not registered"))
  | some typeName =>
      match p.types typeName with
      -- the message is made with the name at `types_.end()`
      | none => throw .invalidPointer
      | some type => return type

def associate (topic entity : Nat) (p : Participant) : Participant :=
  match p.topicToEntities topic with
  | none => { p with topicToEntities := p.topicToEntities.set topic [entity] }
  | some entities =>
      if entity ∈ entities then p
      else { p with topicToEntities := p.topicToEntities.set topic (entities ++ [entity]) }

def dissociate (topic entity : Nat) : EStateM Thrown Participant Bool := do
  let p ← get
  match p.topicToEntities topic with
  -- `at` throws `std::out_of_range`
  | none => throw .other
  | some entities =>
      -- of one entity that is left the identity is not looked at
      if entities.length = 1 then
        set { p with topicToEntities := p.topicToEntities.erase topic }
        return true
      else
        set { p with topicToEntities := p.topicToEntities.set topic (entities.erase entity) }
        return false

/-- A call that starts with a look at the participant. -/
theorem get_bind_apply {α : Type} (f : Participant → EStateM Thrown Participant α)
    (p : Participant) : (get >>= f) p = f p p :=
  rfl

/-- The branches of `register_dynamic_type`: the topic has a type, the type is known, the type
cannot be built, or the type is entered, which is followed by its registration. -/
theorem registerDynamicType_eq (a : TypeAnswers) (topicName typeName : String) (builder : Builder)
    (p : Participant) :
    registerDynamicType a topicName typeName builder p =
      if (p.topicToType topicName).isSome then .ok ⟨⟩ p
      else if (p.types typeName).isSome then
        .ok ⟨⟩ { p with topicToType := p.topicToType.set topicName typeName }
      else if a.built = false then
        .error (.middleware ("Dynamic type '" ++ typeName ++ "' for topic '" ++ topicName ++
          "' was not correctly built")) p
      else
        let p' := { p with
          types := p.types.set typeName builder.type
          topicToType := p.topicToType.set topicName typeName }
        if p.ddsParticipant = false then .error .invalidPointer p'
        else if a.found = false ∧ a.registered = false then
          .error (.middleware ("Dynamic type '" ++ typeName ++ "' registration failed")) p'
        else .ok ⟨⟩ p' := by
  unfold registerDynamicType
  rw [get_bind_apply]
  split_ifs <;> rfl

theorem createDynamicData_eq (topicName : String) (p : Participant) :
    createDynamicData topicName p =
      match p.topicToType topicName with
      | none =>
          .error (.middleware ("Creating dynamic data for topic '" ++ topicName ++
            "' failed because the topic was not registered")) p
      | some typeName =>
          match p.types typeName with
          | none => .error .invalidPointer p
          | some type => .ok type p := by
  unfold createDynamicData
  rw [get_bind_apply]
  cases p.topicToType topicName with
  | none => rfl
  | some typeName =>
    dsimp only
    cases p.types typeName <;> rfl

theorem dissociate_eq (topic entity : Nat) (p : Participant) :
    dissociate topic entity p =
      match p.topicToEntities topic with
      | none => .error .other p
      | some entities =>
          if entities.length = 1 then
            .ok true { p with topicToEntities := p.topicToEntities.erase topic }
          else
            .ok false { p with
              topicToEntities := p.topicToEntities.set topic (entities.erase entity) } := by
  unfold dissociate
  rw [get_bind_apply]
  cases p.topicToEntities topic with
  | none => rfl
  | some entities =>
    dsimp only
    split_ifs <;> rfl

end Participant

end FastDdsSh
