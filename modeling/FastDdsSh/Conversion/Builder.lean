import FastDdsSh.Lib.KeyedStore
import FastDdsSh.Dds

/-!
# DDS types for Integration Service types

`get_builder` translates a type component by component; `create_builder` names the result and keeps
it for the next call with a type of the same name.
-/

namespace FastDdsSh

/-- `convert_type_name`: what follows the last colon, with `"__"` for every slash. -/
def convertTypeName (messageType : String) : String :=
  let type := ((messageType.toList.splitOn ':').getLast?).getD []
  String.ofList (type.flatMap fun c => if c = '/' then ['_', '_'] else [c])

example : convertTypeName "std_msgs::msg/String" = "msg__String" := by decide

/-- The builder of a leaf; signed and unsigned 8-bit integers are bytes, and both wide characters
are `char16`. -/
def LeafType.getBuilder (name : String) : LeafType → DdsLeaf
  | .boolean => .primitive .boolean
  | .char8 => .primitive .char8
  | .char16 | .wideChar => .primitive .char16
  | .int8 | .uint8 => .primitive .byte
  | .int16 => .primitive .int16
  | .uint16 => .primitive .uint16
  | .int32 => .primitive .int32
  | .uint32 => .primitive .uint32
  | .int64 => .primitive .int64
  | .uint64 => .primitive .uint64
  | .float32 => .primitive .float32
  | .float64 => .primitive .float64
  | .float128 => .primitive .float128
  | .string bounds => .string8 bounds
  | .wstring bounds => .string16 bounds
  | .enumeration enumerators => .enum (convertTypeName name) enumerators

/-- The labels, as `uint64_t`, and whether the member is the default one: the arguments of
`add_member`. -/
def UnionCase.descriptor (c : UnionCase) : List Nat × Bool :=
  (c.labels.map fun label => (label % 2 ^ 64).toNat, c.isDefault)

namespace DynamicType

/-- `get_array_specs` of an array with the given content, whose builder is `builder`: the dimensions
of a content that is itself declared as an array follow the one of the array. -/
def getArraySpecs (content : DynamicType) (builder : Option DdsType) (dimension : Nat) :
    Option (List Nat × DdsType) :=
  match content, builder with
  -- an alias of an array is not looked through: its builder is the element
  | arrayType _ _ _, some (.array element bounds) => some (dimension :: bounds, element)
  | _, some element => some ([dimension], element)
  | _, none => none

mutual

/-- `get_builder`; `none` is the null builder.  A collection of a null builder is null, and a member
with a null builder is not added. -/
def getBuilder : DynamicType → Option DdsType
  | leafType n l => some (.leaf (l.getBuilder n))
  -- the branch of `TypeKind::BITSET_TYPE` is a TODO that breaks out of the switch
  | bitsetType _ => none
  | aliasType _ t => t.getBuilder
  | arrayType _ t d =>
      (getArraySpecs t t.getBuilder d).map fun specs => .array specs.2 specs.1
  | sequenceType _ t b => t.getBuilder.map fun content => .sequence content b
  | mapType _ k t b =>
      k.getBuilder.bind fun key => t.getBuilder.map fun value => .map key value b
  -- `add_member` refuses a null builder, and its result is not looked at
  | structType _ ms => some (.struct (getMemberBuilders ms))
  | unionType _ d ms cs =>
      d.getBuilder.map fun discriminator =>
        .union discriminator (getMemberBuilders ms) (getCaseDescriptors ms cs)

def getMemberBuilders : List (String × DynamicType) → List (String × DdsType)
  | [] => []
  | (m, t) :: ms =>
      match t.getBuilder with
      | some builder => (m, builder) :: getMemberBuilders ms
      | none => getMemberBuilders ms

def getCaseDescriptors :
    List (String × DynamicType) → List UnionCase → List (List Nat × Bool)
  | (_, t) :: ms, c :: cs =>
      match t.getBuilder with
      | some _ => c.descriptor :: getCaseDescriptors ms cs
      | none => getCaseDescriptors ms cs
  | _, _ => []

end

end DynamicType

structure Builder where
  name : String
  type : DdsType
  deriving Repr

def createBuilder (builders : KeyedStore String Builder) (t : DynamicType) :
    Option Builder × KeyedStore String Builder :=
  match builders t.name with
  -- kept under the name: the type itself is not compared
  | some builder => (some builder, builders)
  | none =>
      match t.getBuilder with
      -- a null builder is not kept
      | none => (none, builders)
      | some type =>
          let builder := ⟨convertTypeName t.name, type⟩
          (some builder, builders.set t.name builder)

/-- The builders after `create_builder` has been called on some types, the last one first. -/
def buildersAfter : List DynamicType → KeyedStore String Builder
  | [] => KeyedStore.empty
  | t :: earlier => (createBuilder (buildersAfter earlier) t).2

theorem createBuilder_snd_ne (builders : KeyedStore String Builder) {t : DynamicType}
    {name : String} (h : name ≠ t.name) : (createBuilder builders t).2 name = builders name := by
  unfold createBuilder
  split
  · rfl
  · split
    · rfl
    · exact KeyedStore.set_ne builders _ h

theorem createBuilder_snd_self {builders : KeyedStore String Builder} {t : DynamicType}
    {builder : Builder} (h : (createBuilder builders t).2 t.name = some builder) :
    builders t.name = some builder ∨ t.getBuilder = some builder.type := by
  unfold createBuilder at h
  split at h
  · exact .inl h
  · split at h
    · exact .inl h
    · rename_i type htype
      have hset : (builders.set t.name ⟨convertTypeName t.name, type⟩) t.name = some builder := h
      rw [KeyedStore.set_self] at hset
      cases hset
      exact .inr htype

/-- What is kept under the name of a type comes from a type of that name. -/
theorem getBuilder_of_buildersAfter {earlier : List DynamicType} {name : String}
    {builder : Builder} (h : buildersAfter earlier name = some builder) :
    ∃ t ∈ earlier, t.name = name ∧ t.getBuilder = some builder.type := by
  induction earlier with
  | nil => cases h
  | cons t earlier ih =>
    rw [buildersAfter] at h
    by_cases hname : name = t.name
    · subst hname
      rcases createBuilder_snd_self h with h | h
      · obtain ⟨u, hu, hrest⟩ := ih h
        exact ⟨u, List.mem_cons_of_mem _ hu, hrest⟩
      · exact ⟨t, List.mem_cons_self, rfl, h⟩
    · rw [createBuilder_snd_ne _ hname] at h
      obtain ⟨u, hu, hrest⟩ := ih h
      exact ⟨u, List.mem_cons_of_mem _ hu, hrest⟩

/-- With no other type of the same name before, the result describes the builder of the type. -/
theorem createBuilder_type {earlier : List DynamicType} {t : DynamicType} {type : DdsType}
    (hearlier : ∀ u ∈ earlier, u.name = t.name → u = t) (h : t.getBuilder = some type) :
    ∃ builder, (createBuilder (buildersAfter earlier) t).1 = some builder ∧
      builder.type = type := by
  unfold createBuilder
  cases hkept : buildersAfter earlier t.name with
  | none => exact ⟨_, by rw [h], rfl⟩
  | some builder =>
    obtain ⟨u, hu, hname, hbuilder⟩ := getBuilder_of_buildersAfter hkept
    rw [hearlier u hu hname, h] at hbuilder
    exact ⟨builder, rfl, (Option.some.inj hbuilder).symm⟩

end FastDdsSh
