import Mathlib.Algebra.BigOperators.Group.List.Basic
import FastDdsSh.Lib.RowMajor
import FastDdsSh.XTypes

/-!
# Dynamic types and data of the DDS library

The types that a `DynamicTypeBuilder` describes and the data created from them, with the operations
that the conversion uses.  A component is taken on loan for the time of one call, in which nothing
else looks at it, so a loan is the component itself and its return puts the component back.  What
the library decides on its own is a parameter, the class `Dds`.
-/

namespace FastDdsSh

/-! ## Types -/

inductive PrimitiveKind where
  | boolean
  | byte
  | int16
  | uint16
  | int32
  | uint32
  | int64
  | uint64
  | float32
  | float64
  | float128
  | char8
  | char16
  deriving DecidableEq, Repr

def PrimitiveKind.cppType : PrimitiveKind → CppType
  | .boolean => .bool
  | .byte => .uint8
  | .int16 => .int16
  | .uint16 => .uint16
  | .int32 => .int32
  | .uint32 => .uint32
  | .int64 => .int64
  | .uint64 => .uint64
  | .float32 => .float
  | .float64 => .double
  | .float128 => .longDouble
  | .char8 => .char
  | .char16 => .wchar

inductive DdsLeaf where
  | primitive (kind : PrimitiveKind)
  | string8 (bound : Nat)
  | string16 (bound : Nat)
  | enum (name : String) (members : List (String × Nat))
  deriving DecidableEq, Repr

def DdsLeaf.cppType : DdsLeaf → CppType
  | .primitive kind => kind.cppType
  | .string8 _ => .string
  | .string16 _ => .wstring
  | .enum _ _ => .uint32

/-- What a `DynamicTypeBuilder` builds.  A member's id is its place; the labels of a union member
and whether it is the default one are in the order of the members. -/
inductive DdsType where
  | leaf (type : DdsLeaf)
  | array (element : DdsType) (bounds : List Nat)
  | sequence (element : DdsType) (bound : Nat)
  | map (key value : DdsType) (bound : Nat)
  | struct (members : List (String × DdsType))
  | union (discriminator : DdsType) (members : List (String × DdsType))
      (cases : List (List Nat × Bool))
  deriving Repr

/-- What `resolve_type` tells apart in the conversion: the leaves are told apart by `DdsLeaf`. -/
inductive TypeKind where
  | leaf
  | array
  | sequence
  | map
  | struct
  | union
  deriving DecidableEq, Repr

namespace DdsType

def kind : DdsType → TypeKind
  | leaf _ => .leaf
  | array _ _ => .array
  | sequence _ _ => .sequence
  | map _ _ _ => .map
  | struct _ => .struct
  | union _ _ _ => .union

def members : DdsType → List (String × DdsType)
  | struct ms | union _ ms _ => ms
  | _ => []

end DdsType

/-! ## Data -/

/-- `none` is `MEMBER_ID_INVALID`. -/
abbrev MemberId := Option Nat

/-- `DynamicData` of a type.  The components are the elements of an array in row-major order, the
elements of a sequence, the keys and values of a map in turn, or the members in the order of their
ids; `active` is `get_union_id()`. -/
inductive DdsData where
  | leaf (type : DdsLeaf) (value : CppValue)
  | composite (type : DdsType) (components : List DdsData)
  | union (type : DdsType) (discriminator : Nat) (active : MemberId) (components : List DdsData)
  deriving Repr

namespace DdsData

def type : DdsData → DdsType
  | leaf l _ => .leaf l
  | composite t _ | union t _ _ _ => t

def components : DdsData → List DdsData
  | leaf _ _ => []
  | composite _ cs | union _ _ _ cs => cs

/-- Induction over data, with a hypothesis for every component. -/
@[elab_as_elim]
theorem inductionOn {motive : DdsData → Prop} (d : DdsData)
    (data : ∀ d : DdsData, (∀ c ∈ d.components, motive c) → motive d) : motive d :=
  @DdsData.rec motive (fun cs => ∀ c ∈ cs, motive c)
    (fun l v => data (leaf l v) (List.forall_mem_nil _)) (fun t cs ih => data (composite t cs) ih)
    (fun t n a cs ih => data (union t n a cs) ih)
    (List.forall_mem_nil _) (fun _ _ hc hcs => List.forall_mem_cons.mpr ⟨hc, hcs⟩) d

mutual

def equals : DdsData → DdsData → Bool
  | leaf _ v, leaf _ w => decide (v = w)
  | composite _ cs, composite _ ds => equalsAll cs ds
  | union _ n a cs, union _ m b ds => decide (n = m ∧ a = b) && equalsAll cs ds
  | _, _ => false

def equalsAll : List DdsData → List DdsData → Bool
  | [], [] => true
  | c :: cs, d :: ds => c.equals d && equalsAll cs ds
  | _, _ => false

end

mutual

theorem equals_refl (data : DdsData) : data.equals data = true := by
  cases data with
  | leaf l v => exact decide_eq_true rfl
  | composite t cs => exact equalsAll_refl cs
  | union t n a cs =>
    rw [equals, equalsAll_refl cs, Bool.and_true]
    exact decide_eq_true ⟨rfl, rfl⟩

theorem equalsAll_refl (cs : List DdsData) : equalsAll cs cs = true := by
  match cs with
  | [] => rfl
  | c :: cs => rw [equalsAll, equals_refl c, equalsAll_refl cs, Bool.and_self]

end

def component (data : DdsData) : MemberId → Option DdsData
  | none => some data
  | some i => data.components[i]?

/-- Another content for the component with the given id, which a union makes its active member. -/
def withComponent : DdsData → MemberId → DdsData → DdsData
  | _, none, c => c
  | leaf l v, some _, _ => leaf l v
  | composite t cs, some i, c => composite t (cs.set i c)
  -- the discriminator is not adapted to the member that is written
  | union t n a cs, some i, c =>
      if i < cs.length then union t n (some i) (cs.set i c) else union t n a cs

/-- `loan_value` and the `return_loaned_value` for it: a component, and what it is afterwards. -/
def loanValue (data : DdsData) (id : MemberId) : Option DdsData :=
  if id = none then none else data.component id

theorem loanValue_of_component {data c : DdsData} {id : MemberId} (hid : id ≠ none)
    (h : data.component id = some c) : data.loanValue id = some c := by
  rw [loanValue, if_neg hid, h]

theorem exists_of_loanValue {data c : DdsData} {id : MemberId}
    (h : data.loanValue id = some c) : ∃ i, id = some i ∧ data.component (some i) = some c := by
  cases id with
  | none => cases h
  | some i => exact ⟨i, rfl, h⟩

def returnLoanedValue (data : DdsData) (id : MemberId) (c : DdsData) : DdsData :=
  data.withComponent id c

/-- `set_complex_value` has no effect at an invalid id. -/
def setComplexValue (data : DdsData) (c : DdsData) (id : MemberId) : DdsData :=
  -- `set_complex_value` of an invalid id is an error code that nobody reads
  if id = none then data else data.withComponent id c

def getArrayIndex (data : DdsData) (indexes : List Nat) : MemberId :=
  match data.type with
  | .array _ bounds => RowMajor.index bounds indexes
  | _ => none

def getMemberIdByName (data : DdsData) (name : String) : MemberId :=
  data.type.members.findIdx? fun m => m.1 = name

def getMemberIdAtIndex (data : DdsData) (i : Nat) : MemberId :=
  if i < data.type.members.length then some i else none

def getItemCount (data : DdsData) : Nat :=
  match data.type with
  -- a key and a value are one item
  | .map _ _ _ => data.components.length / 2
  | _ => data.components.length

def setDiscriminatorValue (data : DdsData) (n : Nat) : DdsData :=
  match data with
  | union t _ a cs => union t n a cs
  | data => data

def getUnionId : DdsData → MemberId
  | union _ _ a _ => a
  | _ => none

def clearAllValues : DdsData → DdsData
  | composite (.sequence e b) _ => composite (.sequence e b) []
  | composite (.map k t b) _ => composite (.map k t b) []
  | data => data

def mapKeys : List DdsData → List DdsData
  | k :: _ :: rest => k :: mapKeys rest
  | _ => []

/-- `insert_map_data` appends the key and the value; it refuses a key that is there. -/
def insertMapData (data key value : DdsData) : DdsData :=
  match data with
  | composite (.map k t b) cs =>
      -- keys are compared by what they contain
      if (mapKeys cs).any key.equals then composite (.map k t b) cs
      else composite (.map k t b) (cs ++ [key, value])
  | data => data

end DdsData

/-! ## Typed access to leaves -/

/-- The typed setters and getters; `uint8` and `int8` act on the byte kind. -/
inductive Accessor where
  | primitive (kind : PrimitiveKind)
  | uint8
  | int8
  | string
  | wstring
  | enum
  deriving DecidableEq, Repr

namespace Accessor

def cppType : Accessor → CppType
  | primitive kind => kind.cppType
  | uint8 => .uint8
  | int8 => .int8
  | string => .string
  | wstring => .wstring
  | enum => .uint32

def actsOn : Accessor → DdsLeaf → Bool
  | primitive kind, .primitive kind' => decide (kind = kind')
  | uint8, .primitive kind | int8, .primitive kind => decide (kind = .byte)
  | string, .string8 _ | wstring, .string16 _ | enum, .enum _ _ => true
  | _, _ => false

end Accessor

namespace DdsData

/-- `set_..._value(value, id)`; `none` is any code but `RETCODE_OK`. -/
def setValue (data : DdsData) (accessor : Accessor) (value : CppValue) (id : MemberId) :
    Option DdsData :=
  match data.component id with
  | some (leaf l _) =>
      if accessor.actsOn l then
        -- converted to the parameter of the setter and then to what is stored
        some (data.withComponent id (leaf l (l.cppType.cast (accessor.cppType.cast value))))
      else none
  | _ => none

def getValue (data : DdsData) (accessor : Accessor) (id : MemberId) : Option CppValue :=
  match data.component id with
  | some (leaf l v) => if accessor.actsOn l then some (accessor.cppType.cast v) else none
  | _ => none

end DdsData

/-! ## What the library decides -/

/-- The value of a fresh leaf, the discriminator and the active member of a fresh union, the value
of a variable no getter has written to, and the outcome of `get_descriptor`. -/
class Dds where
  defaultLeaf : DdsLeaf → CppValue
  initialMember : DdsType → Nat × MemberId
  indeterminate : CppType → CppValue
  describes : DdsData → MemberId → Bool

namespace DdsData

def memberDescriptor (data : DdsData) (id : MemberId) : Option (String × DdsType) :=
  id.bind fun i => data.type.members[i]?

end DdsData

class LawfulDds [Dds] : Prop where
  describes_of_member (data : DdsData) (id : MemberId) :
    (data.memberDescriptor id).isSome = true → Dds.describes data id = true

variable [Dds]

def DdsData.getDescriptor (data : DdsData) (id : MemberId) : Option (String × DdsType) :=
  if Dds.describes data id then data.memberDescriptor id else none

namespace DdsType

mutual

def createData : DdsType → DdsData
  | leaf l => .leaf l (Dds.defaultLeaf l)
  -- one flat list, whatever the dimensions
  | array e bounds => .composite (array e bounds) (List.replicate bounds.prod e.createData)
  | sequence e b => .composite (sequence e b) []
  | map k t b => .composite (map k t b) []
  | struct ms => .composite (struct ms) (createMembers ms)
  | union d ms cs =>
      let initial := Dds.initialMember (union d ms cs)
      .union (union d ms cs) initial.1 initial.2 (createMembers ms)

def createMembers : List (String × DdsType) → List DdsData
  | [] => []
  | (_, t) :: ms => t.createData :: createMembers ms

end

end DdsType

def DdsData.insertSequenceData : DdsData → DdsData × MemberId
  | .composite (.sequence e b) cs =>
      (.composite (.sequence e b) (cs ++ [e.createData]), some cs.length)
  | data => (data, none)

omit [Dds]

namespace DdsType

mutual

def Admits : DdsType → DdsData → Prop
  | leaf l, data => ∃ v, data = .leaf l v
  | array e bounds, data => ∃ cs, data = .composite (array e bounds) cs ∧
      cs.length = bounds.prod ∧ ∀ c ∈ cs, e.Admits c
  | sequence e b, data => ∃ cs, data = .composite (sequence e b) cs
  | map k t b, data => ∃ cs, data = .composite (map k t b) cs
  | struct ms, data => ∃ cs, data = .composite (struct ms) cs ∧ AdmitsMembers ms cs
  | union d ms cases, data => ∃ n a cs, data = .union (union d ms cases) n a cs ∧
      AdmitsMembers ms cs

def AdmitsMembers : List (String × DdsType) → List DdsData → Prop
  | [], cs => cs = []
  | (_, t) :: ms, cs => ∃ c rest, cs = c :: rest ∧ t.Admits c ∧ AdmitsMembers ms rest

end

variable [Dds]

mutual

theorem admits_createData (t : DdsType) : t.Admits t.createData := by
  cases t with
  | leaf l => exact ⟨_, rfl⟩
  | array e bounds =>
    refine ⟨_, rfl, List.length_replicate, ?_⟩
    intro c hc
    rw [List.eq_of_mem_replicate hc]
    exact admits_createData e
  | sequence e b => exact ⟨[], rfl⟩
  | map k t b => exact ⟨[], rfl⟩
  | struct ms => exact ⟨_, rfl, admitsMembers_createMembers ms⟩
  | union d ms cs => exact ⟨_, _, _, rfl, admitsMembers_createMembers ms⟩

theorem admitsMembers_createMembers (ms : List (String × DdsType)) :
    AdmitsMembers ms (createMembers ms) := by
  match ms with
  | [] => rfl
  | (_, t) :: ms => exact ⟨_, _, rfl, admits_createData t, admitsMembers_createMembers ms⟩

end

end DdsType

omit [Dds]

/-- The parameters as the library has them on the types of the examples: zero and empty leaves, no
active member in a fresh union, and a descriptor for every member. -/
@[reducible] def zeroDds : Dds where
  defaultLeaf l :=
    if l.cppType.isReal then .real 0 else if l.cppType.isText then .text "" else .integral 0
  initialMember _ := (0, none)
  indeterminate T := if T.isReal then .real 0 else if T.isText then .text "" else .integral 0
  describes data id := (data.memberDescriptor id).isSome

theorem lawful_zeroDds : @LawfulDds zeroDds :=
  @LawfulDds.mk zeroDds fun _ _ h => h

end FastDdsSh
