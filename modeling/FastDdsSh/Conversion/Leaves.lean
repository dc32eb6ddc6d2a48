import FastDdsSh.Conversion.Builder

/-!
# Leaves and their positions

The conversions have one switch over the kinds of leaves for each position: a member of a structure
or of a union, an element of an array or of a sequence, and a key or a value of a map.  Each
function here is those switches side by side.
-/

namespace FastDdsSh

/-- How a conversion ends that does not return: an error of the xtypes library, as which the use of
data by another kind of type counts, the use of a null pointer, or a loop that goes on for longer
than was looked at. -/
inductive Fault where
  | exception
  | nullPointer
  | outOfFuel
  deriving DecidableEq, Repr

inductive Position where
  | member
  | unionMember
  | arrayElement
  | sequenceElement
  | entry
  deriving DecidableEq, Repr

/-- Where a value is put in DDS data, or taken from: the data as a whole; the data made for a key; a
key or a value of a map; a member; an element. -/
inductive Place where
  | whole (data : DdsData)
  | key (data : DdsData)
  | entry (data : DdsData) (id : MemberId)
  | member (data : DdsData) (id : MemberId) (inUnion : Bool)
  | arrayElement (data : DdsData) (indexes : List Nat)
  | sequenceElement (data : DdsData) (id : MemberId)

namespace Place

def data : Place → DdsData
  | whole d | key d | entry d _ | member d _ _ | arrayElement d _ | sequenceElement d _ => d

def id : Place → MemberId
  | whole _ | key _ => none
  | entry _ id | member _ id _ | sequenceElement _ id => id
  | arrayElement d indexes => d.getArrayIndex indexes

def position : Place → Position
  | whole _ | key _ | entry _ _ => .entry
  | member _ _ inUnion => if inUnion then .unionMember else .member
  | arrayElement _ _ => .arrayElement
  | sequenceElement _ _ => .sequenceElement

def isFound : Place → Bool
  | whole _ | key _ => true
  | entry _ id | member _ id _ | sequenceElement _ id => id.isSome
  | arrayElement d indexes => (d.getArrayIndex indexes).isSome

end Place

namespace LeafType

/-! ## From xtypes to DDS -/

def readAs (l : LeafType) (p : Position) : CppType :=
  match l, p with
  | .char16, .arrayElement | .wideChar, .arrayElement => .char32
  | .char16, .sequenceElement | .wideChar, .sequenceElement => .char32
  | .char16, _ | .wideChar, _ => .wchar
  -- `set_byte_value(key, id)` converts the reference to its parameter's type
  | .int8, .entry => .uint8
  | l, _ => l.cppType

def setter (l : LeafType) (p : Position) : Accessor :=
  match l, p with
  | .uint8, .sequenceElement | .int8, .sequenceElement => .primitive .byte
  | .uint8, .entry | .int8, .entry => .primitive .byte
  | .uint8, _ => .uint8
  | .int8, _ => .int8
  | .boolean, _ => .primitive .boolean
  | .char8, _ => .primitive .char8
  | .char16, _ | .wideChar, _ => .primitive .char16
  | .int16, _ => .primitive .int16
  | .uint16, _ => .primitive .uint16
  | .int32, _ => .primitive .int32
  | .uint32, _ => .primitive .uint32
  | .int64, _ => .primitive .int64
  | .uint64, _ => .primitive .uint64
  | .float32, _ => .primitive .float32
  | .float64, _ => .primitive .float64
  | .float128, _ => .primitive .float128
  | .string _, _ => .string
  | .wstring _, _ => .wstring
  | .enumeration _, _ => .enum

/-! ## From DDS to xtypes -/

/-- The getter by the kind of the leaf, for elements and for keys and values of maps. -/
def getter : LeafType → Accessor
  | .boolean => .primitive .boolean
  | .char8 => .primitive .char8
  | .char16 | .wideChar => .primitive .char16
  | .uint8 => .uint8
  | .int8 => .int8
  | .int16 => .primitive .int16
  | .uint16 => .primitive .uint16
  | .int32 => .primitive .int32
  | .uint32 => .primitive .uint32
  | .int64 => .primitive .int64
  | .uint64 => .primitive .uint64
  | .float32 => .primitive .float32
  | .float64 => .primitive .float64
  | .float128 => .primitive .float128
  | .string _ => .string
  | .wstring _ => .wstring
  | .enumeration _ => .enum

/-- The C++ type that a member read from a DDS member of kind `d` is written as; `none` where the
switch of `TK_BYTE` has no branch for the leaf. -/
def writtenAs (l : LeafType) (d : DdsLeaf) (inUnion : Bool) : Option CppType :=
  match d with
  | .primitive .byte =>
      if inUnion then some .uint8
      else
        match l with
        | .uint8 | .char8 | .int8 => some l.cppType
        | _ => none
  | d => some d.cppType

end LeafType

/-- The getter by the DDS kind, for members. -/
def DdsLeaf.getter : DdsLeaf → Accessor
  | .primitive kind => .primitive kind
  | .string8 _ => .string
  | .string16 _ => .wstring
  | .enum _ _ => .enum

/-! ## There and back -/

namespace LeafType

def ddsCppType : LeafType → CppType
  | .char16 | .wideChar => .wchar
  | .int8 => .uint8
  | l => l.cppType

def restoredBy (l : LeafType) (p : Position) : Accessor :=
  match p with
  | .member | .unionMember => (l.getBuilder "").getter
  | _ => l.getter

def restoredAs (l : LeafType) (p : Position) : CppType :=
  match l, p with
  | .char16, _ | .wideChar, _ => .wchar
  -- the union's switch has no inner one at `TK_BYTE`
  | .int8, .unionMember => .uint8
  | l, _ => l.cppType

/-- What is stored in DDS data for a leaf with content `v`. -/
def stored (l : LeafType) (p : Position) (v : CppValue) : CppValue :=
  l.ddsCppType.cast ((l.setter p).cppType.cast ((l.readAs p).cast v))

/-- The content of a leaf that is taken from DDS data where `x` is stored. -/
def restored (l : LeafType) (p : Position) (x : CppValue) : CppValue :=
  l.cppType.cast ((l.restoredAs p).cast ((l.restoredBy p).cppType.cast x))

def readable [Xtypes] (l : LeafType) (p : Position) : Bool :=
  l.accessibleAs (l.readAs p)

def writable [Xtypes] (l : LeafType) (p : Position) : Bool :=
  l.accessibleAs (l.restoredAs p)

@[simp] theorem cppType_getBuilder (l : LeafType) (n : String) :
    (l.getBuilder n).cppType = l.ddsCppType := by
  cases l <;> rfl

@[simp] theorem setter_actsOn (l : LeafType) (n : String) (p : Position) :
    (l.setter p).actsOn (l.getBuilder n) = true := by
  cases l <;> cases p <;> rfl

@[simp] theorem getter_actsOn (l : LeafType) (n : String) :
    l.getter.actsOn (l.getBuilder n) = true := by
  cases l <;> rfl

@[simp] theorem getter_getBuilder_actsOn (l : LeafType) (n : String) :
    (l.getBuilder n).getter.actsOn (l.getBuilder n) = true := by
  cases l <;> rfl

theorem getter_getBuilder (l : LeafType) (n : String) (inUnion : Bool) :
    (l.getBuilder n).getter = l.restoredBy (if inUnion then .unionMember else .member) := by
  cases l <;> cases inUnion <;> rfl

theorem writtenAs_getBuilder (l : LeafType) (n : String) (inUnion : Bool) :
    l.writtenAs (l.getBuilder n) inUnion =
      some (l.restoredAs (if inUnion then .unionMember else .member)) := by
  cases l <;> cases inUnion <;> rfl

/-- The content is cast to the C++ type of the DDS leaf, whatever it is cast to on the way. -/
theorem stored_eq_cast {l : LeafType} {v : CppValue} (h : l.cppType.admits v = true)
    (p : Position) : l.stored p v = l.ddsCppType.cast v := by
  by_cases hspecial : l = .int8 ∨ l = .char16 ∨ l = .wideChar
  · cases v with
    | real bits => rfl
    | text s => rfl
    | integral n =>
      rcases hspecial with rfl | rfl | rfl
      all_goals
        cases p <;>
          simp [stored, readAs, setter, ddsCppType, Accessor.cppType, PrimitiveKind.cppType,
            CppType.cast, CppType.bounds, cppType]
  · rw [not_or, not_or] at hspecial
    have hcast : ∀ T, T = l.cppType → T.cast v = v := by
      intro T hT
      rw [hT]
      exact CppType.cast_of_admits h
    have hread : l.readAs p = l.cppType := by cases l <;> first | rfl | simp at hspecial
    have hset : (l.setter p).cppType = l.cppType := by
      cases l <;> cases p <;> first | rfl | simp at hspecial
    unfold stored
    rw [hcast _ hread, hcast _ hset]

/-- The casts on the way do not lose anything, also where they change the sign of a byte or of a
wide character. -/
theorem restored_stored {l : LeafType} {v : CppValue} (h : l.cppType.admits v = true)
    (p q : Position) : l.restored q (l.stored p v) = v := by
  rw [stored_eq_cast h]
  by_cases hspecial : l = .int8 ∨ l = .char16 ∨ l = .wideChar
  · cases v with
    | real bits => rfl
    | text s => rfl
    | integral n =>
      rcases hspecial with rfl | rfl | rfl
      all_goals
        simp only [CppType.admits, CppType.bounds, cppType, decide_eq_true_eq] at h
        cases q <;>
          simp [restored, ddsCppType, getBuilder, restoredAs, restoredBy, getter, DdsLeaf.getter,
            Accessor.cppType, PrimitiveKind.cppType, CppType.cast, CppType.bounds, cppType]
      all_goals omega
  · -- every cast is to the type that the leaf has anyway
    rw [not_or, not_or] at hspecial
    have hcast : ∀ T, T = l.cppType → T.cast v = v := by
      intro T hT
      rw [hT]
      exact CppType.cast_of_admits h
    have hstored : l.ddsCppType = l.cppType := by cases l <;> first | rfl | simp at hspecial
    have hget : (l.restoredBy q).cppType = l.cppType := by
      cases l <;> cases q <;> first | rfl | simp at hspecial
    have hwrite : l.restoredAs q = l.cppType := by cases l <;> first | rfl | simp at hspecial
    unfold restored
    rw [hcast _ hstored, hcast _ hget, hcast _ hwrite, hcast _ rfl]

/-- Different contents are stored as different values. -/
theorem stored_injective {l : LeafType} {v w : CppValue} (hv : l.cppType.admits v = true)
    (hw : l.cppType.admits w = true) {p : Position} (h : l.stored p v = l.stored p w) : v = w := by
  rw [← restored_stored hv p p, h, restored_stored hw p p]

end LeafType

end FastDdsSh
