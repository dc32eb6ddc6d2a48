import Mathlib.Data.List.Basic
import Mathlib.Tactic

/-!
# Dynamic types and data of the Integration Service

The types and values of the xtypes library as this system handle uses them.  The C++ side of a leaf
is a value of one of the C++ types the typed accessors are instantiated with.  What the library
decides on its own (fresh values, the discriminator that `operator[]` gives to a union, which types
may be assigned to each other) is a parameter, the class `Xtypes`.
-/

namespace FastDdsSh

/-! ## C++ values -/

/-- The types `value<T>`, `push` and the DDS accessors are used with; `octet` is `uint8`. -/
inductive CppType where
  | bool
  | char
  | char16
  | char32
  | wchar
  | int8
  | uint8
  | int16
  | uint16
  | int32
  | uint32
  | int64
  | uint64
  | float
  | double
  | longDouble
  | string
  | wstring
  deriving DecidableEq, Repr

/-- Floating point values are carried as bit patterns; no code here computes with them. -/
inductive CppValue where
  | integral (n : Int)
  | real (bits : Nat)
  | text (s : String)
  deriving DecidableEq, Repr

namespace CppType

def bounds : CppType → Option (Int × Int)
  | .bool => some (0, 1)
  | .char | .int8 => some (-2 ^ 7, 2 ^ 7 - 1)
  | .uint8 => some (0, 2 ^ 8 - 1)
  | .int16 => some (-2 ^ 15, 2 ^ 15 - 1)
  | .char16 | .uint16 => some (0, 2 ^ 16 - 1)
  | .wchar | .int32 => some (-2 ^ 31, 2 ^ 31 - 1)
  | .char32 | .uint32 => some (0, 2 ^ 32 - 1)
  | .int64 => some (-2 ^ 63, 2 ^ 63 - 1)
  | .uint64 => some (0, 2 ^ 64 - 1)
  | .float | .double | .longDouble | .string | .wstring => none

def isReal : CppType → Bool
  | .float | .double | .longDouble => true
  | _ => false

def isText : CppType → Bool
  | .string | .wstring => true
  | _ => false

/-- The value is one of the type. -/
def admits (T : CppType) : CppValue → Bool
  | .integral n => match T.bounds with
    | some (lo, hi) => decide (lo ≤ n ∧ n ≤ hi)
    | none => false
  | .real _ => T.isReal
  | .text _ => T.isText

/-- `static_cast<T>` and the implicit conversions between integral types. -/
def cast (T : CppType) : CppValue → CppValue
  | .integral n =>
      -- everything but zero is `true`
      if T = .bool then .integral (if n = 0 then 0 else 1)
      else match T.bounds with
        -- modulo the number of values of the type
        | some (lo, hi) => .integral ((n - lo) % (hi - lo + 1) + lo)
        | none => .integral n
  | v => v

theorem cast_of_admits {T : CppType} {v : CppValue} (h : T.admits v = true) : T.cast v = v := by
  cases v with
  | real bits => rfl
  | text s => rfl
  | integral n =>
    cases T <;> simp [admits, bounds] at h <;> simp [cast, bounds]
    case bool => omega
    all_goals omega

end CppType

/-! ## Types -/

/-- The kinds that `value<T>` applies to.  Enumerations are `EnumerationType<uint32_t>`. -/
inductive LeafType where
  | boolean
  | char8
  | char16
  | wideChar
  | int8
  | uint8
  | int16
  | uint16
  | int32
  | uint32
  | int64
  | uint64
  | float32
  | float64
  | float128
  | string (bounds : Nat)
  | wstring (bounds : Nat)
  | enumeration (enumerators : List (String × Nat))
  deriving DecidableEq, Repr

def LeafType.cppType : LeafType → CppType
  | .boolean => .bool
  | .char8 => .char
  | .char16 => .char16
  | .wideChar => .wchar
  | .int8 => .int8
  | .uint8 => .uint8
  | .int16 => .int16
  | .uint16 => .uint16
  | .int32 => .int32
  | .uint32 => .uint32
  | .int64 => .int64
  | .uint64 => .uint64
  | .float32 => .float
  | .float64 => .double
  | .float128 => .longDouble
  | .string _ => .string
  | .wstring _ => .wstring
  | .enumeration _ => .uint32

structure UnionCase where
  labels : List Int
  isDefault : Bool
  deriving DecidableEq, Repr

/-- `xtypes::DynamicType`; every type has its `name()`.  The cases of a union are in the order of
its members. -/
inductive DynamicType where
  | leafType (name : String) (leaf : LeafType)
  | bitsetType (name : String)
  | aliasType (name : String) (target : DynamicType)
  | arrayType (name : String) (content : DynamicType) (dimension : Nat)
  | sequenceType (name : String) (content : DynamicType) (bounds : Nat)
  | mapType (name : String) (key value : DynamicType) (bounds : Nat)
  | structType (name : String) (members : List (String × DynamicType))
  | unionType (name : String) (discriminator : DynamicType)
      (members : List (String × DynamicType)) (cases : List UnionCase)
  deriving Repr, BEq

namespace DynamicType

def name : DynamicType → String
  | leafType n _ | bitsetType n | aliasType n _ | arrayType n _ _ | sequenceType n _ _
  | mapType n _ _ _ | structType n _ | unionType n _ _ _ => n

/-- `resolve_type`: an alias stands for the type it finally names. -/
def resolve : DynamicType → DynamicType
  | aliasType _ t => t.resolve
  | t => t

/-- `is_aggregation_type()`: of structures and unions only. -/
def isAggregation : DynamicType → Bool
  | structType _ _ | unionType _ _ _ _ => true
  | _ => false

def members : DynamicType → List (String × DynamicType)
  | structType _ ms | unionType _ _ ms _ => ms
  | _ => []

/-- `member(name).type()`, the declared type; `none` if there is no such member. -/
def member (t : DynamicType) (m : String) : Option DynamicType :=
  t.members.lookup m

mutual

def depth : DynamicType → Nat
  | leafType _ _ | bitsetType _ => 0
  | aliasType _ t => t.depth
  | arrayType _ t _ | sequenceType _ t _ => t.depth + 1
  | mapType _ k t _ => max k.depth t.depth + 1
  | structType _ ms => membersDepth ms + 1
  | unionType _ _ ms _ => membersDepth ms + 1

def membersDepth : List (String × DynamicType) → Nat
  | [] => 0
  | (_, t) :: ms => max t.depth (membersDepth ms)

end

@[simp] theorem depth_resolve (t : DynamicType) : t.resolve.depth = t.depth := by
  induction t using DynamicType.resolve.induct with
  | case1 n t ih =>
    rw [resolve, depth]
    exact ih
  | case2 t h =>
    rw [resolve]
    exact h

theorem depth_le_of_lookup {ms : List (String × DynamicType)} {m : String} {t : DynamicType}
    (h : ms.lookup m = some t) : t.depth ≤ membersDepth ms := by
  induction ms with
  | nil => cases h
  | cons head ms ih =>
    obtain ⟨n, u⟩ := head
    rw [List.lookup_cons] at h
    rw [membersDepth]
    split at h
    · cases h
      exact le_max_left _ _
    · exact le_trans (ih h) (le_max_right _ _)

theorem depth_member_lt {t mt : DynamicType} {m : String} (h : t.member m = some mt) :
    mt.depth < t.depth := by
  unfold member members at h
  split at h
  · have hle := depth_le_of_lookup h
    rw [depth]
    omega
  · have hle := depth_le_of_lookup h
    rw [depth]
    omega
  · cases h

/-- Induction over a type, with a hypothesis for the type of every member. -/
@[elab_as_elim]
theorem inductionOn {motive : DynamicType → Prop} (t : DynamicType)
    (leafType : ∀ n l, motive (leafType n l))
    (bitsetType : ∀ n, motive (bitsetType n))
    (aliasType : ∀ n t, motive t → motive (aliasType n t))
    (arrayType : ∀ n t d, motive t → motive (arrayType n t d))
    (sequenceType : ∀ n t b, motive t → motive (sequenceType n t b))
    (mapType : ∀ n k t b, motive k → motive t → motive (mapType n k t b))
    (structType : ∀ n ms, (∀ m ∈ ms, motive m.2) → motive (structType n ms))
    (unionType : ∀ n d ms cs, motive d → (∀ m ∈ ms, motive m.2) → motive (unionType n d ms cs)) :
    motive t :=
  @DynamicType.rec motive (fun ms => ∀ m ∈ ms, motive m.2) (fun m => motive m.2)
    leafType bitsetType aliasType arrayType sequenceType mapType structType unionType
    (List.forall_mem_nil _) (fun _ _ hm hms => List.forall_mem_cons.mpr ⟨hm, hms⟩)
    (fun _ _ h => h) t

@[simp] theorem resolve_resolve (t : DynamicType) : t.resolve.resolve = t.resolve := by
  induction t using DynamicType.resolve.induct with
  | case1 n t ih =>
    rw [resolve]
    exact ih
  | case2 t h =>
    have ht : t.resolve = t := by
      rw [resolve]
      exact h
    rw [ht, ht]

end DynamicType

/-! ## Values -/

/-- An instance of a type.  `list` is an array or a sequence; the members of a structure carry their
names; `union` has the discriminator, the name of the active case and its content. -/
inductive Value where
  | leaf (content : CppValue)
  | list (elements : List Value)
  | map (entries : List (Value × Value))
  | struct (fields : List (String × Value))
  | union (discriminator : Int) (case : String) (content : Value)
  deriving Repr

namespace Value

mutual

def equals : Value → Value → Bool
  | leaf a, leaf b => decide (a = b)
  | list vs, list ws => equalsAll vs ws
  | map es, map es' => equalsEntries es es'
  | struct fs, struct fs' => equalsFields fs fs'
  | union d c v, union d' c' v' => decide (d = d' ∧ c = c') && v.equals v'
  | _, _ => false

def equalsAll : List Value → List Value → Bool
  | [], [] => true
  | v :: vs, w :: ws => v.equals w && equalsAll vs ws
  | _, _ => false

def equalsEntries : List (Value × Value) → List (Value × Value) → Bool
  | [], [] => true
  | (k, v) :: es, (k', v') :: es' => k.equals k' && v.equals v' && equalsEntries es es'
  | _, _ => false

def equalsFields : List (String × Value) → List (String × Value) → Bool
  | [], [] => true
  | (m, v) :: fs, (m', v') :: fs' => decide (m = m') && v.equals v' && equalsFields fs fs'
  | _, _ => false

end

mutual

theorem equals_iff (v w : Value) : v.equals w = true ↔ v = w := by
  cases v <;> cases w <;> simp [equals]
  case list.list vs ws => exact equalsAll_iff vs ws
  case map.map es es' => exact equalsEntries_iff es es'
  case struct.struct fs fs' => exact equalsFields_iff fs fs'
  case union.union d c v d' c' v' => rw [equals_iff v v', and_assoc]

theorem equalsAll_iff (vs ws : List Value) : equalsAll vs ws = true ↔ vs = ws := by
  cases vs <;> cases ws <;> simp [equalsAll]
  case cons.cons v vs w ws => rw [equals_iff v w, equalsAll_iff vs ws]

theorem equalsEntries_iff (es es' : List (Value × Value)) :
    equalsEntries es es' = true ↔ es = es' := by
  match es, es' with
  | [], [] => simp [equalsEntries]
  | [], _ :: _ => simp [equalsEntries]
  | _ :: _, [] => simp [equalsEntries]
  | (k, v) :: es, (k', v') :: es' =>
    simp [equalsEntries, equals_iff k k', equals_iff v v', equalsEntries_iff es es']

theorem equalsFields_iff (fs fs' : List (String × Value)) :
    equalsFields fs fs' = true ↔ fs = fs' := by
  match fs, fs' with
  | [], [] => simp [equalsFields]
  | [], _ :: _ => simp [equalsFields]
  | _ :: _, [] => simp [equalsFields]
  | (m, v) :: fs, (m', v') :: fs' =>
    simp [equalsFields, equals_iff v v', equalsFields_iff fs fs']

end

instance : DecidableEq Value := fun v w => decidable_of_iff _ (equals_iff v w)

end Value

def Value.keysDistinct (es : List (Value × Value)) : Bool :=
  decide (es.map Prod.fst).Nodup

/-- What the xtypes library decides: the value of a fresh leaf; the discriminator and the active
case of a fresh union; the discriminator `operator[]` sets when it selects a case that is not
active; the types between which data may be assigned; and whether `value<T>` goes through on a leaf
that is stored as another C++ type of the same width, which is an error otherwise. -/
class Xtypes where
  defaultLeaf : LeafType → CppValue
  initialCase : DynamicType → Int × String
  selectLabel : DynamicType → String → Int
  assignable : DynamicType → DynamicType → Bool
  lenient : LeafType → CppType → Bool

/-- Data may be assigned within a type, and only between types of the same structure. -/
class LawfulXtypes [Xtypes] : Prop where
  assignable_self (t : DynamicType) : Xtypes.assignable t t = true
  depth_of_assignable (t u : DynamicType) : Xtypes.assignable t u = true → t.depth = u.depth

namespace DynamicType

mutual

/-- The value has the shape of an instance of the type.  How the discriminator of a union relates to
its active case is not part of it. -/
def admits : DynamicType → Value → Bool
  | leafType _ l, .leaf c => l.cppType.admits c
  -- a bitset has no members that this code gets at
  | bitsetType _, .struct [] => true
  | aliasType _ t, v => t.admits v
  | arrayType _ t n, .list vs => decide (vs.length = n) && vs.all t.admits
  | sequenceType _ t _, .list vs => vs.all t.admits
  | mapType _ k t _, .map es =>
      es.all (fun e => k.admits e.1 && t.admits e.2) && Value.keysDistinct es
  | structType _ ms, .struct fs => admitsFields ms fs
  | unionType _ _ ms _, .union _ c v => admitsCase ms c v
  | _, _ => false

def admitsFields : List (String × DynamicType) → List (String × Value) → Bool
  | [], [] => true
  | (m, t) :: ms, (n, v) :: fs => decide (m = n) && t.admits v && admitsFields ms fs
  | _, _ => false

def admitsCase : List (String × DynamicType) → String → Value → Bool
  | [], _, _ => false
  | (m, t) :: ms, c, v => if m = c then t.admits v else admitsCase ms c v

end

end DynamicType

variable [Xtypes]

namespace DynamicType

mutual

def default : DynamicType → Value
  | leafType _ l => .leaf (Xtypes.defaultLeaf l)
  | bitsetType _ => .struct []
  | aliasType _ t => t.default
  | arrayType _ t n => .list (List.replicate n t.default)
  | sequenceType _ _ _ => .list []
  | mapType _ _ _ _ => .map []
  | structType _ ms => .struct (defaultMembers ms)
  | unionType n d ms cs =>
      -- the case that is active at first is up to the library
      let initial := Xtypes.initialCase (unionType n d ms cs)
      .union initial.1 initial.2 (((defaultMembers ms).lookup initial.2).getD (.struct []))

def defaultMembers : List (String × DynamicType) → List (String × Value)
  | [] => []
  | (m, t) :: ms => (m, t.default) :: defaultMembers ms

end

end DynamicType

def CppType.sameWidth (T U : CppType) : Bool :=
  match T.bounds, U.bounds with
  | some (lo, hi), some (lo', hi') => decide (hi - lo = hi' - lo')
  | _, _ => false

namespace LeafType

/-- `value<T>()` is not an error on a leaf of this type. -/
def accessibleAs (l : LeafType) (T : CppType) : Bool :=
  decide (T = l.cppType) || Xtypes.lenient l T && l.cppType.sameWidth T

def valueAs (l : LeafType) (T : CppType) (v : CppValue) : Option CppValue :=
  if l.accessibleAs T then some (T.cast v) else none

/-- `data.value<T>(v)`, `push(v)` and `data = v`: the content of the leaf afterwards. -/
def storedAs (l : LeafType) (T : CppType) (v : CppValue) : Option CppValue :=
  if l.accessibleAs T then some (l.cppType.cast (T.cast v)) else none

end LeafType

namespace Value

/-- `data[m]` for a member `m` of declared type `mt`: `operator[]` on a union selects the case, so
one that is not active is found with a fresh content. -/
def field (mt : DynamicType) (m : String) : Value → Option Value
  | .struct fields => fields.lookup m
  -- another case is selected, and what was there is lost
  | .union _ c v => if c = m then some v else some mt.default
  | _ => none

def setField (fields : List (String × Value)) (m : String) (v : Value) : List (String × Value) :=
  match fields with
  | [] => []
  | (n, w) :: rest => if n = m then (n, v) :: rest else (n, w) :: setField rest m v

def withField (t : DynamicType) (data : Value) (m : String) (v : Value) : Value :=
  match data with
  | .struct fields => .struct (setField fields m v)
  | .union d c _ =>
      -- the discriminator changes only if another case is selected
      if c = m then .union d c v
      else .union (Xtypes.selectLabel t m) m v
  | other => other

theorem withField_active (t : DynamicType) (d : Int) (m : String) (v w : Value) :
    (union d m w).withField t m v = .union d m v := by
  show (if m = m then union d m v else .union (Xtypes.selectLabel t m) m v) = .union d m v
  rw [if_pos rfl]

theorem withField_select (t : DynamicType) (d : Int) {c m : String} (v w : Value) (h : c ≠ m) :
    (union d c w).withField t m v = .union (Xtypes.selectLabel t m) m v := by
  show (if c = m then union d c v else .union (Xtypes.selectLabel t m) m v) = _
  rw [if_neg h]

end Value

omit [Xtypes]

/-- The parameters as the library has them on the types of the examples: zero and empty leaves, a
union starts with the first label of its first case and selects a case by its first label, types
are told apart by their names, and an accessor for another C++ type is an error. -/
@[reducible] def firstLabelXtypes : Xtypes where
  defaultLeaf l :=
    if l.cppType.isReal then .real 0 else if l.cppType.isText then .text "" else .integral 0
  initialCase
    | .unionType _ _ ((m, _) :: _) (c :: _) => (c.labels.headD 0, m)
    | _ => (0, "")
  selectLabel t m :=
    match t with
    | .unionType _ _ ms cs =>
        (((ms.map Prod.fst).zip cs).lookup m).elim 0 fun c => c.labels.headD 0
    | _ => 0
  assignable t u := decide (t.name = u.name ∧ t.depth = u.depth)
  lenient _ _ := false

theorem lawful_firstLabelXtypes : @LawfulXtypes firstLabelXtypes :=
  @LawfulXtypes.mk firstLabelXtypes (fun _ => decide_eq_true ⟨rfl, rfl⟩)
    fun _ _ h => (of_decide_eq_true h).2

end FastDdsSh
