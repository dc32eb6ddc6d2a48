import FastDdsSh.Lib.Lookup
import FastDdsSh.Conversion.Leaves

/-!
# What a value is made of

The leaves of a value with their positions, its unions, and the value that is left when every union
gets the discriminator that `operator[]` gives to it.
-/

namespace FastDdsSh

open Lookup

namespace DynamicType

/-! ## The types that are converted -/

/-- The alias-resolved type is one that `value<T>` applies to. -/
def isLeaf (t : DynamicType) : Bool :=
  match t.resolve with
  | leafType _ _ => true
  | _ => false

theorem resolve_of_isLeaf {t : DynamicType} (h : t.isLeaf = true) :
    ∃ n l, t.resolve = leafType n l := by
  unfold isLeaf at h
  split at h
  · rename_i n l ht
    exact ⟨n, l, ht⟩
  · cases h

def isArray (t : DynamicType) : Bool :=
  match t.resolve with
  | arrayType _ _ _ => true
  | _ => false

def isAlias : DynamicType → Bool
  | aliasType _ _ => true
  | _ => false

def isDiscriminator (d : DynamicType) : Bool :=
  match d.resolve with
  | leafType _ l => l.cppType.bounds.isSome
  | _ => false

mutual

/-- Built from leaves, structures, unions, arrays, sequences, maps from leaves, and aliases, an
alias of an array not being the element of an array; members have distinct names. -/
def isConvertible : DynamicType → Bool
  | leafType _ _ => true
  | bitsetType _ => false
  | aliasType _ t => t.isConvertible
  | arrayType _ t _ => t.isConvertible && !(t.isAlias && t.isArray)
  | sequenceType _ t _ => t.isConvertible
  | mapType _ k t _ => k.isLeaf && t.isConvertible
  | structType _ ms => decide (ms.map Prod.fst).Nodup && areConvertible ms
  | unionType _ d ms _ => d.isLeaf && decide (ms.map Prod.fst).Nodup && areConvertible ms

def areConvertible : List (String × DynamicType) → Bool
  | [] => true
  | (_, t) :: ms => t.isConvertible && areConvertible ms

end

mutual

def hasDistinctNames : DynamicType → Bool
  | leafType _ _ | bitsetType _ => true
  | aliasType _ t | arrayType _ t _ | sequenceType _ t _ => t.hasDistinctNames
  | mapType _ k t _ => k.hasDistinctNames && t.hasDistinctNames
  | structType _ ms => decide (ms.map Prod.fst).Nodup && haveDistinctNames ms
  | unionType _ d ms _ =>
      d.hasDistinctNames && decide (ms.map Prod.fst).Nodup && haveDistinctNames ms

def haveDistinctNames : List (String × DynamicType) → Bool
  | [] => true
  | (_, t) :: ms => t.hasDistinctNames && haveDistinctNames ms

end

theorem hasDistinctNames_of_mem {ms : List (String × DynamicType)}
    (h : haveDistinctNames ms = true) {m : String × DynamicType} (hm : m ∈ ms) :
    m.2.hasDistinctNames = true := by
  apply forall_of_check _ h hm
  intro m t ms
  rw [haveDistinctNames]

mutual

/-- Every component has a builder, and the names of members are distinct. -/
def isBuilt : DynamicType → Bool
  | leafType _ _ => true
  | bitsetType _ => false
  | aliasType _ t | arrayType _ t _ | sequenceType _ t _ => t.isBuilt
  | mapType _ k t _ => k.isBuilt && t.isBuilt
  | structType _ ms => decide (ms.map Prod.fst).Nodup && areBuilt ms
  | unionType _ d ms _ => d.isBuilt && decide (ms.map Prod.fst).Nodup && areBuilt ms

def areBuilt : List (String × DynamicType) → Bool
  | [] => true
  | (_, t) :: ms => t.isBuilt && areBuilt ms

end

theorem isBuilt_of_mem {ms : List (String × DynamicType)} (h : areBuilt ms = true)
    {m : String × DynamicType} (hm : m ∈ ms) : m.2.isBuilt = true := by
  apply forall_of_check _ h hm
  intro m t ms
  rw [areBuilt]

theorem getArraySpecs_isSome (t : DynamicType) (T : DdsType) (d : Nat) :
    (getArraySpecs t (some T) d).isSome = true := by
  unfold getArraySpecs
  split
  · rfl
  · rfl
  · rename_i h
    cases h

theorem getBuilder_isSome_of_isBuilt {t : DynamicType} (h : t.isBuilt = true) :
    t.getBuilder.isSome = true := by
  induction t using inductionOn with
  | leafType n l => rfl
  | bitsetType n => cases h
  | aliasType n t ih => exact ih h
  | arrayType n t d ih =>
    obtain ⟨T, hT⟩ := Option.isSome_iff_exists.mp (ih h)
    rw [getBuilder, hT, Option.isSome_map]
    exact getArraySpecs_isSome t T d
  | sequenceType n t b ih =>
    rw [getBuilder, Option.isSome_map]
    exact ih h
  | mapType n k t b ihk iht =>
    rw [isBuilt, Bool.and_eq_true] at h
    obtain ⟨K, hK⟩ := Option.isSome_iff_exists.mp (ihk h.1)
    rw [getBuilder, hK, Option.bind_some, Option.isSome_map]
    exact iht h.2
  | structType n ms ih => rfl
  | unionType n d ms cs ihd ih =>
    rw [isBuilt, Bool.and_eq_true, Bool.and_eq_true] at h
    rw [getBuilder, Option.isSome_map]
    exact ihd h.1.1

theorem getBuilder_isSome_of_areBuilt {ms : List (String × DynamicType)}
    (h : areBuilt ms = true) : ∀ m ∈ ms, m.2.getBuilder.isSome = true := by
  intro m hm
  exact getBuilder_isSome_of_isBuilt (isBuilt_of_mem h hm)

mutual

def isUnionFree : DynamicType → Bool
  | leafType _ _ | bitsetType _ => true
  | aliasType _ t | arrayType _ t _ | sequenceType _ t _ => t.isUnionFree
  | mapType _ k t _ => k.isUnionFree && t.isUnionFree
  | structType _ ms => areUnionFree ms
  | unionType _ _ _ _ => false

def areUnionFree : List (String × DynamicType) → Bool
  | [] => true
  | (_, t) :: ms => t.isUnionFree && areUnionFree ms

end

mutual

def width : DynamicType → Nat
  | leafType _ _ | bitsetType _ => 0
  | aliasType _ t | arrayType _ t _ | sequenceType _ t _ => t.width
  | mapType _ k t _ => max k.width t.width
  | structType _ ms => max ms.length (membersWidth ms)
  | unionType _ _ ms _ => membersWidth ms

def membersWidth : List (String × DynamicType) → Nat
  | [] => 0
  | (_, t) :: ms => max t.width (membersWidth ms)

end

/-! ## Leaves -/

mutual

def leaves : DynamicType → Position → Value → List (Position × LeafType)
  | leafType _ l, p, .leaf _ => [(p, l)]
  | aliasType _ t, p, v => t.leaves p v
  | arrayType _ t _, _, .list vs => vs.flatMap (t.leaves .arrayElement)
  | sequenceType _ t _, _, .list vs => vs.flatMap (t.leaves .sequenceElement)
  | mapType _ k t _, _, .map es =>
      es.flatMap fun e => k.leaves .entry e.1 ++ t.leaves .entry e.2
  | structType _ ms, _, .struct fields => leavesOfMembers ms fields
  | unionType _ _ ms _, _, .union _ c v => leavesOfCase ms c v
  | _, _, _ => []

def leavesOfMembers : List (String × DynamicType) → List (String × Value) →
    List (Position × LeafType)
  | (_, t) :: ms, (_, v) :: fields => t.leaves .member v ++ leavesOfMembers ms fields
  | _, _ => []

def leavesOfCase : List (String × DynamicType) → String → Value → List (Position × LeafType)
  | [], _, _ => []
  | (m, t) :: ms, c, v => if m = c then t.leaves .unionMember v else leavesOfCase ms c v

end

def readable [Xtypes] (t : DynamicType) (p : Position) (v : Value) : Bool :=
  (t.leaves p v).all fun o => o.2.readable o.1

def writable [Xtypes] (t : DynamicType) (p : Position) (v : Value) : Bool :=
  (t.leaves p v).all fun o => o.2.writable o.1

/-! ## Unions -/

mutual

def unions : DynamicType → Value → List (DynamicType × Int × String)
  | aliasType _ t, v => t.unions v
  | arrayType _ t _, .list vs | sequenceType _ t _, .list vs => vs.flatMap t.unions
  | mapType _ k t _, .map es => es.flatMap fun e => k.unions e.1 ++ t.unions e.2
  | structType _ ms, .struct fields => unionsOfMembers ms fields
  | unionType n d ms cs, .union x c v => (unionType n d ms cs, x, c) :: unionsOfCase ms c v
  | _, _ => []

def unionsOfMembers : List (String × DynamicType) → List (String × Value) →
    List (DynamicType × Int × String)
  | (_, t) :: ms, (_, v) :: fields => t.unions v ++ unionsOfMembers ms fields
  | _, _ => []

def unionsOfCase : List (String × DynamicType) → String → Value →
    List (DynamicType × Int × String)
  | [], _, _ => []
  | (m, t) :: ms, c, v => if m = c then t.unions v else unionsOfCase ms c v

end

variable [Xtypes]

/-- The discriminator of a fresh union once the case has been selected with `operator[]`: the one it
starts with if the case is active from the start. -/
def selectedDiscriminator (t : DynamicType) (c : String) : Int :=
  if (Xtypes.initialCase t).2 = c then (Xtypes.initialCase t).1 else Xtypes.selectLabel t c

mutual

/-- The value with every discriminator replaced by the one of the selected case. -/
def rebuilt : DynamicType → Value → Value
  | aliasType _ t, v => t.rebuilt v
  | arrayType _ t _, .list vs | sequenceType _ t _, .list vs => .list (vs.map t.rebuilt)
  | mapType _ k t _, .map es => .map (es.map fun e => (k.rebuilt e.1, t.rebuilt e.2))
  | structType _ ms, .struct fields => .struct (rebuiltMembers ms fields)
  | unionType n d ms cs, .union _ c v =>
      .union ((unionType n d ms cs).selectedDiscriminator c) c (rebuiltCase ms c v)
  | _, v => v

def rebuiltMembers : List (String × DynamicType) → List (String × Value) → List (String × Value)
  | (_, t) :: ms, (m, v) :: fields => (m, t.rebuilt v) :: rebuiltMembers ms fields
  | _, fields => fields

def rebuiltCase : List (String × DynamicType) → String → Value → Value
  | [], _, v => v
  | (m, t) :: ms, c, v => if m = c then t.rebuilt v else rebuiltCase ms c v

end

omit [Xtypes] in
theorem map_eq_self_iff {α : Type} {f : α → α} {l : List α} :
    l.map f = l ↔ ∀ a ∈ l, f a = a := by
  have h := @List.map_inj_left α α l f id
  rw [List.map_id] at h
  exact h

/-- Nothing changes exactly if every union has the discriminator of its selected case. -/
theorem rebuilt_eq_iff (t : DynamicType) (v : Value) :
    t.rebuilt v = v ↔ ∀ u ∈ t.unions v, u.2.1 = u.1.selectedDiscriminator u.2.2 := by
  induction t using inductionOn generalizing v with
  | leafType n l => simp [rebuilt, unions]
  | bitsetType n => simp [rebuilt, unions]
  | aliasType n t ih =>
    rw [rebuilt, unions]
    exact ih v
  | arrayType n t d ih | sequenceType n t d ih =>
    cases v with
    | list vs =>
      rw [rebuilt, unions, Value.list.injEq, map_eq_self_iff]
      simp only [ih, List.forall_mem_flatMap]
    | leaf | map | struct | union => simp [rebuilt, unions]
  | mapType n k t b ihk iht =>
    cases v with
    | map es =>
      rw [rebuilt, unions, Value.map.injEq, map_eq_self_iff]
      simp only [List.forall_mem_flatMap, List.forall_mem_append, ← ihk, ← iht, Prod.ext_iff]
    | leaf | list | struct | union => simp [rebuilt, unions]
  | structType n ms ih =>
    cases v with
    | struct fields =>
      rw [rebuilt, unions, Value.struct.injEq]
      induction ms generalizing fields with
      | nil => simp [rebuiltMembers, unionsOfMembers]
      | cons head ms ihms =>
        have hrest := ihms fun m hm => ih m (List.mem_cons_of_mem _ hm)
        cases fields with
        | nil => simp [rebuiltMembers, unionsOfMembers]
        | cons field fields =>
          rw [rebuiltMembers, unionsOfMembers, List.cons.injEq, Prod.ext_iff, hrest,
            ih head List.mem_cons_self, List.forall_mem_append]
          simp
    | leaf | list | map | union => simp [rebuilt, unions]
  | unionType n d ms cs _ ih =>
    cases v with
    | union x c w =>
      have hcase : rebuiltCase ms c w = w ↔
          ∀ u ∈ unionsOfCase ms c w, u.2.1 = u.1.selectedDiscriminator u.2.2 := by
        clear x
        induction ms with
        | nil => simp [rebuiltCase, unionsOfCase]
        | cons head ms ihms =>
          rw [rebuiltCase, unionsOfCase]
          by_cases hc : head.1 = c
          · rw [if_pos hc, if_pos hc]
            exact ih head List.mem_cons_self w
          · rw [if_neg hc, if_neg hc]
            exact ihms fun m hm => ih m (List.mem_cons_of_mem _ hm)
      rw [rebuilt, unions, Value.union.injEq, List.forall_mem_cons, hcase]
      simp [eq_comm]
    | leaf | list | map | struct => simp [rebuilt, unions]

omit [Xtypes] in
theorem unions_of_isUnionFree {t : DynamicType} (h : t.isUnionFree = true) (v : Value) :
    t.unions v = [] := by
  induction t using inductionOn generalizing v with
  | leafType n l => simp [unions]
  | bitsetType n => simp [unions]
  | aliasType n t ih =>
    rw [unions]
    exact ih h v
  | arrayType n t d ih | sequenceType n t d ih =>
    cases v with
    | list vs =>
      rw [unions, List.flatMap_eq_nil_iff]
      exact fun w _ => ih h w
    | leaf | map | struct | union => simp [unions]
  | mapType n k t b ihk iht =>
    rw [isUnionFree, Bool.and_eq_true] at h
    cases v with
    | map es =>
      rw [unions, List.flatMap_eq_nil_iff]
      intro e _
      rw [ihk h.1, iht h.2, List.append_nil]
    | leaf | list | struct | union => simp [unions]
  | structType n ms ih =>
    cases v with
    | struct fields =>
      rw [unions]
      rw [isUnionFree] at h
      induction ms generalizing fields with
      | nil => simp [unionsOfMembers]
      | cons head ms ihms =>
        rw [areUnionFree, Bool.and_eq_true] at h
        cases fields with
        | nil => simp [unionsOfMembers]
        | cons field fields =>
          rw [unionsOfMembers, ih head List.mem_cons_self h.1, List.nil_append]
          exact ihms (fun m hm => ih m (List.mem_cons_of_mem _ hm)) h.2 fields
    | leaf | list | map | union => simp [unions]
  | unionType n d ms cs => cases h

/-- Without unions nothing is rebuilt. -/
theorem rebuilt_of_isUnionFree {t : DynamicType} (h : t.isUnionFree = true) (v : Value) :
    t.rebuilt v = v := by
  rw [rebuilt_eq_iff, unions_of_isUnionFree h]
  exact List.forall_mem_nil _

end DynamicType

end FastDdsSh
