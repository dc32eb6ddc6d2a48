import FastDdsSh.Conversion.Aggregations
import FastDdsSh.Conversion.Arrays
import FastDdsSh.Conversion.Typing

/-!
# Types without their aliases

`get_array_specs` looks at the declared type of the content of an array, everything else resolves
aliases.  A type and the type without its aliases have the same builder, and are converted alike,
unless an array in it is declared with an alias of an array as its content.
-/

namespace FastDdsSh

open Lookup

namespace DynamicType

mutual

/-- The type with every alias replaced by the type that it finally names. -/
def dealias : DynamicType → DynamicType
  | leafType n l => leafType n l
  | bitsetType n => bitsetType n
  | aliasType _ t => t.dealias
  | arrayType n t d => arrayType n t.dealias d
  | sequenceType n t b => sequenceType n t.dealias b
  | mapType n k t b => mapType n k.dealias t.dealias b
  | structType n ms => structType n (dealiasMembers ms)
  | unionType n d ms cs => unionType n d.dealias (dealiasMembers ms) cs

def dealiasMembers : List (String × DynamicType) → List (String × DynamicType)
  | [] => []
  | (m, t) :: ms => (m, t.dealias) :: dealiasMembers ms

end

mutual

/-- No array that has a builder is declared with an alias of an array as its content. -/
def hasDirectArrays : DynamicType → Bool
  | leafType _ _ | bitsetType _ => true
  | aliasType _ t | sequenceType _ t _ => t.hasDirectArrays
  -- `get_array_specs` asks for the kind of the content, which is an alias type's own
  | arrayType _ t _ => t.getBuilder.isNone || !(t.isAlias && t.isArray) && t.hasDirectArrays
  | mapType _ k t _ =>
      k.getBuilder.isNone || t.getBuilder.isNone || k.hasDirectArrays && t.hasDirectArrays
  | structType _ ms => haveDirectArrays ms
  | unionType _ d ms _ => d.getBuilder.isNone || d.hasDirectArrays && haveDirectArrays ms

def haveDirectArrays : List (String × DynamicType) → Bool
  | [] => true
  | (_, t) :: ms => t.hasDirectArrays && haveDirectArrays ms

end

theorem hasDirectArrays_of_mem {ms : List (String × DynamicType)}
    (h : haveDirectArrays ms = true) {m : String × DynamicType} (hm : m ∈ ms) :
    m.2.hasDirectArrays = true := by
  apply Lookup.forall_of_check _ h hm
  intro m t ms
  rw [haveDirectArrays]

/-! Where the components have builders, the arrays in them are direct too. -/

theorem hasDirectArrays_arrayType {n : String} {t : DynamicType} {d : Nat} {T : DdsType}
    (hT : t.getBuilder = some T) (h : (arrayType n t d).hasDirectArrays = true) :
    (t.isAlias && t.isArray) = false ∧ t.hasDirectArrays = true := by
  rw [hasDirectArrays, hT, Option.isNone_some, Bool.false_or, Bool.and_eq_true,
    Bool.not_eq_true'] at h
  exact h

theorem hasDirectArrays_mapType {n : String} {k t : DynamicType} {b : Nat} {K V : DdsType}
    (hK : k.getBuilder = some K) (hV : t.getBuilder = some V)
    (h : (mapType n k t b).hasDirectArrays = true) :
    k.hasDirectArrays = true ∧ t.hasDirectArrays = true := by
  rw [hasDirectArrays, hK, hV, Option.isNone_some, Option.isNone_some, Bool.false_or,
    Bool.false_or, Bool.and_eq_true] at h
  exact h

theorem hasDirectArrays_unionType {n : String} {d : DynamicType}
    {ms : List (String × DynamicType)} {cs : List UnionCase} {D : DdsType}
    (hD : d.getBuilder = some D) (h : (unionType n d ms cs).hasDirectArrays = true) :
    d.hasDirectArrays = true ∧ haveDirectArrays ms = true := by
  rw [hasDirectArrays, hD, Option.isNone_some, Bool.false_or, Bool.and_eq_true] at h
  exact h

/-! ## Builders -/

theorem isArray_dealias (t : DynamicType) : t.dealias.isArray = t.isArray := by
  induction t using inductionOn with
  | aliasType n t ih => exact ih
  | leafType | bitsetType | arrayType | sequenceType | mapType | structType | unionType => rfl

/-- Without aliases an array is declared as one. -/
theorem exists_arrayType_of_isArray {t : DynamicType} (h : t.isArray = true) :
    ∃ n u d, t.dealias = arrayType n u d := by
  induction t using inductionOn with
  | aliasType n t ih => exact ih h
  | arrayType n t d ih => exact ⟨n, t.dealias, d, rfl⟩
  | leafType | bitsetType | sequenceType | mapType | structType | unionType => cases h

/-- The builder of an array whose content is declared as an array. -/
theorem getBuilder_array_array {n n' : String} {t : DynamicType} {d d' : Nat} :
    (arrayType n (arrayType n' t d') d).getBuilder =
      (arrayType n' t d').getBuilder.bind fun T =>
        match T with
        | .array E B => some (.array E (d :: B))
        | _ => none := by
  rw [getBuilder]
  cases h : (arrayType n' t d').getBuilder with
  | none => rfl
  | some T =>
    obtain ⟨B, E, -, rfl⟩ := arrayContent_of_getBuilder h
    rfl

/-- The builder of an array whose content is declared as something else. -/
theorem getBuilder_array_other {n : String} {t : DynamicType} {d : Nat}
    (h : ∀ n' u d', t ≠ arrayType n' u d') :
    (arrayType n t d).getBuilder = t.getBuilder.map fun T => .array T [d] := by
  rw [getBuilder]
  cases hbuilder : t.getBuilder with
  | none => cases t <;> rfl
  | some T =>
    cases t with
    | arrayType n' u d' => exact absurd rfl (h n' u d')
    | leafType | bitsetType | aliasType | sequenceType | mapType | structType | unionType => rfl

theorem isSome_getBuilder_arrayType (n : String) (t : DynamicType) (d : Nat) :
    (arrayType n t d).getBuilder.isSome = t.getBuilder.isSome := by
  rw [getBuilder, Option.isSome_map]
  cases h : t.getBuilder with
  | none => cases t <;> rfl
  | some T => exact getArraySpecs_isSome t T d

/-- Aliases do not decide whether there is a builder. -/
theorem isSome_getBuilder_dealias (t : DynamicType) :
    t.dealias.getBuilder.isSome = t.getBuilder.isSome := by
  induction t using inductionOn with
  | leafType n l => rfl
  | bitsetType n => rfl
  | aliasType n t ih => exact ih
  | arrayType n t d ih =>
    rw [dealias, isSome_getBuilder_arrayType, isSome_getBuilder_arrayType, ih]
  | sequenceType n t b ih =>
    rw [dealias, getBuilder, getBuilder, Option.isSome_map, Option.isSome_map, ih]
  | mapType n k t b ihk iht =>
    rw [dealias, getBuilder, getBuilder]
    cases hk : k.getBuilder with
    | none =>
      rw [hk, Option.isSome_none] at ihk
      have hk' : k.dealias.getBuilder = none := by
        rw [← Option.isNone_iff_eq_none, ← Option.not_isSome, ihk]
        rfl
      rw [hk']
      rfl
    | some K =>
      rw [hk, Option.isSome_some] at ihk
      obtain ⟨K', hK'⟩ := Option.isSome_iff_exists.mp ihk
      rw [hK', Option.bind_some, Option.bind_some, Option.isSome_map, Option.isSome_map, iht]
  -- members without a builder are left out, and the structure has one all the same
  | structType n ms ih => rfl
  | unionType n d ms cs ihd ih =>
    rw [dealias, getBuilder, getBuilder, Option.isSome_map, Option.isSome_map, ihd]

theorem getBuilder_dealias_eq_none_iff (t : DynamicType) :
    t.dealias.getBuilder = none ↔ t.getBuilder = none := by
  rw [← Option.isNone_iff_eq_none, ← Option.isNone_iff_eq_none, ← Option.not_isSome,
    ← Option.not_isSome, isSome_getBuilder_dealias]

theorem exists_getBuilder_dealias {t : DynamicType} {T : DdsType} (h : t.getBuilder = some T) :
    ∃ T', t.dealias.getBuilder = some T' := by
  rw [← Option.isSome_iff_exists, isSome_getBuilder_dealias, h]
  rfl

theorem hasDirectArrays_of_getBuilder_eq_none {t : DynamicType} (h : t.getBuilder = none) :
    t.hasDirectArrays = true := by
  induction t using inductionOn with
  | leafType n l => rfl
  | bitsetType n => rfl
  | aliasType n t ih => exact ih h
  | arrayType n t d ih =>
    have hnone : t.getBuilder.isNone = true := by
      rw [← Option.not_isSome, ← isSome_getBuilder_arrayType n t d, h]
      rfl
    rw [hasDirectArrays, hnone, Bool.true_or]
  | sequenceType n t b ih =>
    rw [getBuilder, Option.map_eq_none_iff] at h
    exact ih h
  | mapType n k t b ihk iht =>
    rw [getBuilder] at h
    rw [hasDirectArrays]
    cases hk : k.getBuilder with
    | none => rfl
    | some K =>
      rw [hk, Option.bind_some, Option.map_eq_none_iff] at h
      rw [h]
      rfl
  | structType n ms ih => cases h
  | unionType n d ms cs ihd ih =>
    rw [getBuilder, Option.map_eq_none_iff] at h
    rw [hasDirectArrays, h]
    rfl

theorem getMemberBuilders_dealias_iff {ms : List (String × DynamicType)}
    (ih : ∀ m ∈ ms, m.2.dealias.getBuilder = m.2.getBuilder ↔ m.2.hasDirectArrays = true) :
    getMemberBuilders (dealiasMembers ms) = getMemberBuilders ms ↔ haveDirectArrays ms = true := by
  induction ms with
  | nil => exact ⟨fun _ => rfl, fun _ => rfl⟩
  | cons head ms ihms =>
    obtain ⟨m, t⟩ := head
    have hhead : t.dealias.getBuilder = t.getBuilder ↔ t.hasDirectArrays = true :=
      ih _ List.mem_cons_self
    have hrest := ihms fun m hm => ih m (List.mem_cons_of_mem _ hm)
    rw [dealiasMembers, haveDirectArrays, Bool.and_eq_true, ← hhead, ← hrest, getMemberBuilders,
      getMemberBuilders]
    -- a member is left out of both lists or of neither
    cases ht : t.getBuilder with
    | none =>
      rw [(getBuilder_dealias_eq_none_iff t).mpr ht]
      simp
    | some T =>
      obtain ⟨T', hT'⟩ := exists_getBuilder_dealias ht
      rw [hT']
      simp

/-- Aliases do not decide which cases are added. -/
theorem getCaseDescriptors_dealias (ms : List (String × DynamicType)) (cs : List UnionCase) :
    getCaseDescriptors (dealiasMembers ms) cs = getCaseDescriptors ms cs := by
  induction ms generalizing cs with
  | nil => rfl
  | cons head ms ih =>
    obtain ⟨m, t⟩ := head
    cases cs with
    | nil => rfl
    | cons c cs =>
      rw [dealiasMembers, getCaseDescriptors, getCaseDescriptors, ih cs]
      cases ht : t.getBuilder with
      | none => rw [(getBuilder_dealias_eq_none_iff t).mpr ht]
      | some T =>
        obtain ⟨T', hT'⟩ := exists_getBuilder_dealias ht
        rw [hT']

/-- The builder of an array is the one without aliases exactly if that of its content is, and the
content is no alias of an array. -/
theorem getBuilder_arrayType_dealias_iff {n : String} {t : DynamicType} {d : Nat}
    (ih : t.dealias.getBuilder = t.getBuilder ↔ t.hasDirectArrays = true) :
    (arrayType n t d).dealias.getBuilder = (arrayType n t d).getBuilder ↔
      (arrayType n t d).hasDirectArrays = true := by
  rw [dealias, hasDirectArrays]
  cases ht : t.getBuilder with
  | none =>
    have hleft : (arrayType n t.dealias d).getBuilder = none := by
      rw [← Option.isNone_iff_eq_none, ← Option.not_isSome, isSome_getBuilder_arrayType,
        (getBuilder_dealias_eq_none_iff t).mpr ht]
      rfl
    have hright : (arrayType n t d).getBuilder = none := by
      rw [← Option.isNone_iff_eq_none, ← Option.not_isSome, isSome_getBuilder_arrayType, ht]
      rfl
    rw [hleft, hright]
    simp
  | some T =>
    obtain ⟨T', hT'⟩ := exists_getBuilder_dealias ht
    rw [hT', ht, Option.some_inj] at ih
    rw [Option.isNone_some, Bool.false_or, Bool.and_eq_true, ← ih, Bool.not_eq_true']
    by_cases harray : t.isArray = true
    · obtain ⟨n', u, d', hdealias⟩ := exists_arrayType_of_isArray harray
      have hT'' := hT'
      rw [hdealias] at hT''
      obtain ⟨B', E', -, rfl⟩ := arrayContent_of_getBuilder hT''
      have hleft : (arrayType n t.dealias d).getBuilder = some (.array E' (d :: d' :: B')) := by
        rw [hdealias, getBuilder_array_array, hT'']
        rfl
      rw [hleft, harray, Bool.and_true]
      -- an alias of an array gives an array of arrays, and its target one of more dimensions
      cases t with
      | aliasType n'' t =>
        rw [getBuilder_array_other (fun _ _ _ h => by cases h), ht]
        simp [isAlias]
      | arrayType n'' t d'' =>
        obtain ⟨B, E, -, rfl⟩ := arrayContent_of_getBuilder ht
        rw [getBuilder_array_array, ht]
        simp [isAlias]
      | leafType | bitsetType | sequenceType | mapType | structType | unionType => cases harray
    · rw [Bool.not_eq_true] at harray
      have hnot {u : DynamicType} (hu : u.isArray = false) : ∀ n' w d', u ≠ arrayType n' w d' := by
        rintro n' w d' rfl
        cases hu
      rw [getBuilder_array_other (hnot harray),
        getBuilder_array_other (hnot ((isArray_dealias t).trans harray)), ht, hT', harray]
      simp

/-- Without its aliases a type has the same builder exactly if its arrays are declared directly. -/
theorem getBuilder_dealias_iff (t : DynamicType) :
    t.dealias.getBuilder = t.getBuilder ↔ t.hasDirectArrays = true := by
  -- on the type; for a type without a builder both sides hold
  induction t using inductionOn with
  | leafType n l => exact ⟨fun _ => rfl, fun _ => rfl⟩
  | bitsetType n => exact ⟨fun _ => rfl, fun _ => rfl⟩
  | aliasType n t ih => exact ih
  | arrayType n t d ih => exact getBuilder_arrayType_dealias_iff ih
  | sequenceType n t b ih =>
    have hinjective : Function.Injective fun content => DdsType.sequence content b := by
      intro T T' h
      exact (DdsType.sequence.inj h).1
    rw [dealias, getBuilder, getBuilder, hasDirectArrays, ← ih]
    exact (Option.map_injective hinjective).eq_iff
  | mapType n k t b ihk iht =>
    rw [dealias, getBuilder, getBuilder, hasDirectArrays]
    cases hk : k.getBuilder with
    | none =>
      rw [(getBuilder_dealias_eq_none_iff k).mpr hk]
      simp
    | some K =>
      obtain ⟨K', hK'⟩ := exists_getBuilder_dealias hk
      cases ht : t.getBuilder with
      | none =>
        rw [(getBuilder_dealias_eq_none_iff t).mpr ht, hK']
        simp
      | some T =>
        obtain ⟨T', hT'⟩ := exists_getBuilder_dealias ht
        rw [Option.isNone_some, Option.isNone_some, Bool.false_or, Bool.false_or, Bool.and_eq_true,
          ← ihk, ← iht, hK', hT', hk, ht]
        simp
  | structType n ms ih =>
    rw [dealias, getBuilder, getBuilder, hasDirectArrays, ← getMemberBuilders_dealias_iff ih]
    simp
  | unionType n d ms cs ihd ih =>
    rw [dealias, getBuilder, getBuilder, hasDirectArrays]
    cases hd : d.getBuilder with
    | none =>
      rw [(getBuilder_dealias_eq_none_iff d).mpr hd]
      simp
    | some D =>
      obtain ⟨D', hD'⟩ := exists_getBuilder_dealias hd
      rw [Option.isNone_some, Bool.false_or, Bool.and_eq_true, ← getMemberBuilders_dealias_iff ih,
        ← ihd, hD', hd, getCaseDescriptors_dealias]
      simp

end DynamicType

/-! ## Places that suit a type -/

def Place.Suits (p : Place) (t : DynamicType) : Prop :=
  match p with
  | whole d => t.getBuilder = some d.type ∧ d.IsTyped
  | member d id _ | entry d id =>
      ∀ c, d.loanValue id = some c → t.getBuilder = some c.type ∧ c.IsTyped
  | key _ | arrayElement _ _ | sequenceElement _ _ => True

theorem DynamicType.exists_of_mem_getMemberBuilders {ms : List (String × DynamicType)}
    {m : String × DdsType} (h : m ∈ getMemberBuilders ms) :
    ∃ t, (m.1, t) ∈ ms ∧ t.getBuilder = some m.2 := by
  induction ms with
  | nil => cases h
  | cons head ms ih =>
    obtain ⟨n, t⟩ := head
    have hrest (h : m ∈ getMemberBuilders ms) :
        ∃ u, (m.1, u) ∈ (n, t) :: ms ∧ u.getBuilder = some m.2 := by
      obtain ⟨u, hu, hbuilder⟩ := ih h
      exact ⟨u, List.mem_cons_of_mem _ hu, hbuilder⟩
    rw [getMemberBuilders] at h
    cases ht : t.getBuilder with
    | none =>
      rw [ht] at h
      exact hrest h
    | some T =>
      rw [ht] at h
      rcases List.mem_cons.mp h with rfl | h
      · exact ⟨t, List.mem_cons_self, ht⟩
      · exact hrest h

/-- A member that is found by its name has the DDS type for its type; one without a builder is not
found. -/
theorem suits_member {ms : List (String × DynamicType)} (hnames : (ms.map Prod.fst).Nodup)
    {output : DdsData} (hmembers : output.type.members = DynamicType.getMemberBuilders ms)
    (htyped : output.IsTyped) {m : String} {t : DynamicType} (hm : (m, t) ∈ ms) (inUnion : Bool) :
    (Place.member output (output.getMemberIdByName m) inUnion).Suits t := by
  intro c hc
  rw [DdsData.isTyped_iff, hmembers] at htyped
  cases hid : output.getMemberIdByName m with
  | none =>
    rw [hid] at hc
    cases hc
  | some i =>
    rw [hid] at hc
    have hcomponent : output.components[i]? = some c := DdsData.component_of_loanValue hc
    rw [DdsData.getMemberIdByName, hmembers] at hid
    obtain ⟨hlt, hname⟩ := List.findIdx?_eq_some_iff_getElem.mp hid
    have hmember := List.getElem?_eq_getElem hlt
    obtain ⟨htype, hcTyped⟩ := DdsData.areTyped_getElem? htyped hmember hcomponent
    obtain ⟨u, hu, hbuilder⟩ :=
      DynamicType.exists_of_mem_getMemberBuilders (List.getElem_mem hlt)
    have hnameEq := of_decide_eq_true hname.1
    rw [hnameEq] at hu
    -- names are different, so the member of this name is the one of type `t`
    have hsame := lookup_of_mem hnames hu
    rw [lookup_of_mem hnames hm] at hsame
    cases hsame
    exact ⟨by rw [hbuilder, htype], hcTyped⟩

/-! ## What the library decides -/

/-- What the library decides about a union does not depend on the aliases in it. -/
class AliasBlindXtypes [Xtypes] : Prop where
  initialCase (t : DynamicType) :
    t.isAlias = false → Xtypes.initialCase t.dealias = Xtypes.initialCase t
  selectLabel (t : DynamicType) (m : String) :
    t.isAlias = false → Xtypes.selectLabel t.dealias m = Xtypes.selectLabel t m

variable [Xtypes]

theorem DynamicType.defaultMembers_dealias {ms : List (String × DynamicType)}
    (ih : ∀ m ∈ ms, m.2.dealias.default = m.2.default) :
    defaultMembers (dealiasMembers ms) = defaultMembers ms := by
  induction ms with
  | nil => rfl
  | cons head ms ihms =>
    obtain ⟨m, t⟩ := head
    have hhead : t.dealias.default = t.default := ih _ List.mem_cons_self
    rw [dealiasMembers, defaultMembers, defaultMembers, hhead,
      ihms fun m hm => ih m (List.mem_cons_of_mem _ hm)]

theorem DynamicType.default_dealias [AliasBlindXtypes] (t : DynamicType) :
    t.dealias.default = t.default := by
  induction t using inductionOn with
  | leafType n l => rfl
  | bitsetType n => rfl
  | aliasType n t ih => exact ih
  | arrayType n t d ih => rw [dealias, default, default, ih]
  | sequenceType n t b ih => rfl
  | mapType n k t b ihk iht => rfl
  | structType n ms ih => rw [dealias, default, default, defaultMembers_dealias ih]
  | unionType n d ms cs ihd ih =>
    have hinitial := AliasBlindXtypes.initialCase (unionType n d ms cs) rfl
    rw [dealias] at hinitial ⊢
    rw [default, default, defaultMembers_dealias ih, hinitial]

theorem Value.field_dealias [AliasBlindXtypes] (v : Value) (t : DynamicType) (m : String) :
    v.field t.dealias m = v.field t m := by
  cases v with
  | union d c w => rw [field, field, DynamicType.default_dealias]
  | leaf | list | map | struct => rfl

/-! ## From xtypes to DDS -/

variable [Dds]

namespace XtypesToFastdds

omit [Xtypes] in
/-- Only what a conversion does with data of the DDS type matters. -/
theorem setNested_congr {p : Place} {t : DynamicType} (hp : p.Suits t)
    {convert convert' : DdsData → Except Fault DdsData}
    (h : ∀ y, t.getBuilder = some y.type → y.IsTyped → convert y = convert' y) :
    setNested p t.getBuilder convert = setNested p t.getBuilder convert' := by
  cases p with
  | whole d => exact h d hp.1 hp.2
  | member d id _ | entry d id =>
    unfold setNested
    cases hloan : d.loanValue id with
    | none => simp only [hloan]
    | some c =>
      obtain ⟨htype, htyped⟩ := hp c hloan
      simp only [hloan, h c htype htyped]
  | key d | arrayElement d _ | sequenceElement d _ =>
    unfold setNested
    cases ht : t.getBuilder with
    | none => rfl
    | some T =>
      -- new data is of the type that the builder gives
      have hcreated := h T.createData (by rw [ht, DdsType.type_createData]) T.isTyped_createData
      simp only [hcreated]

omit [Xtypes] in
theorem setMapData_congr
    {setKey setKey' setEntry setEntry' : Value → DdsData → Except Fault DdsData}
    {K V : DdsType} (hkey : ∀ v, setKey v K.createData = setKey' v K.createData)
    (hentry : ∀ v, setEntry v V.createData = setEntry' v V.createData) (es : List (Value × Value))
    (output : DdsData) :
    setMapData setKey setEntry (some K) (some V) es output =
      setMapData setKey' setEntry' (some K) (some V) es output := by
  induction es generalizing output with
  | nil => rfl
  | cons e es ih =>
    obtain ⟨k, v⟩ := e
    unfold setMapData
    simp only [hkey, hentry, ih]

omit [Xtypes] [Dds] in
theorem setDiscriminator_dealias (d : DynamicType) (x : Int) (output : DdsData) :
    setDiscriminator d.dealias x output = setDiscriminator d x output := by
  induction d using DynamicType.inductionOn with
  | aliasType n t ih => exact ih
  | leafType | bitsetType | arrayType | sequenceType | mapType | structType | unionType => rfl

/-- The statement about a type: at the places that suit it, its aliases do not matter. -/
def EncodesDealiased (t : DynamicType) : Prop :=
  t.hasDirectArrays = true → t.hasDistinctNames = true → ∀ (v : Value) (p : Place), p.Suits t →
    encode t.dealias v p = encode t v p

theorem setStructData_dealias [AliasBlindXtypes] {all ms : List (String × DynamicType)}
    (hnames : (all.map Prod.fst).Nodup) (hsub : ∀ m ∈ ms, m ∈ all)
    (ih : ∀ m ∈ ms, EncodesDealiased m.2) (hdirect : DynamicType.haveDirectArrays ms = true)
    (hdistinct : DynamicType.haveDistinctNames ms = true) {output : DdsData}
    (hmembers : output.type.members = DynamicType.getMemberBuilders all) (htyped : output.IsTyped)
    (v : Value) :
    setStructData (DynamicType.dealiasMembers ms) v output = setStructData ms v output := by
  induction ms generalizing output with
  | nil => rfl
  | cons head ms ihms =>
    obtain ⟨m, t⟩ := head
    rw [DynamicType.haveDirectArrays, Bool.and_eq_true] at hdirect
    rw [DynamicType.haveDistinctNames, Bool.and_eq_true] at hdistinct
    rw [DynamicType.dealiasMembers, setStructData, setStructData, Value.field_dealias]
    cases v.field t m with
    | none => rfl
    | some w =>
      have hsuits := suits_member hnames hmembers htyped (hsub _ List.mem_cons_self) false
      have hfirst : encode t.dealias w (.member output (output.getMemberIdByName m) false) =
          encode t w (.member output (output.getMemberIdByName m) false) :=
        ih _ List.mem_cons_self hdirect.1 hdistinct.1 w _ hsuits
      simp only [hfirst]
      cases hencode : encode t w (.member output (output.getMemberIdByName m) false) with
      | error e => rfl
      | ok r =>
        -- converting a member leaves the types of the output as they are
        obtain ⟨htype, hkeeps⟩ := sameTyping_encode (p := .member output _ false) trivial hencode
        have htype' : r.type.members = DynamicType.getMemberBuilders all := by
          rw [htype]
          exact hmembers
        exact ihms (fun m hm => hsub m (List.mem_cons_of_mem _ hm))
          (fun m hm => ih m (List.mem_cons_of_mem _ hm)) hdirect.2 hdistinct.2 htype'
          (hkeeps htyped)

theorem setUnionData_dealias {all ms : List (String × DynamicType)}
    (hnames : (all.map Prod.fst).Nodup) (hsub : ∀ m ∈ ms, m ∈ all)
    (ih : ∀ m ∈ ms, EncodesDealiased m.2) (hdirect : DynamicType.haveDirectArrays ms = true)
    (hdistinct : DynamicType.haveDistinctNames ms = true) {output : DdsData}
    (hmembers : output.type.members = DynamicType.getMemberBuilders all) (htyped : output.IsTyped)
    (c : String) (w : Value) :
    setUnionData (DynamicType.dealiasMembers ms) c w output = setUnionData ms c w output := by
  induction ms with
  | nil => rfl
  | cons head ms ihms =>
    obtain ⟨m, t⟩ := head
    rw [DynamicType.haveDirectArrays, Bool.and_eq_true] at hdirect
    rw [DynamicType.haveDistinctNames, Bool.and_eq_true] at hdistinct
    rw [DynamicType.dealiasMembers, setUnionData, setUnionData]
    by_cases hm : m = c
    · rw [if_pos hm, if_pos hm, ← hm]
      exact ih _ List.mem_cons_self hdirect.1 hdistinct.1 w _
        (suits_member hnames hmembers htyped (hsub _ List.mem_cons_self) true)
    · rw [if_neg hm, if_neg hm]
      exact ihms (fun m hm => hsub m (List.mem_cons_of_mem _ hm))
        (fun m hm => ih m (List.mem_cons_of_mem _ hm)) hdirect.2 hdistinct.2

end XtypesToFastdds

namespace DynamicType

omit [Xtypes] [Dds] in
theorem hasDirectArrays_content {n : String} {t : DynamicType} {d : Nat}
    (h : (arrayType n t d).hasDirectArrays = true) : t.hasDirectArrays = true := by
  rw [hasDirectArrays, Bool.or_eq_true, Bool.and_eq_true] at h
  rcases h with h | h
  · exact hasDirectArrays_of_getBuilder_eq_none (Option.isNone_iff_eq_none.mp h)
  · exact h.2

end DynamicType

namespace XtypesToFastdds

/-- At the places that suit a type its aliases do not matter, if its arrays are declared directly.
-/
theorem encode_dealias [AliasBlindXtypes] (t : DynamicType) : EncodesDealiased t := by
  induction t using DynamicType.inductionOn with
  | leafType n l =>
    intro _ _ v p _
    rfl
  | bitsetType n =>
    intro _ _ v p _
    rfl
  | aliasType n t ih =>
    intro hdirect hnames v p hp
    have hp' : p.Suits t := by
      cases p <;> exact hp
    exact ih hdirect hnames v p hp'
  | arrayType n t d ih =>
    intro hdirect hnames v p hp
    have hbuilder := (DynamicType.getBuilder_dealias_iff (.arrayType n t d)).mpr hdirect
    have helement : (fun v output indexes => encode t.dealias v (.arrayElement output indexes)) =
        fun v output indexes => encode t v (.arrayElement output indexes) := by
      funext v output indexes
      exact ih (DynamicType.hasDirectArrays_content hdirect) hnames v (.arrayElement output indexes)
        trivial
    rw [DynamicType.dealias] at hbuilder ⊢
    cases v with
    | list vs =>
      cases p with
      | arrayElement output indexes => rw [encode, encode, helement]
      | whole | key | entry | member | sequenceElement =>
        rw [encode, encode, helement, hbuilder]
        all_goals rintro _ _ ⟨⟩
    | leaf | map | struct | union => rfl
  | sequenceType n t b ih =>
    intro hdirect hnames v p hp
    have hbuilder := (DynamicType.getBuilder_dealias_iff (.sequenceType n t b)).mpr hdirect
    have helement : (fun v output id => encode t.dealias v (.sequenceElement output id)) =
        fun v output id => encode t v (.sequenceElement output id) := by
      funext v output id
      exact ih hdirect hnames v (.sequenceElement output id) trivial
    rw [DynamicType.dealias] at hbuilder ⊢
    cases v with
    | list vs => rw [encode, encode, helement, hbuilder]
    | leaf | map | struct | union => rfl
  | mapType n k t b ihk iht =>
    intro hdirect hnames v p hp
    have hbuilder := (DynamicType.getBuilder_dealias_iff (.mapType n k t b)).mpr hdirect
    rw [DynamicType.dealias] at hbuilder ⊢
    cases v with
    | map es =>
      rw [encode, encode, hbuilder]
      -- a map has a builder only if its keys and its values have one
      refine setNested_congr hp fun y hy _ => ?_
      obtain ⟨K, hK, hT⟩ := Option.bind_eq_some_iff.mp hy
      obtain ⟨V, hV, -⟩ := Option.map_eq_some_iff.mp hT
      have hentries := DynamicType.hasDirectArrays_mapType hK hV hdirect
      rw [DynamicType.hasDistinctNames, Bool.and_eq_true] at hnames
      rw [(DynamicType.getBuilder_dealias_iff k).mpr hentries.1,
        (DynamicType.getBuilder_dealias_iff t).mpr hentries.2, hK, hV]
      apply setMapData_congr
      · intro v
        exact ihk hentries.1 hnames.1 v (.key K.createData) trivial
      · intro v
        apply iht hentries.2 hnames.2 v (.whole V.createData)
        exact ⟨by rw [hV, DdsType.type_createData], V.isTyped_createData⟩
    | leaf | list | struct | union => rfl
  | structType n ms ih =>
    intro hdirect hnames v p hp
    have hbuilder := (DynamicType.getBuilder_dealias_iff (.structType n ms)).mpr hdirect
    rw [DynamicType.hasDirectArrays] at hdirect
    rw [DynamicType.hasDistinctNames, Bool.and_eq_true, decide_eq_true_eq] at hnames
    rw [DynamicType.dealias] at hbuilder ⊢
    rw [encode, encode, hbuilder]
    refine setNested_congr hp fun y hy htyped => ?_
    have hmembers : y.type.members = DynamicType.getMemberBuilders ms := by
      rw [← Option.some.inj hy]
      rfl
    exact setStructData_dealias hnames.1 (fun m hm => hm) ih hdirect hnames.2 hmembers htyped v
  | unionType n d ms cs ihd ih =>
    intro hdirect hnames v p hp
    have hbuilder := (DynamicType.getBuilder_dealias_iff (.unionType n d ms cs)).mpr hdirect
    rw [DynamicType.dealias] at hbuilder ⊢
    cases v with
    | union x c w =>
      rw [encode, encode, hbuilder]
      refine setNested_congr hp fun y hy htyped => ?_
      obtain ⟨D, hD, hU⟩ := Option.map_eq_some_iff.mp hy
      have hcomponents := DynamicType.hasDirectArrays_unionType hD hdirect
      rw [DynamicType.hasDistinctNames, Bool.and_eq_true, Bool.and_eq_true,
        decide_eq_true_eq] at hnames
      obtain ⟨htype, hkeeps⟩ := sameTyping_setDiscriminator d x y
      have hmembers : (setDiscriminator d x y).type.members =
          DynamicType.getMemberBuilders ms := by
        rw [htype, ← hU]
        rfl
      rw [setDiscriminator_dealias]
      exact setUnionData_dealias hnames.1.2 (fun m hm => hm) ih hcomponents.2 hnames.2 hmembers
        (hkeeps htyped) c w
    | leaf | list | map | struct => rfl

end XtypesToFastdds

/-! ## From DDS to xtypes -/

namespace FastddsToXtypes

omit [Dds] in
theorem withField_dealias [AliasBlindXtypes] (t : DynamicType) (ht : t.isAlias = false)
    (data : Value) (m : String) (v : Value) :
    data.withField t.dealias m v = data.withField t m v := by
  cases data with
  | union d c w => rw [Value.withField, Value.withField, AliasBlindXtypes.selectLabel t m ht]
  | leaf | list | map | struct => rfl

theorem setMember_dealias [AliasBlindXtypes] (fuel : Nat) {t : DynamicType}
    (ht : t.isAlias = false) {ms : List (String × DynamicType)}
    (ih : ∀ m ∈ ms, ∀ (p : Place) (current : Value),
      decode fuel m.2.dealias p current = decode fuel m.2 p current) :
    setMember fuel t.dealias (DynamicType.dealiasMembers ms) = setMember fuel t ms := by
  funext name p output
  induction ms with
  | nil => rfl
  | cons head ms ihms =>
    obtain ⟨m, mt⟩ := head
    rw [DynamicType.dealiasMembers, setMember, setMember, Value.field_dealias]
    -- the member of this name is the only one that is converted
    by_cases hm : m = name
    · rw [if_pos hm, if_pos hm]
      have hdecode : ∀ current, decode fuel mt.dealias p current = decode fuel mt p current :=
        ih _ List.mem_cons_self p
      simp only [hdecode, withField_dealias t ht]
    · rw [if_neg hm, if_neg hm]
      exact ihms fun m hm => ih m (List.mem_cons_of_mem _ hm)

/-- The decoder does not look at aliases. -/
theorem decode_dealias [AliasBlindXtypes] (fuel : Nat) (t : DynamicType) (p : Place)
    (current : Value) : decode fuel t.dealias p current = decode fuel t p current := by
  -- on the type, for every place and whatever is there already
  induction t using DynamicType.inductionOn generalizing p current with
  | leafType n l => rfl
  | bitsetType n => rfl
  | aliasType n t ih => exact ih p current
  | arrayType n t d ih =>
    rw [DynamicType.dealias]
    cases current with
    | list output =>
      cases p with
      | arrayElement input indexes =>
        rw [decode, decode, DynamicType.default_dealias]
        simp only [ih]
      | whole | key | entry | member | sequenceElement =>
        rw [decode, decode, DynamicType.default_dealias]
        · simp only [ih]
        all_goals rintro _ _ ⟨⟩
    | leaf | map | struct | union => rfl
  | sequenceType n t b ih =>
    rw [DynamicType.dealias]
    cases current with
    | list output =>
      rw [decode, decode, DynamicType.default_dealias]
      simp only [ih]
    | leaf | map | struct | union => rfl
  | mapType n k t b ihk iht =>
    rw [DynamicType.dealias]
    cases current with
    | map output =>
      rw [decode, decode, DynamicType.default_dealias, DynamicType.default_dealias]
      simp only [ihk, iht]
    | leaf | list | struct | union => rfl
  | structType n ms ih =>
    have hset := setMember_dealias fuel (t := .structType n ms) rfl ih
    rw [DynamicType.dealias] at hset ⊢
    rw [decode, decode, hset]
  | unionType n d ms cs ihd ih =>
    have hset := setMember_dealias fuel (t := .unionType n d ms cs) rfl ih
    rw [DynamicType.dealias] at hset ⊢
    rw [decode, decode, hset]

end FastddsToXtypes

/-! ## Transparency -/

omit [Xtypes] [Dds] in
theorem DynamicType.isAggregation_dealias (t : DynamicType) :
    t.dealias.resolve.isAggregation = t.resolve.isAggregation := by
  induction t using inductionOn with
  | aliasType n t ih => exact ih
  | leafType | bitsetType | arrayType | sequenceType | mapType | structType | unionType => rfl

/-- A type and the type without its aliases have the same builder; into data of the DDS type both
convert every value alike, and from any data both read the same. -/
structure AliasTransparent (t : DynamicType) : Prop where
  builder : t.dealias.getBuilder = t.getBuilder
  encode : ∀ (v : Value) (output : DdsData), t.getBuilder = some output.type → output.IsTyped →
    xtypesToFastdds t.dealias v output = xtypesToFastdds t v output
  decode : ∀ (fuel : Nat) (input : DdsData) (output : Value),
    fastddsToXtypes fuel input t.dealias output = fastddsToXtypes fuel input t output

/-- Aliases are transparent exactly if no array that has a builder is declared with an alias of an
array as its content. -/
theorem aliasTransparent_iff [AliasBlindXtypes] {t : DynamicType}
    (hnames : t.hasDistinctNames = true) : AliasTransparent t ↔ t.hasDirectArrays = true := by
  constructor
  · intro h
    exact (DynamicType.getBuilder_dealias_iff t).mp h.builder
  · intro hdirect
    constructor
    · exact (DynamicType.getBuilder_dealias_iff t).mpr hdirect
    · intro v output htype htyped
      have hencode := XtypesToFastdds.encode_dealias t hdirect hnames v (.whole output)
        ⟨htype, htyped⟩
      -- the root is converted if it is a structure or a union, which no alias hides
      by_cases hroot : t.resolve.isAggregation = true
      · rw [xtypesToFastdds_of_isAggregation hroot,
          xtypesToFastdds_of_isAggregation ((DynamicType.isAggregation_dealias t).trans hroot),
          hencode]
      · rw [Bool.not_eq_true] at hroot
        rw [xtypesToFastdds_of_not_isAggregation hroot,
          xtypesToFastdds_of_not_isAggregation ((DynamicType.isAggregation_dealias t).trans hroot)]
    · intro fuel input output
      have hdecode := FastddsToXtypes.decode_dealias fuel t (.whole input) output
      by_cases hroot : t.resolve.isAggregation = true
      · rw [fastddsToXtypes_of_isAggregation hroot,
          fastddsToXtypes_of_isAggregation ((DynamicType.isAggregation_dealias t).trans hroot),
          hdecode]
      · rw [Bool.not_eq_true] at hroot
        rw [fastddsToXtypes_of_not_isAggregation hroot,
          fastddsToXtypes_of_not_isAggregation ((DynamicType.isAggregation_dealias t).trans hroot)]

omit [Xtypes] [Dds]

theorem DynamicType.map_fst_dealiasMembers (ms : List (String × DynamicType)) :
    (dealiasMembers ms).map Prod.fst = ms.map Prod.fst := by
  induction ms with
  | nil => rfl
  | cons head ms ih => rw [dealiasMembers, List.map_cons, List.map_cons, ih]

theorem aliasBlind_firstLabelXtypes : @AliasBlindXtypes firstLabelXtypes := by
  refine @AliasBlindXtypes.mk firstLabelXtypes (fun t ht => ?_) fun t m ht => ?_
  · cases t with
    | aliasType n t => cases ht
    | unionType n d ms cs => cases ms <;> cases cs <;> rfl
    | leafType | bitsetType | arrayType | sequenceType | mapType | structType => rfl
  · cases t with
    | aliasType n t => cases ht
    | unionType n d ms cs =>
      show Option.elim
        ((((DynamicType.dealiasMembers ms).map Prod.fst).zip cs).lookup m) 0 _ = _
      rw [DynamicType.map_fst_dealiasMembers]
      rfl
    | leafType | bitsetType | arrayType | sequenceType | mapType | structType => rfl

def trackType : DynamicType :=
  .structType "Track"
    [("id", .aliasType "Id" (.leafType "uint32" .uint32)),
      ("points", .sequenceType "Points"
        (.aliasType "Point" (.arrayType "array" (.leafType "int32" .int32) 2)) 0)]

theorem aliasTransparent_track :
    @AliasTransparent firstLabelXtypes zeroDds trackType :=
  (@aliasTransparent_iff firstLabelXtypes zeroDds aliasBlind_firstLabelXtypes trackType
    (by decide)).mpr (by decide)

def gridType : DynamicType :=
  .structType "Grid"
    [("cells", .arrayType "cells"
      (.aliasType "Row" (.arrayType "row" (.leafType "int32" .int32) 2)) 1)]

def gridValue : Value :=
  .struct [("cells", .list [.list [.leaf (.integral 1), .leaf (.integral 2)]])]

/-- The builder has an array of one array where it has one of two dimensions without the alias, and
nothing is stored in it. -/
theorem not_aliasTransparent_grid :
    (∃ T T', gridType.getBuilder = some T ∧ gridType.dealias.getBuilder = some T' ∧
      @xtypesToFastdds firstLabelXtypes zeroDds gridType gridValue (@DdsType.createData zeroDds T) =
        .ok (true, @DdsType.createData zeroDds T) ∧
      @xtypesToFastdds firstLabelXtypes zeroDds gridType.dealias gridValue
          (@DdsType.createData zeroDds T') =
        .ok (true, .composite T' [.composite (.array (.leaf (.primitive .int32)) [1, 2])
          [.leaf (.primitive .int32) (.integral 1), .leaf (.primitive .int32) (.integral 2)]])) ∧
      ¬ @AliasTransparent firstLabelXtypes zeroDds gridType := by
  refine ⟨⟨_, _, rfl, rfl, rfl, rfl⟩, ?_⟩
  intro h
  have hbuilder := @AliasTransparent.builder firstLabelXtypes zeroDds _ h
  cases hbuilder

end FastDdsSh
