import FastDdsSh.Conversion.Aliases

/-!
# Types with a counterpart for every component

`get_builder` hands a null builder on to the factory, which refuses it, or to `add_member`, whose
result is ignored.  A bitset is thus reported where the way to it leads through aliases, elements,
keys and values alone; as a member of a structure or a union it is left out without notice.
-/

namespace FastDdsSh

def DdsLeaf.sameKind : DdsLeaf → DdsLeaf → Bool
  | .primitive k, .primitive k' => k = k'
  | .string8 _, .string8 _ | .string16 _, .string16 _ | .enum _ _, .enum _ _ => true
  | _, _ => false

theorem DdsLeaf.sameKind_refl (l : DdsLeaf) : l.sameKind l = true := by
  cases l with
  | primitive k => exact decide_eq_true rfl
  | string8 | string16 | enum => rfl

/-- The labels are among those of the DDS case, and it is the default one likewise. -/
def UnionCase.isKeptIn (c : UnionCase) (C : List Nat × Bool) : Bool :=
  c.descriptor.1.all (C.1.contains ·) && C.2 == c.isDefault

theorem UnionCase.isKeptIn_descriptor (c : UnionCase) : c.isKeptIn c.descriptor = true := by
  rw [isKeptIn, Bool.and_eq_true, List.all_eq_true]
  exact ⟨fun label hlabel => List.contains_iff_mem.mpr hlabel, beq_self_eq_true _⟩

namespace DynamicType

/-- The content of an array is declared as an array, whose dimensions `get_array_specs` adds. -/
def isDirectArray : DynamicType → Bool
  | arrayType _ _ _ => true
  | _ => false

/-- The DDS type has, at every depth, a component of the corresponding kind for every component. -/
inductive DescribedBy : DynamicType → DdsType → Prop where
  | leafType {n l L} (h : (l.getBuilder n).sameKind L = true) : DescribedBy (leafType n l) (.leaf L)
  | aliasType {n t T} (h : DescribedBy t T) : DescribedBy (aliasType n t) T
  | arrayType {n t d T} (ht : t.isDirectArray = false) (h : DescribedBy t T) :
      DescribedBy (arrayType n t d) (.array T [d])
  | arrayOfArrays {n t d T bounds} (ht : t.isDirectArray = true)
      (h : DescribedBy t (.array T bounds)) : DescribedBy (arrayType n t d) (.array T (d :: bounds))
  | sequenceType {n t b T b'} (h : DescribedBy t T) :
      DescribedBy (sequenceType n t b) (.sequence T b')
  | mapType {n k t b K T b'} (hk : DescribedBy k K) (ht : DescribedBy t T) :
      DescribedBy (mapType n k t b) (.map K T b')
  | structType {n ms Ms} (counterpart : String × DynamicType → DdsType)
      (hmem : ∀ m ∈ ms, (m.1, counterpart m) ∈ Ms)
      (h : ∀ m ∈ ms, DescribedBy m.2 (counterpart m)) : DescribedBy (structType n ms) (.struct Ms)
  | unionType {n d ms cs D Ms Cs} (hd : DescribedBy d D)
      (counterpart : (String × DynamicType) × UnionCase → DdsType)
      (hmem : ∀ p ∈ ms.zip cs, ∃ C, ((p.1.1, counterpart p), C) ∈ Ms.zip Cs ∧
        p.2.isKeptIn C = true)
      (h : ∀ p ∈ ms.zip cs, DescribedBy p.1.2 (counterpart p)) :
      DescribedBy (unionType n d ms cs) (.union D Ms Cs)

inductive HasComponent : DynamicType → DynamicType → Prop where
  | refl {t} : HasComponent t t
  | target {n t c} (h : HasComponent t c) : HasComponent (aliasType n t) c
  | arrayElement {n t d c} (h : HasComponent t c) : HasComponent (arrayType n t d) c
  | element {n t b c} (h : HasComponent t c) : HasComponent (sequenceType n t b) c
  | key {n k t b c} (h : HasComponent k c) : HasComponent (mapType n k t b) c
  | value {n k t b c} (h : HasComponent t c) : HasComponent (mapType n k t b) c
  | member {n ms m c} (hm : m ∈ ms) (h : HasComponent m.2 c) : HasComponent (structType n ms) c
  | discriminator {n d ms cs c} (h : HasComponent d c) : HasComponent (unionType n d ms cs) c
  | case {n d ms cs p c} (hp : p ∈ ms.zip cs) (h : HasComponent p.1.2 c) :
      HasComponent (unionType n d ms cs) c

def leadsToBitset : DynamicType → Bool
  | bitsetType _ => true
  | aliasType _ t | arrayType _ t _ | sequenceType _ t _ => t.leadsToBitset
  | mapType _ k t _ => k.leadsToBitset || t.leadsToBitset
  | unionType _ d _ _ => d.leadsToBitset
  | leafType _ _ | structType _ _ => false

mutual

/-- Every component of the first type has one of its kind in the second, and is no bitset. -/
def agrees : DynamicType → DynamicType → Bool
  | leafType n l, u =>
      match u.resolve with
      | leafType n' l' => (l.getBuilder n).sameKind (l'.getBuilder n')
      | _ => false
  | bitsetType _, _ => false
  | aliasType _ t, u => t.agrees u
  | arrayType _ t d, u =>
      match u.resolve with
      | arrayType _ t' d' => d == d' && t.isDirectArray == t'.isDirectArray && t.agrees t'
      | _ => false
  | sequenceType _ t _, u =>
      match u.resolve with
      | sequenceType _ t' _ => t.agrees t'
      | _ => false
  | mapType _ k t _, u =>
      match u.resolve with
      | mapType _ k' t' _ => k.agrees k' && t.agrees t'
      | _ => false
  | structType _ ms, u =>
      match u.resolve with
      | structType _ ms' => membersAgree ms ms'
      | _ => false
  | unionType _ d ms cs, u =>
      match u.resolve with
      | unionType _ d' ms' cs' => d.agrees d' && casesAgree ms cs (ms'.zip cs')
      | _ => false

def membersAgree : List (String × DynamicType) → List (String × DynamicType) → Bool
  | [], _ => true
  | (m, t) :: ms, ms' => ms'.any (fun m' => m'.1 == m && t.agrees m'.2) && membersAgree ms ms'

def casesAgree : List (String × DynamicType) → List UnionCase →
    List ((String × DynamicType) × UnionCase) → Bool
  | (m, t) :: ms, c :: cs, ps =>
      ps.any (fun p => p.1.1 == m && t.agrees p.1.2 && c.isKeptIn p.2.descriptor) &&
        casesAgree ms cs ps
  | _, _, _ => true

end

/-! ## What a builder was made from -/

def Resolves (u : DynamicType) : DdsType → Prop
  | .leaf L => ∃ n l, u.resolve = leafType n l ∧ L = l.getBuilder n
  | .array E B => ∃ n t d, u.resolve = arrayType n t d ∧
      (arrayType n t d).getBuilder = some (.array E B)
  | .sequence E b => ∃ n t, u.resolve = sequenceType n t b ∧ t.getBuilder = some E
  | .map K E b => ∃ n k t, u.resolve = mapType n k t b ∧ k.getBuilder = some K ∧
      t.getBuilder = some E
  | .struct Ms => ∃ n ms, u.resolve = structType n ms ∧ Ms = getMemberBuilders ms
  | .union D Ms Cs => ∃ n d ms cs, u.resolve = unionType n d ms cs ∧ d.getBuilder = some D ∧
      Ms = getMemberBuilders ms ∧ Cs = getCaseDescriptors ms cs

theorem resolves_of_getBuilder {u : DynamicType} {T : DdsType} (h : u.getBuilder = some T) :
    u.Resolves T := by
  induction u using inductionOn generalizing T with
  | leafType n l =>
    cases h
    exact ⟨n, l, rfl, rfl⟩
  | bitsetType n => cases h
  | aliasType n t ih =>
    have hT := ih h
    cases T <;> exact hT
  | arrayType n t d ih =>
    obtain ⟨B, E, -, rfl⟩ := arrayContent_of_getBuilder h
    exact ⟨n, t, d, rfl, h⟩
  | sequenceType n t b ih =>
    obtain ⟨E, hE, rfl⟩ := Option.map_eq_some_iff.mp h
    exact ⟨n, t, rfl, hE⟩
  | mapType n k t b ihk iht =>
    obtain ⟨K, hK, hT⟩ := Option.bind_eq_some_iff.mp h
    obtain ⟨E, hE, rfl⟩ := Option.map_eq_some_iff.mp hT
    exact ⟨n, k, t, rfl, hK, hE⟩
  | structType n ms ih =>
    cases h
    exact ⟨n, ms, rfl, rfl⟩
  | unionType n d ms cs ihd ih =>
    obtain ⟨D, hD, rfl⟩ := Option.map_eq_some_iff.mp h
    exact ⟨n, d, ms, cs, rfl, hD, rfl, rfl⟩

theorem getBuilder_resolve (u : DynamicType) : u.resolve.getBuilder = u.getBuilder := by
  induction u using DynamicType.resolve.induct with
  | case1 n t ih =>
    rw [resolve, getBuilder]
    exact ih
  | case2 t h =>
    rw [resolve]
    exact h

theorem getBuilder_eq_none_iff (u : DynamicType) :
    u.getBuilder = none ↔ u.leadsToBitset = true := by
  induction u using inductionOn with
  | leafType n l => simp [getBuilder, leadsToBitset]
  | bitsetType n => simp [getBuilder, leadsToBitset]
  | aliasType n t ih => exact ih
  | arrayType n t d ih =>
    rw [leadsToBitset, ← ih, ← Option.isNone_iff_eq_none, ← Option.isNone_iff_eq_none,
      ← Option.not_isSome, ← Option.not_isSome, isSome_getBuilder_arrayType]
  | sequenceType n t b ih => rw [getBuilder, leadsToBitset, Option.map_eq_none_iff, ih]
  | mapType n k t b ihk iht =>
    rw [getBuilder, leadsToBitset, Bool.or_eq_true, ← ihk, ← iht]
    cases k.getBuilder with
    | none => simp
    | some K => simp
  | structType n ms ih => simp [getBuilder, leadsToBitset]
  | unionType n d ms cs ihd ih => rw [getBuilder, leadsToBitset, Option.map_eq_none_iff, ihd]

theorem mem_getMemberBuilders_iff {ms : List (String × DynamicType)} {m : String} {T : DdsType} :
    (m, T) ∈ getMemberBuilders ms ↔ ∃ m' ∈ ms, m'.1 = m ∧ m'.2.getBuilder = some T := by
  induction ms with
  | nil => simp [getMemberBuilders]
  | cons head ms ih =>
    obtain ⟨n, t⟩ := head
    rw [getMemberBuilders]
    -- `add_member` leaves a member out if its builder is null
    cases ht : t.getBuilder with
    | none => simp [ih, ht]
    | some U => simp [ih, ht, eq_comm]

theorem mem_zip_getCaseDescriptors_iff {ms : List (String × DynamicType)} {cs : List UnionCase}
    {m : String} {T : DdsType} {C : List Nat × Bool} :
    ((m, T), C) ∈ (getMemberBuilders ms).zip (getCaseDescriptors ms cs) ↔
      ∃ p ∈ ms.zip cs, p.1.1 = m ∧ p.1.2.getBuilder = some T ∧ p.2.descriptor = C := by
  induction ms generalizing cs with
  | nil => simp [getMemberBuilders]
  | cons head ms ih =>
    obtain ⟨n, t⟩ := head
    cases cs with
    | nil => simp [getCaseDescriptors]
    | cons c cs =>
      rw [getMemberBuilders, getCaseDescriptors]
      -- the labels go with the members that are left
      cases ht : t.getBuilder with
      | none => simp [ih, ht]
      | some U => simp [ih, ht, eq_comm, and_assoc]

theorem membersAgree_iff {ms ms' : List (String × DynamicType)} :
    membersAgree ms ms' = true ↔
      ∀ m ∈ ms, ∃ m' ∈ ms', m'.1 = m.1 ∧ m.2.agrees m'.2 = true := by
  induction ms with
  | nil => simp [membersAgree]
  | cons head ms ih =>
    obtain ⟨n, t⟩ := head
    rw [membersAgree, Bool.and_eq_true, ih, List.any_eq_true, List.forall_mem_cons]
    simp only [Bool.and_eq_true, beq_iff_eq]

theorem casesAgree_iff {ms : List (String × DynamicType)} {cs : List UnionCase}
    {ps : List ((String × DynamicType) × UnionCase)} :
    casesAgree ms cs ps = true ↔
      ∀ p ∈ ms.zip cs, ∃ p' ∈ ps, (p'.1.1 = p.1.1 ∧ p.1.2.agrees p'.1.2 = true) ∧
        p.2.isKeptIn p'.2.descriptor = true := by
  induction ms generalizing cs with
  | nil => simp [casesAgree]
  | cons head ms ih =>
    obtain ⟨n, t⟩ := head
    cases cs with
    | nil => simp [casesAgree]
    | cons c cs =>
      rw [casesAgree, Bool.and_eq_true, ih, List.any_eq_true, List.zip_cons_cons,
        List.forall_mem_cons]
      simp only [Bool.and_eq_true, beq_iff_eq]

theorem ne_arrayType_of_isDirectArray {t : DynamicType} (h : t.isDirectArray = false) (n : String)
    (u : DynamicType) (d : Nat) : t ≠ arrayType n u d := by
  intro ht
  rw [ht] at h
  cases h

/-- The dimensions of a content declared as an array follow the one of the array. -/
theorem getBuilder_arrayType_of_isDirectArray {n : String} {t : DynamicType} {d : Nat}
    (h : t.isDirectArray = true) : (arrayType n t d).getBuilder =
      t.getBuilder.bind fun T =>
        match T with
        | .array E B => some (.array E (d :: B))
        | _ => none := by
  cases t with
  | arrayType n' u d' => exact getBuilder_array_array
  | leafType | bitsetType | aliasType | sequenceType | mapType | structType | unionType => cases h

theorem exists_bounds_of_isDirectArray {t : DynamicType} {T : DdsType} (h : t.isDirectArray = true)
    (hT : t.getBuilder = some T) : ∃ E d B, T = .array E (d :: B) := by
  cases t with
  | arrayType n u d =>
    obtain ⟨B, E, -, rfl⟩ := arrayContent_of_getBuilder hT
    exact ⟨E, d, B, rfl⟩
  | leafType | bitsetType | aliasType | sequenceType | mapType | structType | unionType => cases h

/-- The two shapes of an array builder. -/
theorem getBuilder_arrayType_eq_some {n : String} {t : DynamicType} {d : Nat} {E : DdsType}
    {B : List Nat} (h : (arrayType n t d).getBuilder = some (.array E B)) :
    (t.isDirectArray = true ∧ ∃ e bounds, B = d :: e :: bounds ∧
        t.getBuilder = some (.array E (e :: bounds))) ∨
      (t.isDirectArray = false ∧ B = [d] ∧ t.getBuilder = some E) := by
  -- what the array is declared to contain decides, not what that is an alias of
  cases hdirect : t.isDirectArray with
  | true =>
    rw [getBuilder_arrayType_of_isDirectArray hdirect] at h
    obtain ⟨T, hT, hB⟩ := Option.bind_eq_some_iff.mp h
    obtain ⟨E', e, bounds, rfl⟩ := exists_bounds_of_isDirectArray hdirect hT
    cases hB
    exact .inl ⟨rfl, e, bounds, rfl, hT⟩
  | false =>
    rw [getBuilder_array_other (ne_arrayType_of_isDirectArray hdirect)] at h
    obtain ⟨T, hT, hB⟩ := Option.map_eq_some_iff.mp h
    cases hB
    exact .inr ⟨rfl, rfl, hT⟩

/-! ## What the builder of a type describes -/

theorem exists_describedBy_of_agrees {t u : DynamicType} (h : t.agrees u = true) :
    ∃ T, u.getBuilder = some T ∧ t.DescribedBy T := by
  -- on the described type, for every type that has been built
  induction t using inductionOn generalizing u with
  | leafType n l =>
    rw [agrees] at h
    split at h
    · rename_i n' l' hu
      refine ⟨.leaf (l'.getBuilder n'), ?_, .leafType h⟩
      rw [← getBuilder_resolve, hu, getBuilder]
    · cases h
  | bitsetType n => cases h
  | aliasType n t ih =>
    obtain ⟨T, hT, hdescribed⟩ := ih h
    exact ⟨T, hT, .aliasType hdescribed⟩
  | arrayType n t d ih =>
    rw [agrees] at h
    split at h
    · rename_i n' t' d' hu
      rw [Bool.and_eq_true, Bool.and_eq_true, beq_iff_eq, beq_iff_eq] at h
      obtain ⟨⟨rfl, hdirect⟩, ht⟩ := h
      obtain ⟨T, hT, hdescribed⟩ := ih ht
      rw [← getBuilder_resolve, hu]
      -- the dimensions are put together only where both contents are declared as arrays
      cases hdirect' : t'.isDirectArray with
      | true =>
        obtain ⟨E, e, B, rfl⟩ := exists_bounds_of_isDirectArray hdirect' hT
        rw [getBuilder_arrayType_of_isDirectArray hdirect', hT]
        exact ⟨_, rfl, .arrayOfArrays (hdirect.trans hdirect') hdescribed⟩
      | false =>
        rw [getBuilder_array_other (ne_arrayType_of_isDirectArray hdirect'), hT]
        exact ⟨_, rfl, .arrayType (hdirect.trans hdirect') hdescribed⟩
    · cases h
  | sequenceType n t b ih =>
    rw [agrees] at h
    split at h
    · rename_i n' t' b' hu
      obtain ⟨T, hT, hdescribed⟩ := ih h
      rw [← getBuilder_resolve, hu, getBuilder, hT]
      exact ⟨_, rfl, .sequenceType hdescribed⟩
    · cases h
  | mapType n k t b ihk iht =>
    rw [agrees] at h
    split at h
    · rename_i n' k' t' b' hu
      rw [Bool.and_eq_true] at h
      obtain ⟨K, hK, hkey⟩ := ihk h.1
      obtain ⟨T, hT, hvalue⟩ := iht h.2
      rw [← getBuilder_resolve, hu, getBuilder, hK, hT]
      exact ⟨_, rfl, .mapType hkey hvalue⟩
    · cases h
  | structType n ms ih =>
    rw [agrees] at h
    split at h
    · rename_i n' ms' hu
      have hmembers : ∀ m ∈ ms, ∃ T, (m.1, T) ∈ getMemberBuilders ms' ∧ m.2.DescribedBy T := by
        intro m hm
        obtain ⟨m', hm', hname, hagrees⟩ := membersAgree_iff.mp h m hm
        obtain ⟨T, hT, hdescribed⟩ := ih m hm hagrees
        exact ⟨T, mem_getMemberBuilders_iff.mpr ⟨m', hm', hname, hT⟩, hdescribed⟩
      have : Nonempty DdsType := ⟨.struct []⟩
      choose! counterpart hcounterpart using hmembers
      rw [← getBuilder_resolve, hu, getBuilder]
      exact ⟨_, rfl, .structType counterpart (fun m hm => (hcounterpart m hm).1)
        fun m hm => (hcounterpart m hm).2⟩
    · cases h
  | unionType n d ms cs ihd ih =>
    rw [agrees] at h
    split at h
    · rename_i n' d' ms' cs' hu
      rw [Bool.and_eq_true] at h
      obtain ⟨D, hD, hdiscriminator⟩ := ihd h.1
      have hcases : ∀ p ∈ ms.zip cs, ∃ T, (∃ C, ((p.1.1, T), C) ∈
          (getMemberBuilders ms').zip (getCaseDescriptors ms' cs') ∧ p.2.isKeptIn C = true) ∧
          p.1.2.DescribedBy T := by
        intro p hp
        obtain ⟨p', hp', ⟨hname, hagrees⟩, hkept⟩ := casesAgree_iff.mp h.2 p hp
        obtain ⟨T, hT, hdescribed⟩ := ih p.1 (List.of_mem_zip hp).1 hagrees
        exact ⟨T, ⟨_, mem_zip_getCaseDescriptors_iff.mpr ⟨p', hp', hname, hT, rfl⟩, hkept⟩,
          hdescribed⟩
      have : Nonempty DdsType := ⟨D⟩
      choose! counterpart hcounterpart using hcases
      rw [← getBuilder_resolve, hu, getBuilder, hD]
      exact ⟨_, rfl, .unionType hdiscriminator counterpart (fun p hp => (hcounterpart p hp).1)
        fun p hp => (hcounterpart p hp).2⟩
    · cases h

theorem agrees_of_describedBy {t u : DynamicType} {T : DdsType} (h : t.DescribedBy T)
    (hu : u.getBuilder = some T) : t.agrees u = true := by
  -- on the description; what was built is read off the DDS type again
  induction h generalizing u with
  | leafType h =>
    obtain ⟨n', l', hresolve, rfl⟩ := resolves_of_getBuilder hu
    rw [agrees, hresolve]
    exact h
  | aliasType h ih => exact ih hu
  | arrayType hdirect h ih =>
    obtain ⟨n', t', d', hresolve, hbuilder⟩ := resolves_of_getBuilder hu
    rw [agrees, hresolve]
    rcases getBuilder_arrayType_eq_some hbuilder with ⟨-, e, B, hB, -⟩ | ⟨hdirect', hB, hT⟩
    · cases hB
    · cases hB
      simp [hdirect, hdirect', ih hT]
  | arrayOfArrays hdirect h ih =>
    obtain ⟨n', t', d', hresolve, hbuilder⟩ := resolves_of_getBuilder hu
    rw [agrees, hresolve]
    rcases getBuilder_arrayType_eq_some hbuilder with ⟨hdirect', e, B, hB, hT⟩ | ⟨hdirect', hB, hT⟩
    · cases hB
      simp [hdirect, hdirect', ih hT]
    · -- only arrays have bounds, so the content has some that are lacking here
      cases hB
      cases h with
      | aliasType h => cases hdirect
  | sequenceType h ih =>
    obtain ⟨n', t', hresolve, hT⟩ := resolves_of_getBuilder hu
    rw [agrees, hresolve]
    exact ih hT
  | mapType hk ht ihk iht =>
    obtain ⟨n', k', t', hresolve, hK, hT⟩ := resolves_of_getBuilder hu
    rw [agrees, hresolve]
    exact Bool.and_eq_true_iff.mpr ⟨ihk hK, iht hT⟩
  | structType counterpart hmem h ih =>
    obtain ⟨n', ms', hresolve, rfl⟩ := resolves_of_getBuilder hu
    rw [agrees, hresolve]
    apply membersAgree_iff.mpr
    intro m hm
    obtain ⟨m', hm', hname, hT⟩ := mem_getMemberBuilders_iff.mp (hmem m hm)
    exact ⟨m', hm', hname, ih m hm hT⟩
  | unionType hd counterpart hmem h ihd ih =>
    obtain ⟨n', d', ms', cs', hresolve, hD, rfl, rfl⟩ := resolves_of_getBuilder hu
    rw [agrees, hresolve]
    apply Bool.and_eq_true_iff.mpr
    constructor
    · exact ihd hD
    · apply casesAgree_iff.mpr
      intro p hp
      obtain ⟨C, hC, hkept⟩ := hmem p hp
      obtain ⟨p', hp', hname, hT, rfl⟩ := mem_zip_getCaseDescriptors_iff.mp hC
      exact ⟨p', hp', ⟨hname, ih p hp hT⟩, hkept⟩

/-- The builder of one type describes another exactly if the other agrees with it. -/
theorem agrees_iff {t u : DynamicType} :
    t.agrees u = true ↔ ∃ T, u.getBuilder = some T ∧ t.DescribedBy T := by
  constructor
  · exact exists_describedBy_of_agrees
  · intro h
    obtain ⟨T, hT, hdescribed⟩ := h
    exact agrees_of_describedBy hdescribed hT

/-! ## Components without a counterpart -/

theorem DescribedBy.exists_component {t c : DynamicType} {T : DdsType} (hc : t.HasComponent c)
    (h : t.DescribedBy T) : ∃ C, c.DescribedBy C := by
  -- on the way to the component, with one step of the description for each step of it
  induction hc generalizing T with
  | refl => exact ⟨T, h⟩
  | target hc ih =>
    cases h with
    | aliasType h => exact ih h
  | arrayElement hc ih =>
    cases h with
    | arrayType ht h => exact ih h
    | arrayOfArrays ht h => exact ih h
  | element hc ih =>
    cases h with
    | sequenceType h => exact ih h
  | key hc ih =>
    cases h with
    | mapType hk ht => exact ih hk
  | value hc ih =>
    cases h with
    | mapType hk ht => exact ih ht
  | member hm hc ih =>
    cases h with
    | structType counterpart hmem h => exact ih (h _ hm)
  | discriminator hc ih =>
    cases h with
    | unionType hd counterpart hmem h => exact ih hd
  | case hp hc ih =>
    cases h with
    | unionType hd counterpart hmem h => exact ih (h _ hp)

theorem DescribedBy.not_hasComponent_bitset {t : DynamicType} {T : DdsType} {n : String}
    (h : t.DescribedBy T) : ¬ t.HasComponent (bitsetType n) := by
  intro hc
  obtain ⟨C, hC⟩ := h.exists_component hc
  -- no DDS type describes a bitset
  cases hC

/-- A type agrees with itself exactly if none of its components is a bitset. -/
theorem agrees_self_iff {t : DynamicType} :
    t.agrees t = true ↔ ∀ n, ¬ t.HasComponent (bitsetType n) := by
  constructor
  · intro h n
    obtain ⟨T, -, hT⟩ := agrees_iff.mp h
    exact hT.not_hasComponent_bitset
  · intro h
    induction t using inductionOn with
    | leafType n l => exact DdsLeaf.sameKind_refl _
    | bitsetType n => exact absurd .refl (h n)
    | aliasType n t ih =>
      -- the alias and its target have one builder
      obtain ⟨T, hT, hdescribed⟩ := agrees_iff.mp (ih fun n hc => h n (.target hc))
      exact agrees_iff.mpr ⟨T, hT, .aliasType hdescribed⟩
    | arrayType n t d ih =>
      have ht := ih fun n hc => h n (.arrayElement hc)
      show (d == d && t.isDirectArray == t.isDirectArray && t.agrees t) = true
      simp [ht]
    | sequenceType n t b ih => exact ih fun n hc => h n (.element hc)
    | mapType n k t b ihk iht =>
      exact Bool.and_eq_true_iff.mpr
        ⟨ihk fun n hc => h n (.key hc), iht fun n hc => h n (.value hc)⟩
    | structType n ms ih =>
      apply membersAgree_iff.mpr
      intro m hm
      exact ⟨m, hm, rfl, ih m hm fun n hc => h n (.member hm hc)⟩
    | unionType n d ms cs ihd ih =>
      apply Bool.and_eq_true_iff.mpr
      constructor
      · exact ihd fun n hc => h n (.discriminator hc)
      · apply casesAgree_iff.mpr
        intro p hp
        have hmem := (List.of_mem_zip hp).1
        exact ⟨p, hp, ⟨rfl, ih p.1 hmem fun n hc => h n (.case hp hc)⟩,
          UnionCase.isKeptIn_descriptor p.2⟩

end DynamicType

/-! ## `create_builder` -/

/-- The type that the builder for the name of `t` is made from after the calls for `earlier`: the
first one of that name that has a builder, or `t` itself. -/
def builderSource (earlier : List DynamicType) (t : DynamicType) : DynamicType :=
  (earlier.reverse.find? fun u => u.name == t.name && !u.leadsToBitset).getD t

/-- Both the result and what is kept are what was kept before, or else the builder of the type. -/
theorem createBuilder_types (builders : KeyedStore String Builder) (t : DynamicType) :
    (createBuilder builders t).1.map Builder.type =
        ((builders t.name).map Builder.type).or t.getBuilder ∧
      ((createBuilder builders t).2 t.name).map Builder.type =
        ((builders t.name).map Builder.type).or t.getBuilder := by
  unfold createBuilder
  cases hkept : builders t.name with
  | some builder =>
    refine ⟨rfl, ?_⟩
    show (builders t.name).map Builder.type = _
    rw [hkept]
    rfl
  | none =>
    cases hbuilder : t.getBuilder with
    | none =>
      refine ⟨rfl, ?_⟩
      show (builders t.name).map Builder.type = _
      rw [hkept]
      rfl
    | some T =>
      refine ⟨rfl, ?_⟩
      show ((builders.set t.name ⟨_, T⟩) t.name).map Builder.type = _
      rw [KeyedStore.set_self]
      rfl

/-- The search for a name is for a type with a builder. -/
theorem getBuilder_isSome_of_find? {types : List DynamicType} {name : String} {u : DynamicType}
    (h : types.find? (fun u => u.name == name && !u.leadsToBitset) = some u) :
    u.getBuilder.isSome = true := by
  have hu := List.find?_some h
  rw [Bool.and_eq_true, Bool.not_eq_true'] at hu
  cases hbuilder : u.getBuilder with
  | none =>
    rw [(DynamicType.getBuilder_eq_none_iff u).mp hbuilder] at hu
    cases hu.2
  | some T => rfl

/-- One more type is the first of its name with a builder if there was none before. -/
theorem find?_append_bind_getBuilder (types : List DynamicType) (t : DynamicType) :
    ((types ++ [t]).find? fun u => u.name == t.name && !u.leadsToBitset).bind
        DynamicType.getBuilder =
      ((types.find? fun u => u.name == t.name && !u.leadsToBitset).bind
        DynamicType.getBuilder).or t.getBuilder := by
  rw [List.find?_append]
  cases hfind : types.find? fun u => u.name == t.name && !u.leadsToBitset with
  | some u =>
    obtain ⟨T, hbuilder⟩ := Option.isSome_iff_exists.mp (getBuilder_isSome_of_find? hfind)
    simp [hbuilder]
  | none =>
    cases hleads : t.leadsToBitset with
    | true => simp [hleads, (DynamicType.getBuilder_eq_none_iff t).mpr hleads]
    | false => simp [hleads]

theorem buildersAfter_types (earlier : List DynamicType) (name : String) :
    (buildersAfter earlier name).map Builder.type =
      (earlier.reverse.find? fun u => u.name == name && !u.leadsToBitset).bind
        DynamicType.getBuilder := by
  induction earlier with
  | nil => rfl
  | cons t earlier ih =>
    rw [List.reverse_cons, buildersAfter]
    -- a call can only change the builder under the name of its own type
    by_cases hname : name = t.name
    · subst hname
      rw [(createBuilder_types _ t).2, ih, find?_append_bind_getBuilder]
    · have hne : (t.name == name) = false := beq_false_of_ne (Ne.symm hname)
      rw [createBuilder_snd_ne _ hname, ih, List.find?_append]
      simp [hne]

theorem createBuilder_source (earlier : List DynamicType) (t : DynamicType) :
    (createBuilder (buildersAfter earlier) t).1.map Builder.type =
      (builderSource earlier t).getBuilder := by
  rw [(createBuilder_types _ t).1, buildersAfter_types, builderSource]
  cases hfind : earlier.reverse.find? fun u => u.name == t.name && !u.leadsToBitset with
  | none => rfl
  | some u =>
    obtain ⟨T, hbuilder⟩ := Option.isSome_iff_exists.mp (getBuilder_isSome_of_find? hfind)
    simp [hbuilder]

/-- A builder that is not null describes the type, and there is none if a component of the type
has no counterpart. -/
structure AllOrNothing (builders : KeyedStore String Builder) (t : DynamicType) : Prop where
  complete : ∀ builder, (createBuilder builders t).1 = some builder → t.DescribedBy builder.type
  refused : ∀ n, t.HasComponent (.bitsetType n) → (createBuilder builders t).1 = none

theorem allOrNothing_iff (earlier : List DynamicType) (t : DynamicType) :
    AllOrNothing (buildersAfter earlier) t ↔
      (builderSource earlier t).leadsToBitset = true ∨
        t.agrees (builderSource earlier t) = true := by
  have hsource := createBuilder_source earlier t
  rw [← DynamicType.getBuilder_eq_none_iff, DynamicType.agrees_iff, ← hsource]
  -- null is right for any type, and a builder has to describe the one it is returned for
  cases hresult : (createBuilder (buildersAfter earlier) t).1 with
  | none =>
    constructor
    · intro h
      exact .inl rfl
    · intro h
      exact ⟨fun builder hbuilder => (nomatch hresult.symm.trans hbuilder), fun n hn => hresult⟩
  | some builder =>
    constructor
    · intro h
      exact .inr ⟨builder.type, rfl, h.complete builder hresult⟩
    · intro h
      rcases h with h | ⟨T, hT, hdescribed⟩
      · cases h
      · cases hT
        constructor
        · intro builder' hbuilder'
          cases hresult.symm.trans hbuilder'
          exact hdescribed
        · intro n hn
          exact absurd hn hdescribed.not_hasComponent_bitset

/-- For a type whose name no other type had: no component is a bitset, or one is reported. -/
theorem allOrNothing_iff_of_unique {earlier : List DynamicType} {t : DynamicType}
    (h : ∀ u ∈ earlier, u.name = t.name → u = t) :
    AllOrNothing (buildersAfter earlier) t ↔
      t.leadsToBitset = true ∨ ∀ n, ¬ t.HasComponent (.bitsetType n) := by
  have hsource : builderSource earlier t = t := by
    rw [builderSource]
    cases hfind : earlier.reverse.find? fun u => u.name == t.name && !u.leadsToBitset with
    | none => rfl
    | some u =>
      have hu := List.find?_some hfind
      rw [Bool.and_eq_true, beq_iff_eq] at hu
      exact h u (List.mem_reverse.mp (List.mem_of_find?_eq_some hfind)) hu.1
  rw [allOrNothing_iff, hsource, DynamicType.agrees_self_iff]

end FastDdsSh
