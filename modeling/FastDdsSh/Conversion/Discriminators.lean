import FastDdsSh.Conversion.ToFastdds

/-!
# Discriminators and labels of unions

`set_union_data` passes the discriminator of a union on as a `uint64_t`, and `get_builder` registers
the labels of its cases as such.  The discriminator goes there from its own type, by a conversion
that is written out for each kind, and a label by way of an `int64_t`.  Both end in the residue
modulo `2 ^ 64`, which tells the values of each of these types apart.
-/

namespace FastDdsSh

/-! ## Conversions -/

def CppType.castIntegral (T : CppType) (n : Int) : Int :=
  match T.cast (.integral n) with
  | .integral m => m
  | _ => n

theorem CppType.castIntegral_of_admits {T : CppType} {n : Int}
    (h : T.admits (.integral n) = true) : T.castIntegral n = n := by
  rw [castIntegral, cast_of_admits h]

theorem CppType.castIntegral_uint64 (n : Int) : CppType.uint64.castIntegral n = n % 2 ^ 64 := by
  show (n - 0) % (2 ^ 64 - 1 - 0 + 1) + 0 = n % 2 ^ 64
  omega

/-- A value and what `int64_t` makes of it have the same 64 bits. -/
theorem CppType.castIntegral_int64_emod (n : Int) :
    CppType.int64.castIntegral n % 2 ^ 64 = n % 2 ^ 64 := by
  show ((n - -2 ^ 63) % (2 ^ 63 - 1 - -2 ^ 63 + 1) + -2 ^ 63) % 2 ^ 64 = n % 2 ^ 64
  have hsize : (2 ^ 63 - 1 - -2 ^ 63 + 1 : Int) = 2 ^ 64 := by norm_num
  rw [hsize]
  omega

/-! ## The discriminator -/

/-- The type that `set_union_data` reads the discriminator with: the cases of its first switch. -/
def LeafType.discriminatorAs : LeafType → Option CppType
  | .boolean => some .bool
  | .char8 => some .char
  | .char16 => some .char16
  | .wideChar => some .wchar
  | .uint8 => some .uint8
  | .int8 => some .int8
  | .int16 => some .int16
  | .uint16 => some .uint16
  | .int32 => some .int32
  | .uint32 => some .uint32
  | .int64 => some .int64
  | .uint64 => some .uint64
  | .enumeration _ => some .uint32
  | .float32 | .float64 | .float128 | .string _ | .wstring _ => none

def XtypesToFastdds.discriminatorValue (discriminator : DynamicType) (d : Int) : Option Nat :=
  match discriminator.resolve with
  -- what is read is extended to a `uint64_t`, by a cast or implicitly
  | .leafType _ l =>
      l.discriminatorAs.map fun T => (CppType.uint64.castIntegral (T.castIntegral d)).toNat
  | _ => none

theorem LeafType.isSome_bounds_of_discriminatorAs {l : LeafType} {T : CppType}
    (h : l.discriminatorAs = some T) : l.cppType.bounds.isSome = true := by
  cases l <;> first | rfl | cases h

/-- Of a value of its type the 64 bits are passed. -/
theorem XtypesToFastdds.discriminatorValue_eq {discriminator : DynamicType} {n : String}
    {l : LeafType} {T : CppType} {d : Int} (hresolve : discriminator.resolve = .leafType n l)
    (hT : l.discriminatorAs = some T) (hd : T.admits (.integral d) = true) :
    discriminatorValue discriminator d = some (d % 2 ^ 64).toNat := by
  rw [discriminatorValue, hresolve]
  show l.discriminatorAs.map _ = _
  rw [hT, Option.map_some, CppType.castIntegral_of_admits hd, CppType.castIntegral_uint64]

/-- It is what the data has as its discriminator afterwards. -/
theorem XtypesToFastdds.setDiscriminator_eq {discriminator : DynamicType} {n : String}
    {l : LeafType} {T : CppType} {d : Int} (hresolve : discriminator.resolve = .leafType n l)
    (hT : l.discriminatorAs = some T) (output : DdsData) :
    setDiscriminator discriminator d output = output.setDiscriminatorValue (d % 2 ^ 64).toNat := by
  rw [setDiscriminator, hresolve]
  exact if_pos (LeafType.isSome_bounds_of_discriminatorAs hT)

/-! ## The labels -/

def UnionCase.getLabels (c : UnionCase) : List Int :=
  c.labels.map CppType.int64.castIntegral

def UnionCase.registeredLabels (c : UnionCase) : List Nat :=
  c.getLabels.map fun label => (CppType.uint64.castIntegral label).toNat

theorem UnionCase.registeredLabels_eq (c : UnionCase) : c.registeredLabels = c.descriptor.1 := by
  rw [registeredLabels, getLabels, List.map_map, descriptor]
  apply List.map_congr_left
  intro label _
  show (CppType.uint64.castIntegral (CppType.int64.castIntegral label)).toNat = _
  rw [CppType.castIntegral_uint64, CppType.castIntegral_int64_emod]

structure AddedCase where
  name : String
  builder : Option DdsType
  labels : List Nat
  isDefault : Bool
  deriving Repr

def addedCases (ms : List (String × DynamicType)) (cs : List UnionCase) : List AddedCase :=
  (ms.zip cs).map fun p => ⟨p.1.1, p.1.2.getBuilder, p.2.registeredLabels, p.2.isDefault⟩

/-- The members of the type that is built are those added with a builder. -/
theorem zip_getCaseDescriptors (ms : List (String × DynamicType)) (cs : List UnionCase) :
    (DynamicType.getMemberBuilders ms).zip (DynamicType.getCaseDescriptors ms cs) =
      (addedCases ms cs).filterMap fun added =>
        added.builder.map fun type => ((added.name, type), (added.labels, added.isDefault)) := by
  unfold addedCases
  induction ms generalizing cs with
  | nil => rfl
  | cons head ms ih =>
    obtain ⟨m, t⟩ := head
    cases cs with
    | nil => exact List.zip_nil_right
    | cons c cs =>
      rw [DynamicType.getMemberBuilders, DynamicType.getCaseDescriptors, List.zip_cons_cons,
        List.map_cons, List.filterMap_cons]
      -- a member without a builder is refused, with its labels
      cases t.getBuilder with
      | none => exact ih cs
      | some type =>
        rw [Option.map_some, c.registeredLabels_eq]
        exact congrArg _ (ih cs)

/-! ## Agreement -/

/-- The labels are values of the type of the discriminator, and no two of them are the same. -/
structure LabelledWith (T : CppType) (cs : List UnionCase) : Prop where
  admits : ∀ c ∈ cs, ∀ label ∈ c.labels, T.admits (.integral label) = true
  distinct : (cs.flatMap UnionCase.labels).Nodup

/-- Of no two places the cases have a label in common. -/
theorem LabelledWith.eq_of_mem {T : CppType} {cs : List UnionCase} (h : LabelledWith T cs)
    {i j : Nat} {c c' : UnionCase} {x : Int} (hi : cs[i]? = some c) (hj : cs[j]? = some c')
    (hx : x ∈ c.labels) (hx' : x ∈ c'.labels) : j = i := by
  obtain ⟨hilt, rfl⟩ := List.getElem?_eq_some_iff.mp hi
  obtain ⟨hjlt, rfl⟩ := List.getElem?_eq_some_iff.mp hj
  have hdisjoint := List.pairwise_iff_getElem.mp (List.nodup_flatMap.mp h.distinct).2
  rcases Nat.lt_trichotomy i j with hlt | heq | hlt
  · exact absurd hx' (hdisjoint i j hilt hjlt hlt hx)
  · exact heq.symm
  · exact absurd hx (hdisjoint j i hjlt hilt hlt hx')

/-- The values of a type a discriminator is read with have different bits. -/
theorem LeafType.eq_of_emod_eq {l : LeafType} {T : CppType} (hT : l.discriminatorAs = some T)
    {x y : Int} (hx : T.admits (.integral x) = true) (hy : T.admits (.integral y) = true)
    (h : (x % 2 ^ 64).toNat = (y % 2 ^ 64).toNat) : x = y := by
  -- no type is wider than 64 bits, and each is signed or unsigned as a whole
  cases l <;> cases hT <;> simp [CppType.admits, CppType.bounds] at hx hy <;> omega

/-- A case has the bits of a value among its registered labels exactly if it has the value among its
labels. -/
theorem LabelledWith.mem_registeredLabels_iff {l : LeafType} {T : CppType}
    (hT : l.discriminatorAs = some T) {cs : List UnionCase} (h : LabelledWith T cs)
    {c : UnionCase} (hc : c ∈ cs) {x : Int} (hx : T.admits (.integral x) = true) :
    (x % 2 ^ 64).toNat ∈ c.registeredLabels ↔ x ∈ c.labels := by
  rw [UnionCase.registeredLabels_eq, UnionCase.descriptor, List.mem_map]
  constructor
  · intro hmem
    obtain ⟨label, hlabel, heq⟩ := hmem
    rwa [← LeafType.eq_of_emod_eq hT (h.admits c hc label hlabel) hx heq]
  · intro hmem
    exact ⟨x, hmem, rfl⟩

/-- The `uint64_t` that is passed for a discriminator is a label of the case the discriminator is
listed for and of no other, and of no case if it is listed for none. -/
theorem discriminatorValue_registered {discriminator : DynamicType} {n : String} {l : LeafType}
    {T : CppType} (hresolve : discriminator.resolve = .leafType n l)
    (hT : l.discriminatorAs = some T) {ms : List (String × DynamicType)} {cs : List UnionCase}
    (hcs : LabelledWith T cs) {d : Int} (hd : T.admits (.integral d) = true) :
    ∃ u, XtypesToFastdds.discriminatorValue discriminator d = some u ∧
      (∀ output, XtypesToFastdds.setDiscriminator discriminator d output =
        output.setDiscriminatorValue u) ∧
      (∀ (i : Nat) m t c, (ms.zip cs)[i]? = some ((m, t), c) → d ∈ c.labels →
        (∃ added, (addedCases ms cs)[i]? = some added ∧ added.name = m ∧ u ∈ added.labels) ∧
        ∀ (j : Nat) other, (addedCases ms cs)[j]? = some other → j ≠ i → u ∉ other.labels) ∧
      ((∀ p ∈ ms.zip cs, d ∉ p.2.labels) → ∀ added ∈ addedCases ms cs, u ∉ added.labels) := by
  refine ⟨_, XtypesToFastdds.discriminatorValue_eq hresolve hT hd,
    XtypesToFastdds.setDiscriminator_eq hresolve hT, fun i m t c hp hlisted => ⟨?_, ?_⟩, ?_⟩
  · have hmem := (List.of_mem_zip (List.mem_of_getElem? hp)).2
    refine ⟨_, List.getElem?_map.trans (congrArg _ hp), rfl, ?_⟩
    exact (hcs.mem_registeredLabels_iff hT hmem hd).mpr hlisted
  · intro j other hother hji hu
    rw [addedCases, List.getElem?_map, Option.map_eq_some_iff] at hother
    obtain ⟨q, hq, rfl⟩ := hother
    have hmem := (List.of_mem_zip (List.mem_of_getElem? hq)).2
    have hlisted' := (hcs.mem_registeredLabels_iff hT hmem hd).mp hu
    have hi := (List.getElem?_zip_eq_some.mp hp).2
    have hj := (List.getElem?_zip_eq_some.mp hq).2
    exact hji (hcs.eq_of_mem hi hj hlisted hlisted')
  · intro hunlisted added hadded hu
    rw [addedCases, List.mem_map] at hadded
    obtain ⟨q, hq, rfl⟩ := hadded
    have hmem := (List.of_mem_zip hq).2
    exact hunlisted q hq ((hcs.mem_registeredLabels_iff hT hmem hd).mp hu)

def signedMembers : List (String × DynamicType) :=
  [("a", .leafType "bool" .boolean), ("b", .leafType "bool" .boolean)]

def signedCases : List UnionCase := [⟨[-1, 3], false⟩, ⟨[-128], false⟩]

theorem discriminatorValue_registered_negative :
    ∃ u, XtypesToFastdds.discriminatorValue (.leafType "int8_t" .int8) (-1) = some u ∧
      ∃ added, (addedCases signedMembers signedCases)[0]? = some added ∧ u ∈ added.labels := by
  obtain ⟨u, hu, -, hlisted, -⟩ :=
    @discriminatorValue_registered (.leafType "int8_t" .int8) "int8_t" .int8 .int8 rfl rfl
      signedMembers signedCases ⟨by decide, by decide⟩ (-1) (by decide)
  obtain ⟨⟨added, hadded, -, hmem⟩, -⟩ :=
    hlisted 0 "a" (.leafType "bool" .boolean) ⟨[-1, 3], false⟩ rfl (by decide)
  exact ⟨u, hu, added, hadded, hmem⟩

end FastDdsSh
