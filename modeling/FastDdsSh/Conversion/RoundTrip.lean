import FastDdsSh.Conversion.Aggregations
import FastDdsSh.Conversion.Arrays

/-!
# The round trip of a value

A value is converted into DDS data created from the builder of its type, and that data into a fresh
value of the type.  What comes back is the value with its unions rebuilt, unless one of its leaves
is taken out or put in with an accessor for another C++ type.
-/

namespace FastDdsSh

open Lookup

namespace DynamicType

theorem isConvertible_of_mem {ms : List (String × DynamicType)} (h : areConvertible ms = true)
    {m : String × DynamicType} (hm : m ∈ ms) : m.2.isConvertible = true := by
  apply forall_of_check _ h hm
  intro m t ms
  rw [areConvertible]

theorem width_le_of_mem {ms : List (String × DynamicType)} {m : String × DynamicType}
    (hm : m ∈ ms) : m.2.width ≤ membersWidth ms := by
  induction ms with
  | nil => cases hm
  | cons head ms ih =>
    rw [membersWidth]
    rcases List.mem_cons.mp hm with rfl | hm
    · exact le_max_left _ _
    · exact le_trans (ih hm) (le_max_right _ _)

theorem isBuilt_of_isLeaf {t : DynamicType} (h : t.isLeaf = true) : t.isBuilt = true := by
  induction t using inductionOn with
  | leafType n l => rfl
  | aliasType n t ih => exact ih h
  | bitsetType | arrayType | sequenceType | mapType | structType | unionType => cases h

theorem areBuilt_of_forall {ms : List (String × DynamicType)}
    (h : ∀ m ∈ ms, m.2.isBuilt = true) : areBuilt ms = true := by
  induction ms with
  | nil => rfl
  | cons head ms ih =>
    rw [areBuilt, Bool.and_eq_true]
    exact ⟨h _ List.mem_cons_self, ih fun m hm => h m (List.mem_cons_of_mem _ hm)⟩

theorem isBuilt_of_isConvertible {t : DynamicType} (h : t.isConvertible = true) :
    t.isBuilt = true := by
  induction t using inductionOn with
  | leafType n l => rfl
  | bitsetType n => cases h
  | aliasType n t ih => exact ih h
  | arrayType n t d ih =>
    rw [isConvertible, Bool.and_eq_true] at h
    exact ih h.1
  | sequenceType n t b ih => exact ih h
  | mapType n k t b ihk iht =>
    rw [isConvertible, Bool.and_eq_true] at h
    rw [isBuilt, Bool.and_eq_true]
    exact ⟨isBuilt_of_isLeaf h.1, iht h.2⟩
  | structType n ms ih =>
    rw [isConvertible, Bool.and_eq_true] at h
    rw [isBuilt, Bool.and_eq_true]
    exact ⟨h.1, areBuilt_of_forall fun m hm => ih m hm (isConvertible_of_mem h.2 hm)⟩
  | unionType n d ms cs ihd ih =>
    rw [isConvertible, Bool.and_eq_true, Bool.and_eq_true] at h
    rw [isBuilt, Bool.and_eq_true, Bool.and_eq_true]
    exact ⟨⟨isBuilt_of_isLeaf h.1.1, h.1.2⟩,
      areBuilt_of_forall fun m hm => ih m hm (isConvertible_of_mem h.2 hm)⟩

/-- The types that are converted have a DDS counterpart. -/
theorem getBuilder_isSome {t : DynamicType} (h : t.isConvertible = true) :
    t.getBuilder.isSome = true :=
  getBuilder_isSome_of_isBuilt (isBuilt_of_isConvertible h)

end DynamicType

section Conversion

variable [Xtypes] [Dds]

/-- Every type that is converted stores its values, and reads them back, wherever they are; as the
content of an array an alias of an array is left out. -/
theorem converts_of_isConvertible [LawfulDds] {fuel : Nat} {t : DynamicType}
    (h : t.isConvertible = true)
    (hfuel : t.width < fuel) :
    Converts fuel t ∧ ((t.isAlias && t.isArray) = false → ElementConverts fuel t) := by
  -- for all types but arrays an element is like any other component
  have hother {t : DynamicType} (hconverts : Converts fuel t) (hnot : t.isArray = false) :
      Converts fuel t ∧ ((t.isAlias && t.isArray) = false → ElementConverts fuel t) :=
    ⟨hconverts, fun _ => elementConverts_of_converts hnot hconverts⟩
  induction t using DynamicType.inductionOn with
  | leafType n l => exact hother (converts_leafType fuel n l) rfl
  | bitsetType n => cases h
  | aliasType n t ih =>
    have hconverts := converts_aliasType n (ih h hfuel).1
    exact ⟨hconverts, fun hnot => elementConverts_of_converts hnot hconverts⟩
  | arrayType n t d ih =>
    rw [DynamicType.isConvertible, Bool.and_eq_true, Bool.not_eq_true'] at h
    have ht := (ih h.1 hfuel).2 h.2
    exact ⟨converts_arrayType n d ht, fun _ => elementConverts_arrayType n d ht⟩
  | sequenceType n t b ih => exact hother (converts_sequenceType n b (ih h hfuel).1) rfl
  | mapType n k t b ihk iht =>
    rw [DynamicType.isConvertible, Bool.and_eq_true] at h
    rw [DynamicType.width, max_lt_iff] at hfuel
    exact hother (converts_mapType n b h.1 (iht h.2 hfuel.2).1) rfl
  | structType n ms ih =>
    rw [DynamicType.isConvertible, Bool.and_eq_true, decide_eq_true_eq] at h
    rw [DynamicType.width, max_lt_iff] at hfuel
    have hms : ∀ m ∈ ms, m.2.isConvertible = true := fun m hm =>
      DynamicType.isConvertible_of_mem h.2 hm
    refine hother (converts_structType n (fun m hm => ?_) (fun m hm => ?_) h.1 hfuel.1) rfl
    · exact (ih m hm (hms m hm) (lt_of_le_of_lt (DynamicType.width_le_of_mem hm) hfuel.2)).1
    · exact DynamicType.getBuilder_isSome (hms m hm)
  | unionType n d ms cs ihd ih =>
    rw [DynamicType.isConvertible, Bool.and_eq_true, Bool.and_eq_true] at h
    rw [DynamicType.width] at hfuel
    have hms : ∀ m ∈ ms, m.2.isConvertible = true := fun m hm =>
      DynamicType.isConvertible_of_mem h.2 hm
    refine hother (converts_unionType n d cs (fun m hm => ?_) (fun m hm => ?_)) rfl
    · exact (ih m hm (hms m hm) (lt_of_le_of_lt (DynamicType.width_le_of_mem hm) hfuel)).1
    · exact DynamicType.getBuilder_isSome (hms m hm)

/-- Both conversions of a value, by the builder that `create_builder` gives after it has been called
on `earlier` types: the two flags and the value that comes back. -/
def roundTrip (fuel : Nat) (earlier : List DynamicType) (t : DynamicType) (v : Value) :
    Except Fault (Bool × Bool × Value) :=
  match (createBuilder (buildersAfter earlier) t).1 with
  | none => .error .nullPointer
  | some builder => do
      let encoded ← xtypesToFastdds t v builder.type.createData
      let decoded ← fastddsToXtypes fuel encoded.2 t t.default
      .ok (encoded.1, decoded.1, decoded.2)

/-- What comes of the round trip of a structure or a union. -/
theorem roundTrip_outcome [LawfulDds] {fuel : Nat} {earlier : List DynamicType} {t : DynamicType}
    {v : Value}
    (hconvertible : t.isConvertible = true) (hroot : t.resolve.isAggregation = true)
    (hearlier : ∀ u ∈ earlier, u.name = t.name → u = t) (hv : t.admits v = true)
    (hfuel : t.width < fuel) :
    Outcome .exception (t.readable .entry v && t.writable .entry v)
      (· = (true, true, t.rebuilt v)) (roundTrip fuel earlier t v) := by
  obtain ⟨T, hT⟩ := Option.isSome_iff_exists.mp (DynamicType.getBuilder_isSome hconvertible)
  obtain ⟨builder, hbuilder, htype⟩ := createBuilder_type hearlier hT
  unfold roundTrip
  simp only [hbuilder, htype, xtypesToFastdds_of_isAggregation hroot,
    fastddsToXtypes_of_isAggregation hroot]
  have hencode := (converts_of_isConvertible hconvertible hfuel).1
    (p := .whole T.createData) hT hv trivial rfl T.admits_createData
  simp only [bind_assoc]
  refine hencode.bind fun data hdata => ?_
  obtain ⟨c, hc, -, hstored⟩ := hdata
  have hput : data = c := hc
  rw [hput]
  have hdecode := hstored (p := .whole c) hT trivial rfl
  exact hdecode.bind_ok fun r hr => by rw [hr]; rfl

end Conversion

/-! ## Values without unions -/

/-- Outside of unions a leaf that can be taken out can be put in. -/
theorem LeafType.writable_of_readable [Xtypes] {l : LeafType} {p : Position} (hp : p ≠ .unionMember)
    (h : l.readable p = true) : l.writable p = true := by
  by_cases hchar16 : l = .char16
  · subst hchar16
    cases p <;>
      simp [readable, accessibleAs, readAs, cppType, CppType.sameWidth, CppType.bounds] at h
  · have hrestored : l.restoredAs p = l.cppType := by
      cases l <;> cases p <;> first | rfl | simp at hchar16 hp
    rw [writable, hrestored, accessibleAs, decide_eq_true rfl, Bool.true_or]

/-- Where the library never lets an accessor for another type go through, these are the leaves that
cannot be taken out. -/
theorem LeafType.not_readable_iff [Xtypes] {l : LeafType}
    (hstrict : ∀ T, Xtypes.lenient l T = false)
    (p : Position) :
    l.readable p = false ↔ l = .char16 ∨ l = .int8 ∧ p = .entry ∨
      l = .wideChar ∧ (p = .arrayElement ∨ p = .sequenceElement) := by
  rw [readable, accessibleAs, hstrict, Bool.false_and, Bool.or_false, decide_eq_false_iff_not]
  cases l <;> cases p <;> simp [readAs, cppType]

theorem DynamicType.position_of_mem_leaves {t : DynamicType} (h : t.isUnionFree = true)
    {p : Position} (hp : p ≠ .unionMember) {v : Value} {o : Position × LeafType}
    (ho : o ∈ t.leaves p v) : o.1 ≠ .unionMember := by
  induction t using inductionOn generalizing p v with
  | leafType n l =>
    cases v with
    | leaf content =>
      rw [leaves, List.mem_singleton] at ho
      rw [ho]
      exact hp
    | list | map | struct | union => cases ho
  | bitsetType n => simp [leaves] at ho
  | aliasType n t ih => exact ih h hp ho
  | arrayType n t d ih | sequenceType n t d ih =>
    cases v with
    | list vs =>
      rw [leaves, List.mem_flatMap] at ho
      obtain ⟨w, -, ho⟩ := ho
      exact ih h (by decide) ho
    | leaf | map | struct | union => cases ho
  | mapType n k t b ihk iht =>
    rw [isUnionFree, Bool.and_eq_true] at h
    cases v with
    | map es =>
      rw [leaves, List.mem_flatMap] at ho
      obtain ⟨e, -, ho⟩ := ho
      rcases List.mem_append.mp ho with ho | ho
      · exact ihk h.1 (by decide) ho
      · exact iht h.2 (by decide) ho
    | leaf | list | struct | union => cases ho
  | structType n ms ih =>
    cases v with
    | struct fields =>
      rw [leaves] at ho
      rw [isUnionFree] at h
      induction ms generalizing fields with
      | nil => cases ho
      | cons head ms ihms =>
        rw [areUnionFree, Bool.and_eq_true] at h
        cases fields with
        | nil => cases ho
        | cons field fields =>
          rw [leavesOfMembers, List.mem_append] at ho
          rcases ho with ho | ho
          · exact ih head List.mem_cons_self h.1 (by decide) ho
          · exact ihms (fun m hm => ih m (List.mem_cons_of_mem _ hm)) h.2 fields ho
    | leaf | list | map | union => cases ho
  | unionType n d ms cs => cases h

/-- A structure without unions comes back exactly if no accessor on the way out is for another C++
type than that of its leaf. -/
theorem roundTrip_iff_readable [Xtypes] [Dds] [LawfulDds] {fuel : Nat}
    {earlier : List DynamicType} {t : DynamicType} {v : Value}
    (hconvertible : t.isConvertible = true) (hfree : t.isUnionFree = true)
    (hroot : t.resolve.isAggregation = true)
    (hearlier : ∀ u ∈ earlier, u.name = t.name → u = t) (hv : t.admits v = true)
    (hfuel : t.width < fuel) :
    roundTrip fuel earlier t v = .ok (true, true, v) ↔
      ∀ o ∈ t.leaves .entry v, o.2.readable o.1 = true := by
  have hback : t.readable .entry v = true → t.writable .entry v = true := by
    intro h
    rw [DynamicType.readable, List.all_eq_true] at h
    rw [DynamicType.writable, List.all_eq_true]
    intro o ho
    have hposition :=
      DynamicType.position_of_mem_leaves hfree (show Position.entry ≠ _ by decide) ho
    exact LeafType.writable_of_readable hposition (h o ho)
  rw [(roundTrip_outcome hconvertible hroot hearlier hv hfuel).eq_ok_iff, Bool.and_eq_true,
    DynamicType.rebuilt_of_isUnionFree hfree]
  constructor
  · rintro ⟨⟨h, -⟩, -⟩
    exact List.all_eq_true.mp h
  · intro h
    have hreadable : t.readable .entry v = true := List.all_eq_true.mpr h
    exact ⟨⟨hreadable, hback hreadable⟩, rfl⟩

def plainLineType : DynamicType :=
  .structType "Line" [("letters", .arrayType "Letters" (.leafType "char" .char8) 2),
    ("column", .leafType "int32" .int32)]

def plainLineValue : Value :=
  .struct [("letters", .list [.leaf (.integral 97), .leaf (.integral 98)]),
    ("column", .leaf (.integral (-1)))]

theorem roundTrip_plainLine :
    @roundTrip firstLabelXtypes zeroDds 3 [] plainLineType plainLineValue =
      .ok (true, true, plainLineValue) :=
  (@roundTrip_iff_readable firstLabelXtypes zeroDds lawful_zeroDds 3 [] plainLineType plainLineValue
    (by decide) (by decide) (by decide) (List.forall_mem_nil _) (by decide) (by decide)).mpr
    (by decide)

def lineType : DynamicType :=
  .structType "Line" [("glyphs", .arrayType "Glyphs" (.leafType "wchar" .wideChar) 1),
    ("column", .leafType "int8" .int8)]

def lineValue : Value :=
  .struct [("glyphs", .list [.leaf (.integral 955)]), ("column", .leaf (.integral (-1)))]

/-- The wide characters of an array are read as `char32_t`, which is an error where the library asks
for the type of the leaf; so are the signed bytes of a map, which are read as `octet`. -/
theorem roundTrip_line_error :
    lineType.isConvertible = true ∧ lineType.isUnionFree = true ∧
      lineType.admits lineValue = true ∧
      @roundTrip firstLabelXtypes zeroDds 3 [] lineType lineValue ≠
        .ok (true, true, lineValue) := by
  decide +kernel

/-! ## Values with unions -/

/-- A value comes back exactly if each of its leaves is taken out and put in with the accessor for
its C++ type, and each of its unions has the discriminator that selecting its case sets. -/
theorem roundTrip_iff_selected [Xtypes] [Dds] [LawfulDds] {fuel : Nat}
    {earlier : List DynamicType} {t : DynamicType} {v : Value}
    (hconvertible : t.isConvertible = true) (hroot : t.resolve.isAggregation = true)
    (hearlier : ∀ u ∈ earlier, u.name = t.name → u = t) (hv : t.admits v = true)
    (hfuel : t.width < fuel) :
    roundTrip fuel earlier t v = .ok (true, true, v) ↔
      (∀ o ∈ t.leaves .entry v, o.2.readable o.1 = true ∧ o.2.writable o.1 = true) ∧
        ∀ u ∈ t.unions v, u.2.1 = u.1.selectedDiscriminator u.2.2 := by
  rw [(roundTrip_outcome hconvertible hroot hearlier hv hfuel).eq_ok_iff, Bool.and_eq_true,
    DynamicType.readable, DynamicType.writable, List.all_eq_true, List.all_eq_true,
    ← DynamicType.rebuilt_eq_iff]
  constructor
  · rintro ⟨⟨hread, hwrite⟩, h⟩
    exact ⟨fun o ho => ⟨hread o ho, hwrite o ho⟩, by simpa using h⟩
  · rintro ⟨h, hsame⟩
    exact ⟨⟨fun o ho => (h o ho).1, fun o ho => (h o ho).2⟩, by rw [hsame]⟩

def choiceType : DynamicType :=
  .unionType "Choice" (.leafType "int32" .int32)
    [("number", .leafType "int16" .int16), ("word", .leafType "string" (.string 0))]
    [⟨[1], false⟩, ⟨[2, 3], false⟩]

theorem roundTrip_choice :
    @roundTrip firstLabelXtypes zeroDds 1 [] choiceType (.union 2 "word" (.leaf (.text "a"))) =
      .ok (true, true, .union 2 "word" (.leaf (.text "a"))) :=
  (@roundTrip_iff_selected firstLabelXtypes zeroDds lawful_zeroDds 1 [] choiceType
    (.union 2 "word" (.leaf (.text "a"))) (by decide) (by decide) (List.forall_mem_nil _)
    (by decide) (by decide)).mpr (by decide)

/-- The second label of a case comes back as the first. -/
theorem roundTrip_choice_second :
    choiceType.isConvertible = true ∧
      choiceType.admits (.union 3 "word" (.leaf (.text "a"))) = true ∧
      @roundTrip firstLabelXtypes zeroDds 1 [] choiceType (.union 3 "word" (.leaf (.text "a"))) =
        .ok (true, true, .union 2 "word" (.leaf (.text "a"))) := by
  decide +kernel

end FastDdsSh
