import FastDdsSh.Conversion.Collections

/-!
# Arrays, there and back

The elements of nested arrays lie in one list.  An array that is the element of another one fills a
block of it: the statements here are about one block, whatever lies before and after it.
-/

namespace FastDdsSh

/-- As the content of an array the type adds the dimensions `B` and has elements of type `E`. -/
def ArrayContent (t : DynamicType) (B : List Nat) (E : DdsType) : Prop :=
  match t with
  | .arrayType _ _ _ => t.getBuilder = some (.array E B)
  | t => B = [] ∧ t.getBuilder = some E

theorem arrayContent_of_getBuilder {n : String} {t : DynamicType} {d : Nat} {T : DdsType}
    (h : (DynamicType.arrayType n t d).getBuilder = some T) :
    ∃ B E, ArrayContent t B E ∧ T = .array E (d :: B) := by
  rw [DynamicType.getBuilder] at h
  obtain ⟨⟨bounds, E⟩, hspecs, rfl⟩ := Option.map_eq_some_iff.mp h
  unfold DynamicType.getArraySpecs at hspecs
  cases hbuilder : t.getBuilder with
  | none =>
    rw [hbuilder] at hspecs
    cases t <;> cases hspecs
  | some content =>
    rw [hbuilder] at hspecs
    cases t with
    | arrayType n' t' d' =>
      obtain ⟨inner, -, rfl⟩ := Option.map_eq_some_iff.mp hbuilder
      cases hspecs
      exact ⟨_, _, hbuilder, rfl⟩
    | leafType | bitsetType | aliasType | sequenceType | mapType | structType | unionType =>
      cases hspecs
      exact ⟨[], _, ⟨rfl, hbuilder⟩, rfl⟩

variable [Xtypes] [Dds]

/-- At whatever place of an array the block is found, it is read as `v`, its unions rebuilt. -/
def BlockStored (fuel : Nat) (t : DynamicType) (B : List Nat) (E : DdsType) (v : Value)
    (block : List DdsData) : Prop :=
  ∀ ⦃bounds indexes : List Nat⦄ ⦃q : Nat⦄, RowMajor.index bounds indexes = some q →
    ∀ before after : List DdsData, before.length = q * B.prod →
      Outcome .exception (t.writable .arrayElement v) (· = some (t.rebuilt v))
        (FastddsToXtypes.decode fuel t
          (.arrayElement (.composite (.array E (bounds ++ B)) (before ++ (block ++ after))) indexes)
          t.default)

def Block (B : List Nat) (E : DdsType) (block : List DdsData) : Prop :=
  block.length = B.prod ∧ ∀ c ∈ block, E.Admits c

def ElementConverts (fuel : Nat) (t : DynamicType) : Prop :=
  ∀ ⦃B : List Nat⦄ ⦃E : DdsType⦄ ⦃v : Value⦄, ArrayContent t B E → t.admits v = true →
    ∀ ⦃bounds indexes : List Nat⦄ ⦃q : Nat⦄, RowMajor.index bounds indexes = some q →
      ∀ before block after : List DdsData, before.length = q * B.prod → Block B E block →
        Outcome .exception (t.readable .arrayElement v)
          (fun r => ∃ stored,
            r = .composite (.array E (bounds ++ B)) (before ++ (stored ++ after)) ∧
              Block B E stored ∧ BlockStored fuel t B E v stored)
          (XtypesToFastdds.encode t v
            (.arrayElement (.composite (.array E (bounds ++ B)) (before ++ (block ++ after)))
              indexes))

def ElementConvertsTo (M : DdsData → Prop) (S : Value → List DdsData → Prop) (t : DynamicType)
    (B : List Nat) (E : DdsType) : Prop :=
  ∀ ⦃v : Value⦄, t.admits v = true →
    ∀ ⦃bounds indexes : List Nat⦄ ⦃q : Nat⦄, RowMajor.index bounds indexes = some q →
      ∀ before block after : List DdsData, before.length = q * B.prod →
        block.length = B.prod → (∀ c ∈ block, M c) →
        Outcome .exception (t.readable .arrayElement v)
          (fun r => ∃ stored,
            r = .composite (.array E (bounds ++ B)) (before ++ (stored ++ after)) ∧
              stored.length = B.prod ∧ (∀ c ∈ stored, M c) ∧ S v stored)
          (XtypesToFastdds.encode t v
            (.arrayElement (.composite (.array E (bounds ++ B)) (before ++ (block ++ after)))
              indexes))

theorem ElementConverts.elementConvertsTo {fuel : Nat} {t : DynamicType} {B : List Nat}
    {E : DdsType} (h : ElementConverts fuel t) (hcontent : ArrayContent t B E) :
    ElementConvertsTo E.Admits (BlockStored fuel t B E) t B E := by
  intro v hv bounds indexes q hq before block after hbefore hlength hadmits
  refine (h hcontent hv hq before block after hbefore ⟨hlength, hadmits⟩).imp fun r hr => ?_
  obtain ⟨stored, hr, hblock, hstored⟩ := hr
  exact ⟨stored, hr, hblock.1, hblock.2, hstored⟩

/-! ## Elements that are not arrays -/

omit [Xtypes] [Dds] in
theorem arrayElement_holds {E : DdsType} {bounds indexes : List Nat} {q : Nat}
    (hq : RowMajor.index bounds indexes = some q) {before : List DdsData}
    (hbefore : before.length = q) (c : DdsData) (after : List DdsData) :
    (Place.arrayElement (.composite (.array E bounds) (before ++ c :: after)) indexes).Holds
      E c := by
  have hid : (DdsData.composite (.array E bounds) (before ++ c :: after)).getArrayIndex indexes =
      some q := hq
  show _ ≠ none ∧ DdsData.component _ _ = some c
  rw [hid]
  refine ⟨Option.some_ne_none q, ?_⟩
  show (before ++ c :: after)[q]? = some c
  rw [List.getElem?_append_right (by omega), hbefore, Nat.sub_self]
  rfl

omit [Xtypes] [Dds] in
theorem arrayElement_put {E : DdsType} {bounds indexes : List Nat} {q : Nat}
    (hq : RowMajor.index bounds indexes = some q) {before : List DdsData}
    (hbefore : before.length = q) (c d : DdsData) (after : List DdsData) :
    (Place.arrayElement (.composite (.array E bounds) (before ++ c :: after)) indexes).put d =
      .composite (.array E bounds) (before ++ d :: after) := by
  have hid : (DdsData.composite (.array E bounds) (before ++ c :: after)).getArrayIndex indexes =
      some q := hq
  show (DdsData.composite (.array E bounds) (before ++ c :: after)).withComponent
    ((DdsData.composite (.array E bounds) (before ++ c :: after)).getArrayIndex indexes) d = _
  rw [hid]
  show DdsData.composite _ ((before ++ c :: after).set q d) = _
  rw [List.set_append_right _ _ (by omega), hbefore, Nat.sub_self]
  rfl

omit [Xtypes] [Dds] in
theorem arrayContent_of_not_isArray {t : DynamicType} (ht : t.isArray = false) {B : List Nat}
    {E : DdsType} (h : ArrayContent t B E) : B = [] ∧ t.getBuilder = some E := by
  cases t with
  | arrayType n t d => cases ht
  | leafType | bitsetType | aliasType | sequenceType | mapType | structType | unionType => exact h

/-- A component that is no array takes up a block of one. -/
theorem elementConvertsTo_of_convertsTo {L : DynamicType → DdsData → Prop}
    {S : DynamicType → Value → DdsData → Prop} {M : DdsData → Prop}
    {S' : Value → List DdsData → Prop} {t : DynamicType} (ht : t.isArray = false)
    (h : ConvertsTo L S t) {B : List Nat} {E : DdsType} (hcontent : ArrayContent t B E)
    (hM : ∀ c, M c ↔ L t c) (hS : ∀ v c, S t v c → S' v [c]) : ElementConvertsTo M S' t B E := by
  intro v hv bounds indexes q hq before block after hbefore hlength hadmits
  obtain ⟨rfl, hE⟩ := arrayContent_of_not_isArray ht hcontent
  rw [List.prod_nil, Nat.mul_one] at hbefore
  obtain ⟨x, rfl⟩ := List.length_eq_one_iff.mp hlength
  have hx : L t x := (hM x).mp (hadmits x List.mem_cons_self)
  rw [List.append_nil, List.singleton_append]
  refine (h (p := .arrayElement _ _) hE hv ht (arrayElement_holds hq hbefore x after) hx).imp
    fun r hr => ?_
  obtain ⟨c, rfl, hc, hstored⟩ := hr
  refine ⟨[c], arrayElement_put hq hbefore x c after, rfl, ?_, hS v c hstored⟩
  intro d hd
  rw [List.mem_singleton.mp hd]
  exact (hM c).mpr hc

theorem elementConverts_of_converts {fuel : Nat} {t : DynamicType} (ht : t.isArray = false)
    (h : Converts fuel t) : ElementConverts fuel t := by
  intro B E v hcontent hv bounds indexes q hq before block after hbefore hblock
  obtain ⟨rfl, hE⟩ := arrayContent_of_not_isArray ht hcontent
  have hM (c : DdsData) : E.Admits c ↔ Shaped t c := by
    constructor
    · intro hc U hU
      rw [hE] at hU
      cases hU
      exact hc
    · intro hc
      exact hc hE
  have hS (v : Value) (c : DdsData) (hc : Stored fuel t v c) : BlockStored fuel t [] E v [c] := by
    intro bounds' indexes' q' hq' before' after' hbefore'
    rw [List.prod_nil, Nat.mul_one] at hbefore'
    rw [List.append_nil, List.singleton_append]
    exact hc (p := .arrayElement _ _) hE ht (arrayElement_holds hq' hbefore' c after')
  have helement := elementConvertsTo_of_convertsTo ht h.convertsTo hcontent hM hS
  refine (helement hv hq before block after hbefore hblock.1 hblock.2).imp fun r hr => ?_
  obtain ⟨stored, hr, hlength, hadmits, hstored⟩ := hr
  exact ⟨stored, hr, ⟨hlength, hadmits⟩, hstored⟩

/-! ## Elements that are arrays -/

def BlocksStored (fuel : Nat) (t : DynamicType) (B : List Nat) (E : DdsType) :
    List Value → List DdsData → Prop
  | [], blocks => blocks = []
  | v :: vs, blocks => ∃ block rest, blocks = block ++ rest ∧ block.length = B.prod ∧
      BlockStored fuel t B E v block ∧ BlocksStored fuel t B E vs rest

theorem blocksStored_cons (fuel : Nat) (t : DynamicType) (B : List Nat) (E : DdsType) (v : Value)
    (block : List DdsData) (vs : List Value) (rest : List DdsData) (hlength : block.length = B.prod)
    (hblock : BlockStored fuel t B E v block) (hrest : BlocksStored fuel t B E vs rest) :
    BlocksStored fuel t B E (v :: vs) (block ++ rest) :=
  ⟨block, rest, rfl, hlength, hblock, hrest⟩

/-- The loop over the elements, the property `R` of all of them being put together from `S`. -/
theorem XtypesToFastdds.setArrayData_outcome {d : Nat} {t : DynamicType} {B : List Nat}
    {E : DdsType} {M : DdsData → Prop} {S : Value → List DdsData → Prop}
    {R : List Value → List DdsData → Prop} (ht : ElementConvertsTo M S t B E) (hnil : R [] [])
    (hcons : ∀ v block vs rest, block.length = B.prod → S v block → R vs rest →
      R (v :: vs) (block ++ rest))
    {bounds indexes : List Nat} {q : Nat} (hq : RowMajor.index bounds indexes = some q)
    (after : List DdsData) {vs : List Value} (hvs : vs.all t.admits = true) {idx : Nat}
    (hidx : idx + vs.length = d) (before blocks : List DdsData)
    (hbefore : before.length = (q * d + idx) * B.prod)
    (hblocks : blocks.length = vs.length * B.prod) (hadmits : ∀ c ∈ blocks, M c) :
    Outcome .exception ((vs.flatMap (t.leaves .arrayElement)).all fun o => o.2.readable o.1)
      (fun r => ∃ stored,
        r = .composite (.array E (bounds ++ d :: B)) (before ++ (stored ++ after)) ∧
          stored.length = vs.length * B.prod ∧ (∀ c ∈ stored, M c) ∧ R vs stored)
      (setArrayData (fun v output indexes => encode t v (.arrayElement output indexes)) indexes vs
        idx (.composite (.array E (bounds ++ d :: B)) (before ++ (blocks ++ after)))) := by
  induction vs generalizing idx before blocks with
  | nil =>
    have hempty : blocks = [] := List.eq_nil_of_length_eq_zero (by simpa using hblocks)
    exact Outcome.ok ⟨[], by rw [hempty], by simp, by simp, hnil⟩
  | cons v vs ih =>
    rw [List.all_cons, Bool.and_eq_true] at hvs
    rw [List.length_cons] at hidx
    rw [List.length_cons, Nat.add_mul, Nat.one_mul] at hblocks
    rw [List.flatMap_cons, List.all_append]
    -- the first block and the others
    have htake : (blocks.take B.prod).length = B.prod := by
      rw [List.length_take]
      omega
    have hsplit : blocks = blocks.take B.prod ++ blocks.drop B.prod :=
      (List.take_append_drop _ _).symm
    have hbounds : bounds ++ d :: B = bounds ++ [d] ++ B := by
      rw [List.append_assoc, List.singleton_append]
    have hindex := RowMajor.index_concat hq (show idx < d by omega)
    have hfirst := ht hvs.1 hindex before (blocks.take B.prod) (blocks.drop B.prod ++ after)
      hbefore htake fun c hc => hadmits c (List.mem_of_mem_take hc)
    rw [← List.append_assoc (blocks.take B.prod), ← hsplit, ← hbounds] at hfirst
    refine hfirst.bind fun r hr => ?_
    obtain ⟨block, rfl, hblock, hblockAdmits, hstored⟩ := hr
    have hlength : (before ++ block).length = (q * d + (idx + 1)) * B.prod := by
      rw [List.length_append, hbefore, hblock, ← Nat.add_assoc, Nat.add_mul _ 1, Nat.one_mul]
    have hrest := ih hvs.2 (show (idx + 1) + vs.length = d by omega) (before ++ block)
      (blocks.drop B.prod) hlength (by rw [List.length_drop]; omega)
      (fun c hc => hadmits c (List.mem_of_mem_drop hc))
    rw [List.append_assoc] at hrest
    refine hrest.imp fun r hr => ?_
    obtain ⟨rest, rfl, hrestLength, hrestAdmits, hrestStored⟩ := hr
    refine ⟨block ++ rest, by simp only [List.append_assoc], ?_, ?_,
      hcons v block vs rest hblock hstored hrestStored⟩
    · rw [List.length_append, hblock, hrestLength, List.length_cons, Nat.add_mul, Nat.one_mul,
        Nat.add_comm]
    · intro c hc
      exact (List.mem_append.mp hc).elim (hblockAdmits c) (hrestAdmits c)

theorem FastddsToXtypes.setArrayData_outcome {fuel d : Nat} {t : DynamicType} {B : List Nat}
    {E : DdsType} {bounds indexes : List Nat} {q : Nat}
    (hq : RowMajor.index bounds indexes = some q) (after : List DdsData) {vs : List Value}
    {idx : Nat} (hidx : idx + vs.length = d) (before blocks : List DdsData)
    (hbefore : before.length = (q * d + idx) * B.prod)
    (h : BlocksStored fuel t B E vs blocks) :
    Outcome .exception ((vs.flatMap (t.leaves .arrayElement)).all fun o => o.2.writable o.1)
      (· = vs.map t.rebuilt)
      (setArrayData (fun indexes => decode fuel t
          (.arrayElement (.composite (.array E (bounds ++ d :: B)) (before ++ (blocks ++ after)))
            indexes) t.default)
        indexes (List.replicate vs.length t.default) idx) := by
  induction vs generalizing idx before blocks with
  | nil => exact Outcome.ok rfl
  | cons v vs ih =>
    obtain ⟨block, rest, rfl, hlength, hstored, hrest⟩ := h
    rw [List.length_cons] at hidx
    rw [List.flatMap_cons, List.all_append]
    have hbounds : bounds ++ d :: B = bounds ++ [d] ++ B := by
      rw [List.append_assoc, List.singleton_append]
    have hindex := RowMajor.index_concat hq (show idx < d by omega)
    have hfirst := hstored hindex before (rest ++ after) hbefore
    rw [← List.append_assoc block, ← hbounds] at hfirst
    refine hfirst.bind fun w hw => ?_
    have hbefore' : (before ++ block).length = (q * d + (idx + 1)) * B.prod := by
      rw [List.length_append, hbefore, hlength, ← Nat.add_assoc, Nat.add_mul _ 1, Nat.one_mul]
    have hothers :=
      ih (show (idx + 1) + vs.length = d by omega) (before ++ block) rest hbefore' hrest
    rw [List.append_assoc before, ← List.append_assoc block] at hothers
    refine hothers.bind_ok fun ws hws => ?_
    rw [hw, hws]
    rfl

theorem stored_arrayType {fuel : Nat} {n : String} {t : DynamicType} {d : Nat} {B : List Nat}
    {E : DdsType} {vs : List Value} (hvs : vs.length = d) {cs : List DdsData}
    (hbuilder : (DynamicType.arrayType n t d).getBuilder = some (.array E (d :: B)))
    (h : BlocksStored fuel t B E vs cs) :
    Stored fuel (.arrayType n t d) (.list vs) (.composite (.array E (d :: B)) cs) := by
  intro T p hT hfits hp
  rw [hbuilder] at hT
  cases hT
  have hloop := FastddsToXtypes.setArrayData_outcome (show RowMajor.index [] [] = some 0 from rfl)
    [] (show 0 + vs.length = d by omega) [] cs (by simp) h
  rw [List.nil_append, List.nil_append, List.append_nil, hvs] at hloop
  cases p with
  | arrayElement => cases hfits
  | whole | key | entry | member | sequenceElement =>
    rw [DynamicType.default, FastddsToXtypes.decode]
    · refine FastddsToXtypes.setCollection_outcome hp ?_
      exact hloop.bind_ok fun ws hws => by rw [hws]; rfl
    · rintro _ _ ⟨⟩

theorem converts_arrayType {fuel : Nat} {t : DynamicType} (n : String) (d : Nat)
    (ht : ElementConverts fuel t) : Converts fuel (.arrayType n t d) := by
  intro T p x v hT hv hfits hp hx
  cases v with
  | list vs =>
    obtain ⟨B, E, hcontent, rfl⟩ := arrayContent_of_getBuilder hT
    rw [DynamicType.admits, Bool.and_eq_true, decide_eq_true_eq] at hv
    have hkey := hfits.ne_key rfl
    have hnested := XtypesToFastdds.setNested_outcome
      (Q := fun c => (DdsType.array E (d :: B)).Admits c ∧
        Stored fuel (.arrayType n t d) (.list vs) c) hp hkey hx (DdsType.admits_createData _)
        fun y hy => by
      obtain ⟨cs, rfl, hlength, hadmits⟩ := hy
      have hloop := XtypesToFastdds.setArrayData_outcome (ht.elementConvertsTo hcontent) rfl
        (blocksStored_cons fuel t B E) (show RowMajor.index [] [] = some 0 from rfl) [] hv.2
        (show 0 + vs.length = d by omega) [] cs (by simp) (by rw [hlength, hv.1, List.prod_cons])
        hadmits
      rw [List.nil_append, List.nil_append, List.append_nil] at hloop
      refine hloop.imp fun r hr => ?_
      obtain ⟨stored, rfl, hstoredLength, hstoredAdmits, hstored⟩ := hr
      rw [List.nil_append, List.append_nil]
      refine ⟨⟨stored, rfl, ?_, hstoredAdmits⟩, stored_arrayType hv.1 hT hstored⟩
      rw [hstoredLength, hv.1, List.prod_cons]
    cases p with
    | arrayElement => cases hfits
    | whole | key | entry | member | sequenceElement =>
      rw [XtypesToFastdds.encode, hT]
      · exact hnested
      · rintro _ _ ⟨⟩
  | leaf | map | struct | union => cases hv

/-- An array that is an element fills its block with the blocks of its own elements. -/
theorem elementConverts_arrayType {fuel : Nat} {t : DynamicType} (n : String) (d : Nat)
    (ht : ElementConverts fuel t) : ElementConverts fuel (.arrayType n t d) := by
  intro B' E v hbuilder hv bounds indexes q hq before blocks after hbefore hblocks
  cases v with
  | list vs =>
    obtain ⟨B, E', hcontent, heq⟩ := arrayContent_of_getBuilder hbuilder
    cases heq
    rw [DynamicType.admits, Bool.and_eq_true, decide_eq_true_eq] at hv
    obtain ⟨hlength, hadmits⟩ := hblocks
    rw [List.prod_cons] at hlength
    have hstart : q * (d :: B).prod = (q * d + 0) * B.prod := by
      rw [← RowMajor.block_start q d 0 B, Nat.zero_mul, Nat.add_zero]
    rw [hstart] at hbefore
    rw [XtypesToFastdds.encode]
    have hloop := XtypesToFastdds.setArrayData_outcome (ht.elementConvertsTo hcontent) rfl
      (blocksStored_cons fuel t B E) hq after hv.2 (show 0 + vs.length = d by omega) before blocks
      hbefore (by rw [hlength, hv.1]) hadmits
    refine hloop.imp fun r hr => ?_
    obtain ⟨stored, rfl, hstoredLength, hstoredAdmits, hstored⟩ := hr
    refine ⟨stored, rfl, ⟨by rw [hstoredLength, hv.1, List.prod_cons], hstoredAdmits⟩, ?_⟩
    intro bounds' indexes' q' hq' before' after' hbefore'
    have hstart' : q' * (d :: B).prod = (q' * d + 0) * B.prod := by
      rw [← RowMajor.block_start q' d 0 B, Nat.zero_mul, Nat.add_zero]
    rw [hstart'] at hbefore'
    have hback := FastddsToXtypes.setArrayData_outcome hq' after'
      (show 0 + vs.length = d by omega) before' stored hbefore' hstored
    rw [hv.1] at hback
    rw [DynamicType.default, FastddsToXtypes.decode]
    exact hback.bind_ok fun ws hws => by rw [hws]; rfl
  | leaf | map | struct | union => cases hv

end FastDdsSh
