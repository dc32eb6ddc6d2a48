import FastDdsSh.Conversion.Image

/-!
# Converting into data that was used before

A publisher, a server and a client keep one DDS data object for a type and convert every message
into it.  What was there before is either overwritten or cannot be observed.
-/

namespace FastDdsSh

open Lookup

variable [Xtypes] [Dds]

def Shows (t : DynamicType) (v : Value) (c : DdsData) : Prop :=
  t.image false v = [c.observable]

/-- Whatever has been converted into a component before, it shows the next value afterwards. -/
def Overwrites (t : DynamicType) : Prop :=
  ConvertsTo (fun t => t.Reusable false) Shows t

theorem overwrites_leafType (n : String) (l : LeafType) : Overwrites (.leafType n l) := by
  intro T p x v hT hv hfits hp hx
  cases hT
  cases v with
  | leaf content =>
    obtain ⟨y, rfl⟩ := hx
    rw [DynamicType.readable, DynamicType.leaves, List.all_cons, List.all_nil, Bool.and_true]
    refine (XtypesToFastdds.setLeaf_outcome content hp).imp fun r hr => ⟨_, hr, ⟨_, rfl⟩, ?_⟩
    rw [Shows, DynamicType.image, LeafType.stored_eq_cast hv]
    rfl
  | list | map | struct | union => cases hv

theorem overwrites_aliasType {t : DynamicType} (n : String) (h : Overwrites t) :
    Overwrites (.aliasType n t) := by
  intro T p x v hT hv hfits hp hx
  have hp' : p.Fits t := Place.fits_aliasType.mp hfits
  refine (h (T := T) hT hv hp' hp hx).imp fun r hr => ?_
  obtain ⟨c, hr, hc, hshows⟩ := hr
  exact ⟨c, hr, hc, hshows⟩

/-! ## New data -/

namespace XtypesToFastdds

def createsData : Place → Bool
  | .key _ | .arrayElement _ _ | .sequenceElement _ _ => true
  | _ => false

omit [Xtypes] in
theorem setNested_created {p : Place} (hp : createsData p = true) (T : DdsType)
    (convert : DdsData → Except Fault DdsData) :
    setNested p (some T) convert =
      (setNested (.whole T.createData) (some T) convert).map fun c =>
        p.data.setComplexValue c p.id := by
  cases p with
  | key | arrayElement | sequenceElement =>
    show (convert T.createData >>= fun created => .ok _) = (convert T.createData).map _
    cases convert T.createData with
    | error e => rfl
    | ok c => rfl
  | whole | member | entry => cases hp

/-- The conversion of a nested component does not look at what is at such a place. -/
theorem encode_created {t : DynamicType} {T : DdsType} (hT : t.getBuilder = some T)
    (hleaf : t.isLeaf = false) {p : Place} (hp : createsData p = true)
    (helement : ∀ output indexes, p = .arrayElement output indexes → t.isArray = false)
    (v : Value) :
    encode t v p = (encode t v (.whole T.createData)).map fun c =>
      p.data.setComplexValue c p.id := by
  induction t using DynamicType.resolve.induct with
  | case1 n t ih => exact ih hT hleaf helement
  | case2 t h =>
    cases t with
    | leafType n l => cases hleaf
    | bitsetType n => cases hT
    | aliasType n t => exact absurd rfl (h n t)
    | arrayType n t d =>
      cases v with
      | list vs =>
        -- an array that is an element is written in place, and does not come here
        cases p with
        | arrayElement output indexes => cases helement output indexes rfl
        | key | sequenceElement =>
          rw [encode, encode, hT]
          · exact setNested_created hp T _
          all_goals rintro _ _ ⟨⟩
        | whole | member | entry => cases hp
      | leaf | map | struct | union => rfl
    | sequenceType n t b =>
      cases v with
      | list vs =>
        rw [encode, encode, hT]
        exact setNested_created hp T _
      | leaf | map | struct | union => rfl
    | mapType n k t b =>
      cases v with
      | map es =>
        rw [encode, encode, hT]
        exact setNested_created hp T _
      | leaf | list | struct | union => rfl
    | structType n ms =>
      rw [encode, encode, hT]
      exact setNested_created hp T _
    | unionType n d ms cs =>
      cases v with
      | union x c w =>
        rw [encode, encode, hT]
        exact setNested_created hp T _
      | leaf | list | map | struct => rfl

end XtypesToFastdds

/-! ## Sequences and maps -/

omit [Xtypes] in
theorem flatMap_image_eq {t : DynamicType} {vs : List Value} {cs : List DdsData}
    (h : List.Forall₂ (Shows t) vs cs) :
    vs.flatMap (t.image false) = DdsData.observables cs := by
  induction h with
  | nil => rfl
  | @cons v c vs cs hc hcs ih =>
    rw [List.flatMap_cons, hc, ih]
    rfl

theorem overwrites_sequenceType {t : DynamicType} (n : String) (b : Nat)
    (hbuilt : t.isBuilt = true) (ht : Overwrites t) : Overwrites (.sequenceType n t b) := by
  intro T p x v hT hv hfits hp hx
  cases v with
  | list vs =>
    obtain ⟨E, hE, rfl⟩ := Option.map_eq_some_iff.mp hT
    have hkey := hfits.ne_key rfl
    have hfresh := (DynamicType.reusable_createData (t := .sequenceType n t b) hbuilt).1 _ hT
    rw [XtypesToFastdds.encode, hT]
    refine XtypesToFastdds.setNested_outcome hp hkey hx hfresh fun y hy => ?_
    obtain ⟨cs, rfl⟩ := hy
    rw [DynamicType.ddsType_of_getBuilder hT]
    have hcreated := (DynamicType.reusable_createData hbuilt).1 E hE
    refine (XtypesToFastdds.setSequenceData_outcome ht hE hcreated hv []).imp fun r hr => ?_
    obtain ⟨ds, rfl, hds⟩ := hr
    -- `clear_all_values` has removed the elements of earlier conversions
    refine ⟨⟨ds, by rw [DynamicType.ddsType_of_getBuilder hT]; rfl⟩, ?_⟩
    rw [Shows, DynamicType.image, flatMap_image_eq hds, DynamicType.ddsType_of_getBuilder hT]
    rfl
  | leaf | map | struct | union => cases hv

omit [Xtypes] in
theorem image_of_leaf {k : DynamicType} {n : String} {l : LeafType}
    (hk : k.resolve = .leafType n l) (content : CppValue) :
    k.image false (.leaf content) = [.leaf (l.getBuilder n) (l.ddsCppType.cast content)] := by
  induction k using DynamicType.resolve.induct with
  | case1 n t ih => exact ih hk
  | case2 t h =>
    have ht : t.resolve = t := by
      rw [DynamicType.resolve]
      exact h
    rw [ht] at hk
    rw [hk]
    rfl

/-- A map from leaves keeps all entries. -/
theorem overwrites_mapType_leaf {k t : DynamicType} (n : String) (b : Nat) (hk : k.isLeaf = true)
    (hbuilt : (DynamicType.mapType n k t b).isBuilt = true) (ht : Overwrites t) :
    Overwrites (.mapType n k t b) := by
  intro T p x v hT hv hfits hp hx
  cases v with
  | map es =>
    obtain ⟨n', l, hl⟩ := DynamicType.resolve_of_isLeaf hk
    have hK := getBuilder_of_resolve_leaf hl
    obtain ⟨K, hK', hT'⟩ := Option.bind_eq_some_iff.mp hT
    obtain ⟨V, hV, rfl⟩ := Option.map_eq_some_iff.mp hT'
    rw [hK] at hK'
    cases hK'
    have hkey := hfits.ne_key rfl
    have hfresh := (DynamicType.reusable_createData hbuilt).1 _ hT
    rw [DynamicType.isBuilt, Bool.and_eq_true] at hbuilt
    rw [DynamicType.admits, Bool.and_eq_true] at hv
    have hdistinct : (es.map Prod.fst).Nodup := of_decide_eq_true hv.2
    rw [XtypesToFastdds.encode, hT, hK, hV]
    refine XtypesToFastdds.setNested_outcome hp hkey hx hfresh fun y hy => ?_
    obtain ⟨cs, rfl⟩ := hy
    rw [DynamicType.ddsType_of_getBuilder hT]
    have hcreated := (DynamicType.reusable_createData hbuilt.2).1 V hV
    refine (XtypesToFastdds.setMapData_outcome hl ht hV hcreated hv.1 hdistinct [] (by simp)).imp
      fun r hr => ?_
    obtain ⟨qs, rfl, hqs⟩ := hr
    refine ⟨⟨_, by rw [DynamicType.ddsType_of_getBuilder hT]⟩, ?_⟩
    -- each key is read back as it was stored, and each value shows
    have hentries : (es.flatMap fun e => k.image false e.1 ++ t.image false e.2) =
        DdsData.observables (mapComponents (l.getBuilder n') qs) := by
      clear hT' hT hv hdistinct hp hx
      induction hqs with
      | nil => rfl
      | @cons e q es qs he hqs ih =>
        obtain ⟨⟨content, hcontent, hadmits, hstored⟩, hvalue⟩ := he
        rw [List.flatMap_cons, hcontent, image_of_leaf hl, hvalue, ih,
          ← LeafType.stored_eq_cast hadmits .entry, ← hstored]
        rfl
    rw [Shows, DynamicType.image, if_pos hk, hentries, DynamicType.ddsType_of_getBuilder hT]
    rfl
  | leaf | list | struct | union => cases hv

/-- A key that is no leaf is converted into data that is then thrown away. -/
theorem encode_compositeKey {k : DynamicType} {K : DdsType} (hK : k.getBuilder = some K)
    (hleaf : k.isLeaf = false) (v : Value) :
    XtypesToFastdds.encode k v (.key K.createData) =
      (XtypesToFastdds.encode k v (.whole K.createData)).map fun _ => K.createData :=
  XtypesToFastdds.encode_created hK hleaf rfl (fun _ _ h => by cases h) v

theorem encode_compositeKey_outcome {k : DynamicType} {K : DdsType} (hK : k.getBuilder = some K)
    (hleaf : k.isLeaf = false) (hbuilt : k.isBuilt = true) (hk : Overwrites k) {v : Value}
    (hv : k.admits v = true) :
    Outcome .exception (k.readable .entry v) (· = K.createData)
      (XtypesToFastdds.encode k v (.key K.createData)) := by
  rw [encode_compositeKey hK hleaf]
  have hfresh := (DynamicType.reusable_createData hbuilt).1 K hK
  exact (hk (p := .whole K.createData) hK hv trivial rfl hfresh).map fun _ _ => rfl

section CompositeKeys

variable {k t : DynamicType} {K V : DdsType} {b : Nat}

/-- Once there is an entry with the fresh key, all others are refused. -/
theorem setMapData_refused (hK : k.getBuilder = some K) (hleaf : k.isLeaf = false)
    (hbuilt : k.isBuilt = true) (hk : Overwrites k) (hV : t.getBuilder = some V)
    (hbuiltValue : t.isBuilt = true) (ht : Overwrites t) (c : DdsData) {es : List (Value × Value)}
    (hes : es.all (fun e => k.admits e.1 && t.admits e.2) = true) :
    Outcome .exception
      ((es.flatMap fun e => k.leaves .entry e.1 ++ t.leaves .entry e.2).all
        fun o => o.2.readable o.1)
      (· = .composite (.map K V b) [K.createData, c])
      (XtypesToFastdds.setMapData (fun v output => XtypesToFastdds.encode k v (.key output))
        (fun v output => XtypesToFastdds.encode t v (.whole output)) (some K) (some V) es
        (.composite (.map K V b) [K.createData, c])) := by
  induction es with
  | nil => exact Outcome.ok rfl
  | cons e es ih =>
    obtain ⟨kv, v⟩ := e
    rw [List.all_cons, Bool.and_eq_true, Bool.and_eq_true] at hes
    obtain ⟨⟨hkv, hv⟩, hes⟩ := hes
    rw [List.flatMap_cons, List.all_append, List.all_append, Bool.and_assoc]
    refine (encode_compositeKey_outcome hK hleaf hbuilt hk hkv).bind fun keyData hkeyData => ?_
    have hfresh := (DynamicType.reusable_createData hbuiltValue).1 V hV
    refine (ht (p := .whole V.createData) hV hv trivial rfl hfresh).bind
      fun valueData hvalueData => ?_
    -- the key is the fresh one again, which is there
    have hrefused : (DdsData.composite (.map K V b) [K.createData, c]).insertMapData keyData
        valueData = .composite (.map K V b) [K.createData, c] := by
      rw [hkeyData]
      refine if_pos ?_
      show (K.createData.equals K.createData || _) = true
      rw [DdsData.equals_refl, Bool.true_or]
    rw [hrefused]
    exact ih hes

/-- Of a map from anything but leaves the first entry is kept. -/
theorem setMapData_firstEntry (hK : k.getBuilder = some K) (hleaf : k.isLeaf = false)
    (hbuilt : k.isBuilt = true) (hk : Overwrites k) (hV : t.getBuilder = some V)
    (hbuiltValue : t.isBuilt = true) (ht : Overwrites t) {es : List (Value × Value)}
    (hes : es.all (fun e => k.admits e.1 && t.admits e.2) = true) :
    Outcome .exception
      ((es.flatMap fun e => k.leaves .entry e.1 ++ t.leaves .entry e.2).all
        fun o => o.2.readable o.1)
      (fun r => ∃ cs, r = .composite (.map K V b) cs ∧
        ((es.take 1).flatMap fun e => K.createData.observable :: t.image false e.2) =
          DdsData.observables cs)
      (XtypesToFastdds.setMapData (fun v output => XtypesToFastdds.encode k v (.key output))
        (fun v output => XtypesToFastdds.encode t v (.whole output)) (some K) (some V) es
        (.composite (.map K V b) [])) := by
  cases es with
  | nil => exact Outcome.ok ⟨[], rfl, rfl⟩
  | cons e es =>
    obtain ⟨kv, v⟩ := e
    rw [List.all_cons, Bool.and_eq_true, Bool.and_eq_true] at hes
    obtain ⟨⟨hkv, hv⟩, hes⟩ := hes
    rw [List.flatMap_cons, List.all_append, List.all_append, Bool.and_assoc]
    refine (encode_compositeKey_outcome hK hleaf hbuilt hk hkv).bind fun keyData hkeyData => ?_
    have hfresh := (DynamicType.reusable_createData hbuiltValue).1 V hV
    refine (ht (p := .whole V.createData) hV hv trivial rfl hfresh).bind
      fun valueData hvalueData => ?_
    -- the first entry finds no key, and what comes after it is refused
    obtain ⟨c, hc, -, hshows⟩ := hvalueData
    have hvalue : valueData = c := hc
    rw [hkeyData, hvalue]
    refine (setMapData_refused hK hleaf hbuilt hk hV hbuiltValue ht c hes).imp fun r hr => ?_
    refine ⟨[K.createData, c], hr, ?_⟩
    rw [List.take_succ_cons, List.take_zero, List.flatMap_singleton, hshows]
    rfl

end CompositeKeys

theorem overwrites_mapType_composite {k t : DynamicType} (n : String) (b : Nat)
    (hleaf : k.isLeaf = false) (hbuilt : (DynamicType.mapType n k t b).isBuilt = true)
    (hk : Overwrites k) (ht : Overwrites t) : Overwrites (.mapType n k t b) := by
  intro T p x v hT hv hfits hp hx
  cases v with
  | map es =>
    obtain ⟨K, hK, hT'⟩ := Option.bind_eq_some_iff.mp hT
    obtain ⟨V, hV, rfl⟩ := Option.map_eq_some_iff.mp hT'
    have hkey := hfits.ne_key rfl
    have hfresh := (DynamicType.reusable_createData hbuilt).1 _ hT
    rw [DynamicType.isBuilt, Bool.and_eq_true] at hbuilt
    rw [DynamicType.admits, Bool.and_eq_true] at hv
    rw [XtypesToFastdds.encode, hT, hK, hV]
    refine XtypesToFastdds.setNested_outcome hp hkey hx hfresh fun y hy => ?_
    obtain ⟨cs, rfl⟩ := hy
    rw [DynamicType.ddsType_of_getBuilder hT]
    refine (setMapData_firstEntry hK hleaf hbuilt.1 hk hV hbuilt.2 ht hv.1).imp fun r hr => ?_
    obtain ⟨ds, rfl, hentries⟩ := hr
    refine ⟨⟨ds, by rw [DynamicType.ddsType_of_getBuilder hT]⟩, ?_⟩
    rw [Shows, DynamicType.image, hleaf, if_neg Bool.false_ne_true,
      DynamicType.ddsType_of_getBuilder hT, DynamicType.ddsType_of_getBuilder hK, hentries]
    rfl
  | leaf | list | struct | union => cases hv

/-! ## Arrays -/

def ElementOverwrites (t : DynamicType) : Prop :=
  ∀ ⦃B : List Nat⦄ ⦃E : DdsType⦄, ArrayContent t B E →
    ElementConvertsTo (t.Reusable true)
      (fun v block => t.image true v = DdsData.observables block) t B E

/-- At indexes at which there is no component nothing is written.  An array that is an element puts
its own indexes behind the ones given. -/
def Idles (t : DynamicType) : Prop :=
  ∀ ⦃v : Value⦄, t.admits v = true → ∀ (T : DdsType) (cs : List DdsData) (indexes : List Nat),
    (∀ more, (t.isArray = true → more ≠ []) →
      (DdsData.composite T cs).getArrayIndex (indexes ++ more) = none) →
    Outcome .exception (t.readable .arrayElement v) (· = .composite T cs)
      (XtypesToFastdds.encode t v (.arrayElement (.composite T cs) indexes))

theorem elementOverwrites_of_overwrites {t : DynamicType} (ht : t.isArray = false)
    (h : Overwrites t) : ElementOverwrites t := by
  intro B E hcontent
  apply elementConvertsTo_of_convertsTo ht h hcontent
  · exact DynamicType.reusable_inArray ht
  · intro v c hc
    rw [DynamicType.image_inArray ht, hc]
    rfl

theorem idles_leafType (n : String) (l : LeafType) : Idles (.leafType n l) := by
  intro v hv T cs indexes hnone
  have hid := hnone [] (fun h => by cases h)
  rw [List.append_nil] at hid
  cases v with
  | leaf content =>
    rw [DynamicType.readable, DynamicType.leaves, List.all_cons, List.all_nil, Bool.and_true]
    show Outcome _ _ _ (XtypesToFastdds.setLeaf l (.leaf content) _)
    unfold XtypesToFastdds.setLeaf LeafType.readable LeafType.valueAs
    show Outcome _ (l.accessibleAs (l.readAs .arrayElement)) _ _
    rw [Place.position, Place.id, hid]
    -- the value is read before the setter is called, so an unreadable one still throws
    cases l.accessibleAs (l.readAs .arrayElement) with
    | false => rfl
    | true => exact Outcome.ok rfl
  | list | map | struct | union => cases hv

omit [Dds] in
/-- Only for a leaf it matters where it is. -/
theorem DynamicType.readable_position {t : DynamicType} (h : t.isLeaf = false) (p q : Position)
    (v : Value) : t.readable p v = t.readable q v := by
  induction t using DynamicType.resolve.induct with
  | case1 n t ih => exact ih h
  | case2 t hnot =>
    cases t with
    | leafType n l => cases h
    | aliasType n t => exact absurd rfl (hnot n t)
    | bitsetType | arrayType | sequenceType | mapType | structType | unionType =>
      cases v <;> rfl

theorem idles_of_overwrites {t : DynamicType} (hbuilt : t.isBuilt = true) (hleaf : t.isLeaf = false)
    (ht : t.isArray = false) (h : Overwrites t) : Idles t := by
  intro v hv T cs indexes hnone
  obtain ⟨E, hE⟩ := Option.isSome_iff_exists.mp (DynamicType.getBuilder_isSome_of_isBuilt hbuilt)
  have hid := hnone [] (fun harray => by rw [ht] at harray; cases harray)
  rw [List.append_nil] at hid
  rw [XtypesToFastdds.encode_created hE hleaf rfl (fun _ _ _ => ht),
    DynamicType.readable_position hleaf .arrayElement .entry]
  have hfresh := (DynamicType.reusable_createData hbuilt).1 E hE
  -- the element is converted into new data, which is then set nowhere
  refine (h (p := .whole E.createData) hE hv trivial rfl hfresh).map fun c _ => ?_
  rw [Place.id, hid]
  rfl

theorem setArrayData_idles {t : DynamicType} (h : Idles t) {T : DdsType} {cs : List DdsData}
    {indexes : List Nat}
    (hnone : ∀ i more, (DdsData.composite T cs).getArrayIndex (indexes ++ i :: more) = none)
    {vs : List Value} (hvs : vs.all t.admits = true) (idx : Nat) :
    Outcome .exception ((vs.flatMap (t.leaves .arrayElement)).all fun o => o.2.readable o.1)
      (· = .composite T cs)
      (XtypesToFastdds.setArrayData
        (fun v output indexes => XtypesToFastdds.encode t v (.arrayElement output indexes))
        indexes vs
        idx (.composite T cs)) := by
  induction vs generalizing idx with
  | nil => exact Outcome.ok rfl
  | cons v vs ih =>
    rw [List.all_cons, Bool.and_eq_true] at hvs
    rw [List.flatMap_cons, List.all_append]
    -- one more index does not make them lead anywhere
    have hfirst := h hvs.1 T cs (indexes ++ [idx]) fun more _ => by
      rw [List.append_assoc, List.singleton_append]
      exact hnone idx more
    refine hfirst.bind fun r hr => ?_
    rw [hr]
    exact ih hvs.2 (idx + 1)

theorem idles_arrayType {t : DynamicType} (n : String) (d : Nat) (h : Idles t) :
    Idles (.arrayType n t d) := by
  intro v hv T cs indexes hnone
  cases v with
  | list vs =>
    rw [DynamicType.admits, Bool.and_eq_true] at hv
    rw [XtypesToFastdds.encode]
    exact setArrayData_idles h
      (fun i more => hnone (i :: more) fun _ => List.cons_ne_nil _ _) hv.2 0
  | leaf | map | struct | union => cases hv

/-- An alias of an array is given more indexes than the array around it has dimensions. -/
theorem elementOverwrites_aliasType {t : DynamicType} (n : String) (ht : t.isArray = true)
    (h : Idles t) : ElementOverwrites (.aliasType n t) := by
  intro B E hcontent v hv bounds indexes q hq before block after hbefore hlength hblock
  obtain ⟨rfl, hE⟩ : B = [] ∧ t.getBuilder = some E := hcontent
  obtain ⟨x, rfl⟩ := List.length_eq_one_iff.mp hlength
  have hfresh : x = t.ddsType.createData := by
    have hx := hblock x List.mem_cons_self
    rw [DynamicType.Reusable, ht, Bool.and_self, if_pos rfl] at hx
    exact hx
  rw [List.append_nil]
  -- the alias has dimensions of its own, for which the array around it has no indexes
  have hidle := h hv (.array E bounds) (before ++ ([x] ++ after)) indexes fun more hmore =>
    RowMajor.index_append_eq_none hq (hmore ht)
  refine hidle.imp fun r hr => ⟨[x], hr, rfl, hblock, ?_⟩
  show (DynamicType.aliasType n t).image true v = DdsData.observables [x]
  rw [DynamicType.image, ht, Bool.and_self, if_pos rfl, hfresh]
  rfl

omit [Xtypes] [Dds] in
theorem observables_append (cs ds : List DdsData) :
    DdsData.observables (cs ++ ds) = DdsData.observables cs ++ DdsData.observables ds := by
  rw [DdsData.observables_eq_map, DdsData.observables_eq_map, DdsData.observables_eq_map,
    List.map_append]

omit [Xtypes] in
theorem flatMap_image_cons (t : DynamicType) (v : Value) (block : List DdsData) (vs : List Value)
    (rest : List DdsData) (hblock : t.image true v = DdsData.observables block)
    (hrest : vs.flatMap (t.image true) = DdsData.observables rest) :
    (v :: vs).flatMap (t.image true) = DdsData.observables (block ++ rest) := by
  rw [List.flatMap_cons, hblock, hrest, observables_append]

theorem overwrites_arrayType {t : DynamicType} (n : String) (d : Nat) (hbuilt : t.isBuilt = true)
    (ht : ElementOverwrites t) : Overwrites (.arrayType n t d) := by
  intro T p x v hT hv hfits hp hx
  cases v with
  | list vs =>
    obtain ⟨B, E, hcontent, rfl⟩ := arrayContent_of_getBuilder hT
    rw [DynamicType.admits, Bool.and_eq_true, decide_eq_true_eq] at hv
    have hkey := hfits.ne_key rfl
    have hfresh := (DynamicType.reusable_createData (t := .arrayType n t d) hbuilt).1 _ hT
    have hnested := XtypesToFastdds.setNested_outcome
      (Q := fun c => (DynamicType.arrayType n t d).Reusable false c ∧
        Shows (.arrayType n t d) (.list vs) c) hp hkey hx hfresh fun y hy => by
      obtain ⟨E', bounds, cs, hT', rfl, hlength, hreusable⟩ := hy
      rw [hT] at hT'
      cases hT'
      -- the loop over the elements covers the whole array, one block for each
      have hloop := XtypesToFastdds.setArrayData_outcome (ht hcontent)
        (R := fun vs cs => vs.flatMap (t.image true) = DdsData.observables cs) rfl
        (fun v block vs rest _ => flatMap_image_cons t v block vs rest)
        (show RowMajor.index [] [] = some 0 from rfl) [] hv.2 (show 0 + vs.length = d by omega) []
        cs (by simp) (by rw [hlength, hv.1, List.prod_cons]) hreusable
      rw [List.nil_append, List.nil_append, List.append_nil] at hloop
      refine hloop.imp fun r hr => ?_
      obtain ⟨stored, rfl, hstoredLength, hstoredReusable, hstored⟩ := hr
      rw [List.nil_append, List.append_nil]
      refine ⟨⟨E, d :: B, stored, hT, rfl, ?_, hstoredReusable⟩, ?_⟩
      · rw [hstoredLength, hv.1, List.prod_cons]
      · rw [Shows, DynamicType.image, if_neg Bool.false_ne_true, hstored,
          DynamicType.ddsType_of_getBuilder hT]
        rfl
    cases p with
    | arrayElement => cases hfits
    | whole | key | entry | member | sequenceElement =>
      rw [XtypesToFastdds.encode, hT]
      · exact hnested
      · rintro _ _ ⟨⟩
  | leaf | map | struct | union => cases hv

theorem elementOverwrites_arrayType {t : DynamicType} (n : String) (d : Nat)
    (ht : ElementOverwrites t) : ElementOverwrites (.arrayType n t d) := by
  intro B' E hbuilder v hv bounds indexes q hq before blocks after hbefore hlength hblocks
  cases v with
  | list vs =>
    obtain ⟨B, E', hcontent, heq⟩ := arrayContent_of_getBuilder
      (show (DynamicType.arrayType n t d).getBuilder = some (.array E B') from hbuilder)
    cases heq
    rw [DynamicType.admits, Bool.and_eq_true, decide_eq_true_eq] at hv
    rw [List.prod_cons] at hlength
    -- the block of the array begins with the block of its first element
    have hstart : q * (d :: B).prod = (q * d + 0) * B.prod := by
      rw [← RowMajor.block_start q d 0 B, Nat.zero_mul, Nat.add_zero]
    rw [hstart] at hbefore
    have hreusable : ∀ c ∈ blocks, t.Reusable true c := by
      intro c hc
      have hc' := hblocks c hc
      rw [DynamicType.Reusable, if_pos rfl] at hc'
      exact hc'
    rw [XtypesToFastdds.encode]
    have hloop := XtypesToFastdds.setArrayData_outcome (ht hcontent)
      (R := fun vs cs => vs.flatMap (t.image true) = DdsData.observables cs) rfl
      (fun v block vs rest _ => flatMap_image_cons t v block vs rest) hq after hv.2
      (show 0 + vs.length = d by omega) before blocks hbefore (by rw [hlength, hv.1]) hreusable
    refine hloop.imp fun r hr => ?_
    obtain ⟨stored, rfl, hstoredLength, hstoredReusable, hstored⟩ := hr
    refine ⟨stored, rfl, by rw [hstoredLength, hv.1, List.prod_cons], ?_, ?_⟩
    · intro c hc
      rw [DynamicType.Reusable, if_pos rfl]
      exact hstoredReusable c hc
    · show (DynamicType.arrayType n t d).image true (.list vs) = DdsData.observables stored
      rw [DynamicType.image, if_pos rfl, hstored]
  | leaf | map | struct | union => cases hv

/-! ## Structures and unions -/

omit [Xtypes] in
theorem imageOfMembers_cons (m : String) (t : DynamicType) (v : Value) (c : DdsData)
    (ms : List (String × DynamicType)) (fields : List (String × Value)) (cs : List DdsData)
    (hc : Shows t v c) (hcs : DynamicType.imageOfMembers ms fields = DdsData.observables cs) :
    DynamicType.imageOfMembers ((m, t) :: ms) ((m, v) :: fields) =
      DdsData.observables (c :: cs) := by
  rw [DynamicType.imageOfMembers, hc, hcs]
  rfl

theorem overwrites_structType {ms : List (String × DynamicType)} (n : String)
    (hbuilt : (DynamicType.structType n ms).isBuilt = true)
    (hms : ∀ m ∈ ms, Overwrites m.2) : Overwrites (.structType n ms) := by
  intro T p x v hT hv hfits hp hx
  cases v with
  | struct fields =>
    have hfresh := (DynamicType.reusable_createData hbuilt).1 _ hT
    cases hT
    have hkey := hfits.ne_key rfl
    rw [DynamicType.isBuilt, Bool.and_eq_true, decide_eq_true_eq] at hbuilt
    have hbuilders := DynamicType.getBuilder_isSome_of_areBuilt hbuilt.2
    rw [XtypesToFastdds.encode, DynamicType.getBuilder]
    refine XtypesToFastdds.setNested_outcome hp hkey hx hfresh fun y hy => ?_
    obtain ⟨cs, rfl, hcs⟩ := hy
    -- every member is built, so the DDS type has the members of the same names
    have hdds : (([] ++ DynamicType.getMemberBuilders ms).map Prod.fst).Nodup := by
      rw [List.nil_append, DynamicType.map_fst_getMemberBuilders hbuilders]
      exact hbuilt.1
    have hfields : (fields.map Prod.fst).Nodup := by
      rw [DynamicType.map_fst_of_admitsFields hv]
      exact hbuilt.1
    have hloop := XtypesToFastdds.setStructData_outcome hms hbuilders
      (R := fun ms fields cs => DynamicType.imageOfMembers ms fields = DdsData.observables cs) rfl
      imageOfMembers_cons hdds hv (fun f hf => lookup_of_mem hfields hf) [] cs rfl
      (DynamicType.reusableMembers_iff.mp hcs)
    refine hloop.imp fun r hr => ?_
    obtain ⟨stored, rfl, hreusable, hmembers⟩ := hr
    refine ⟨⟨stored, rfl, DynamicType.reusableMembers_iff.mpr hreusable⟩, ?_⟩
    rw [Shows, DynamicType.image, hmembers]
    rfl
  | leaf | list | map | union => cases hv

omit [Xtypes] in
theorem imageOfCase_eq {ms : List (String × DynamicType)} {c : String} {t : DynamicType}
    (h : ms.lookup c = some t) (v : Value) :
    DynamicType.imageOfCase ms c v = t.image false v := by
  apply eq_of_lookup _ h
  intro m t ms
  rw [DynamicType.imageOfCase]

theorem overwrites_unionType {ms : List (String × DynamicType)} (n : String) (d : DynamicType)
    (cases' : List UnionCase) (hbuilt : (DynamicType.unionType n d ms cases').isBuilt = true)
    (hms : ∀ m ∈ ms, Overwrites m.2) : Overwrites (.unionType n d ms cases') := by
  intro U p x v hU hv hfits hp hx
  cases v with
  | union k c w =>
    have hfresh := (DynamicType.reusable_createData hbuilt).1 _ hU
    have hkey := hfits.ne_key rfl
    rw [DynamicType.isBuilt, Bool.and_eq_true] at hbuilt
    have hbuilders := DynamicType.getBuilder_isSome_of_areBuilt hbuilt.2
    obtain ⟨mt, hc, hw⟩ := DynamicType.exists_lookup_of_admitsCase hv
    obtain ⟨i, T, hT, hmember, hid, hi⟩ := DynamicType.getMemberBuilders_of_lookup hbuilders hc
    obtain ⟨D, labels, rfl⟩ :
        ∃ D labels, U = .union D (DynamicType.getMemberBuilders ms) labels := by
      obtain ⟨D, -, hunion⟩ := Option.map_eq_some_iff.mp hU
      exact ⟨D, _, hunion.symm⟩
    rw [XtypesToFastdds.encode, hU]
    refine XtypesToFastdds.setNested_outcome hp hkey hx hfresh fun y hy => ?_
    obtain ⟨k', a, components, rfl, hdiscriminator, hcomponents⟩ := hy
    rw [DynamicType.ddsType_of_getBuilder hU] at hdiscriminator ⊢
    rw [DynamicType.reusableMembers_iff] at hcomponents
    obtain ⟨z, hz, hreusable⟩ := forall₂_getElem? hcomponents hmember
    rw [XtypesToFastdds.setDiscriminator_union, XtypesToFastdds.setUnionData_of_lookup hc,
      DynamicType.readable, DynamicType.leaves, DynamicType.leavesOfCase_eq hc]
    -- the discriminator, which is converted unless its type has no case in the switch
    generalize hk'' : (if d.isDiscriminator then (k % 2 ^ 64).toNat else k') = k''
    have hid' : (DdsData.union (.union D (DynamicType.getMemberBuilders ms) labels) k'' a
        components).getMemberIdByName c = some i := hid
    have hholds : (Place.member (.union (.union D (DynamicType.getMemberBuilders ms) labels) k'' a
        components) (some i) true).Holds T z := ⟨Option.some_ne_none i, hz, c, hi⟩
    rw [hid']
    refine (hms _ (mem_of_lookup hc) (p := .member _ _ true) hT hw trivial hholds hreusable).imp
      fun r hr => ?_
    obtain ⟨y, rfl, hy, hshows⟩ := hr
    obtain ⟨hlength, -⟩ := List.getElem?_eq_some_iff.mp hz
    -- the case becomes active, and the components of the other cases stay unobserved
    have hput : (Place.member (.union (.union D (DynamicType.getMemberBuilders ms) labels) k'' a
        components) (some i) true).put y =
          .union (.union D (DynamicType.getMemberBuilders ms) labels) k'' (some i)
            (components.set i y) := if_pos hlength
    rw [hput]
    constructor
    · refine ⟨k'', some i, _, by rw [DynamicType.ddsType_of_getBuilder hU], ?_,
        DynamicType.reusableMembers_iff.mpr (forall₂_set hcomponents hmember hy)⟩
      intro hnot
      rw [← hk'', hnot, if_neg Bool.false_ne_true, DynamicType.ddsType_of_getBuilder hU]
      exact hdiscriminator hnot
    · rw [Shows, DynamicType.image, DynamicType.ddsType_of_getBuilder hU, imageOfCase_eq hc, hshows,
        DdsData.observable, DdsData.activeObservable_of_getElem? (List.getElem?_set_self hlength)]
      have hactive : (DdsType.union D (DynamicType.getMemberBuilders ms) labels).members.findIdx?
          (fun m => m.1 = c) = some i := hid
      rw [hactive, ← hk'']
      by_cases hd : d.isDiscriminator = true
      · rw [if_pos hd, if_pos hd]
      · rw [if_neg hd, if_neg hd, hdiscriminator (Bool.not_eq_true _ ▸ hd)]
  | leaf | list | map | struct => cases hv

/-! ## Every type -/

theorem overwrites_of_isBuilt {t : DynamicType} (h : t.isBuilt = true) :
    Overwrites t ∧ ElementOverwrites t ∧ Idles t := by
  -- for all types but arrays an element is like any other component
  have hother {t : DynamicType} (hbuilt : t.isBuilt = true) (hleaf : t.isLeaf = false)
      (hnot : t.isArray = false) (ht : Overwrites t) :
      Overwrites t ∧ ElementOverwrites t ∧ Idles t :=
    ⟨ht, elementOverwrites_of_overwrites hnot ht, idles_of_overwrites hbuilt hleaf hnot ht⟩
  induction t using DynamicType.inductionOn with
  | leafType n l =>
    have hleaf := overwrites_leafType n l
    exact ⟨hleaf, elementOverwrites_of_overwrites rfl hleaf, idles_leafType n l⟩
  | bitsetType n => cases h
  -- an alias of an array is the one type that differs as an element
  | aliasType n t ih =>
    obtain ⟨hwhole, -, hidles⟩ := ih h
    have halias := overwrites_aliasType n hwhole
    refine ⟨halias, ?_, hidles⟩
    by_cases ht : t.isArray = true
    · exact elementOverwrites_aliasType n ht hidles
    · exact elementOverwrites_of_overwrites (Bool.not_eq_true _ ▸ ht) halias
  | arrayType n t d ih =>
    obtain ⟨-, helement, hidles⟩ := ih h
    exact ⟨overwrites_arrayType n d h helement, elementOverwrites_arrayType n d helement,
      idles_arrayType n d hidles⟩
  | sequenceType n t b ih => exact hother h rfl rfl (overwrites_sequenceType n b h (ih h).1)
  | mapType n k t b ihk iht =>
    have hboth := h
    rw [DynamicType.isBuilt, Bool.and_eq_true] at hboth
    by_cases hk : k.isLeaf = true
    · exact hother h rfl rfl (overwrites_mapType_leaf n b hk h (iht hboth.2).1)
    · exact hother h rfl rfl (overwrites_mapType_composite n b (Bool.not_eq_true _ ▸ hk) h
        (ihk hboth.1).1 (iht hboth.2).1)
  | structType n ms ih =>
    have hms := h
    rw [DynamicType.isBuilt, Bool.and_eq_true] at hms
    exact hother h rfl rfl (overwrites_structType n h fun m hm =>
      (ih m hm (DynamicType.isBuilt_of_mem hms.2 hm)).1)
  | unionType n d ms cs ihd ih =>
    have hms := h
    rw [DynamicType.isBuilt, Bool.and_eq_true] at hms
    exact hother h rfl rfl (overwrites_unionType n d cs h fun m hm =>
      (ih m hm (DynamicType.isBuilt_of_mem hms.2 hm)).1)

def convertAll (t : DynamicType) : List Value → DdsData → Except Fault DdsData
  | [], data => .ok data
  | v :: vs, data => do
      let converted ← xtypesToFastdds t v data
      convertAll t vs converted.2

def observed (r : Except Fault (Bool × DdsData)) : Except Fault (Bool × DdsData) :=
  r.map fun converted => (converted.1, converted.2.observable)

/-- One conversion into data that was used before. -/
theorem xtypesToFastdds_outcome {t : DynamicType} {T : DdsType} (hbuilt : t.isBuilt = true)
    (hT : t.getBuilder = some T) (hroot : t.resolve.isAggregation = true) {v : Value}
    (hv : t.admits v = true) {data : DdsData} (hdata : t.Reusable false data) :
    Outcome .exception (t.readable .entry v)
      (fun r => r.1 = true ∧ t.Reusable false r.2 ∧ Shows t v r.2) (xtypesToFastdds t v data) := by
  rw [xtypesToFastdds_of_isAggregation hroot]
  have hconvert := (overwrites_of_isBuilt hbuilt).1 (p := .whole data) hT hv trivial rfl hdata
  refine hconvert.bind_ok fun r hr => ?_
  obtain ⟨c, hc, hreusable, hshows⟩ := hr
  have hput : r = c := hc
  rw [hput]
  exact ⟨rfl, hreusable, hshows⟩

theorem reusable_convertAll {t : DynamicType} {T : DdsType} (hbuilt : t.isBuilt = true)
    (hT : t.getBuilder = some T) (hroot : t.resolve.isAggregation = true) {ms : List Value}
    (hms : ∀ m ∈ ms, t.admits m = true) {data data' : DdsData} (hdata : t.Reusable false data)
    (hrun : convertAll t ms data = .ok data') : t.Reusable false data' := by
  induction ms generalizing data with
  | nil =>
    cases hrun
    exact hdata
  | cons m ms ih =>
    have hfirst := xtypesToFastdds_outcome hbuilt hT hroot (hms m List.mem_cons_self) hdata
    rw [convertAll] at hrun
    cases hreadable : t.readable .entry m with
    | false =>
      rw [hreadable] at hfirst
      -- the run is over with the exception
      have herror : xtypesToFastdds t m data = .error .exception := hfirst
      rw [herror] at hrun
      cases hrun
    | true =>
      rw [hreadable] at hfirst
      obtain ⟨r, hr, -, hreusable, -⟩ := hfirst
      rw [hr] at hrun
      exact ih (fun m hm => hms m (List.mem_cons_of_mem _ hm)) hreusable hrun

theorem convertAll_of_not_isAggregation {t : DynamicType} (h : t.resolve.isAggregation = false)
    (ms : List Value) (data : DdsData) : convertAll t ms data = .ok data := by
  induction ms with
  | nil => rfl
  | cons m ms ih =>
    rw [convertAll, xtypesToFastdds_of_not_isAggregation h]
    exact ih

/-- What a conversion leaves in the data does not depend on the values converted before. -/
theorem observed_after_convertAll {t : DynamicType} {T : DdsType} (hbuilt : t.isBuilt = true)
    (hT : t.getBuilder = some T) {ms : List Value} (hms : ∀ m ∈ ms, t.admits m = true) {m : Value}
    (hm : t.admits m = true) {data : DdsData} (hrun : convertAll t ms T.createData = .ok data) :
    observed (xtypesToFastdds t m data) = observed (xtypesToFastdds t m T.createData) := by
  by_cases hroot : t.resolve.isAggregation = true
  · have hfresh := (DynamicType.reusable_createData hbuilt).1 T hT
    have hdata := reusable_convertAll hbuilt hT hroot hms hfresh hrun
    have hlast := xtypesToFastdds_outcome hbuilt hT hroot hm hdata
    have halone := xtypesToFastdds_outcome hbuilt hT hroot hm hfresh
    -- whether the conversion throws is up to the value alone
    cases hreadable : t.readable .entry m with
    | false =>
      rw [hreadable] at hlast halone
      rw [show xtypesToFastdds t m data = .error .exception from hlast,
        show xtypesToFastdds t m T.createData = .error .exception from halone]
    | true =>
      rw [hreadable] at hlast halone
      obtain ⟨r, hr, hflag, -, hshows⟩ := hlast
      obtain ⟨s, hs, hflag', -, hshows'⟩ := halone
      have hcontent : [r.2.observable] = [s.2.observable] := hshows.symm.trans hshows'
      rw [hr, hs]
      show Except.ok (r.1, r.2.observable) = .ok (s.1, s.2.observable)
      rw [hflag, hflag', List.singleton_inj.mp hcontent]
  · rw [Bool.not_eq_true] at hroot
    rw [convertAll_of_not_isAggregation hroot] at hrun
    cases hrun
    rfl

def batchType : DynamicType :=
  .structType "Batch"
    [("readings", .sequenceType "Readings" (.leafType "int16" .int16) 0),
      ("origin", .unionType "Origin" (.leafType "int32" .int32)
        [("number", .leafType "int16" .int16), ("word", .leafType "string" (.string 0))]
        [⟨[1], false⟩, ⟨[2], false⟩])]

def longBatch : Value :=
  .struct [("readings", .list [.leaf (.integral 7), .leaf (.integral 8)]),
    ("origin", .union 2 "word" (.leaf (.text "a")))]

def shortBatch : Value :=
  .struct [("readings", .list []), ("origin", .union 1 "number" (.leaf (.integral 3)))]

omit [Xtypes] [Dds]

theorem observed_after_longBatch :
    ∃ T data, batchType.getBuilder = some T ∧
      @convertAll firstLabelXtypes zeroDds batchType [longBatch] (@DdsType.createData zeroDds T) =
        .ok data ∧
      observed (@xtypesToFastdds firstLabelXtypes zeroDds batchType shortBatch data) =
        observed (@xtypesToFastdds firstLabelXtypes zeroDds batchType shortBatch
          (@DdsType.createData zeroDds T)) :=
  ⟨_, _, rfl, rfl,
    @observed_after_convertAll firstLabelXtypes zeroDds batchType _ (by decide) rfl [longBatch]
      (by decide) shortBatch (by decide) _ rfl⟩

end FastDdsSh
