import FastDdsSh.Conversion.Components

/-!
# Sequences and maps, there and back

Each loop appends to what the iterations before it have left, so its statement is about data that
already has some components.
-/

namespace FastDdsSh

variable [Xtypes] [Dds]

omit [Xtypes] [Dds] in
theorem DdsData.component_concat (T : DdsType) (cs : List DdsData) (c : DdsData) :
    (DdsData.composite T (cs ++ [c])).component (some cs.length) = some c :=
  List.getElem?_concat_length

omit [Xtypes] [Dds] in
theorem DdsData.withComponent_concat (T : DdsType) (cs : List DdsData) (c d : DdsData) :
    (DdsData.composite T (cs ++ [c])).withComponent (some cs.length) d =
      .composite T (cs ++ [d]) := by
  show DdsData.composite T ((cs ++ [c]).set cs.length d) = _
  rw [List.set_append_right _ _ (le_refl _), Nat.sub_self]
  rfl

omit [Xtypes] [Dds] in
/-- A collection goes back by converting the components of the data that the place holds. -/
theorem FastddsToXtypes.setCollection_of_holds {p : Place} {T : DdsType} {c : DdsData}
    (h : p.Holds T c) (current : Value) (convert : DdsData → Except Fault Value) :
    setCollection p T.kind current convert = (convert c).map some := by
  unfold setCollection
  rw [branch_of_holds h, nestedData_of_holds h, if_pos rfl]

omit [Xtypes] [Dds] in
theorem FastddsToXtypes.setCollection_outcome {p : Place} {T : DdsType} {c : DdsData} {b : Bool}
    {Q : Option Value → Prop} {convert : DdsData → Except Fault Value} {current : Value}
    (h : p.Holds T c) (hconvert : Outcome .exception b (fun v => Q (some v)) (convert c)) :
    Outcome .exception b Q (setCollection p T.kind current convert) := by
  rw [setCollection_of_holds h]
  exact hconvert.map fun v hv => hv

/-! ## Sequences -/

theorem XtypesToFastdds.setSequenceData_outcome {b : Nat} {t : DynamicType} {E : DdsType}
    {L : DynamicType → DdsData → Prop} {S : DynamicType → Value → DdsData → Prop}
    (ht : ConvertsTo L S t) (hE : t.getBuilder = some E) (hcreated : L t E.createData)
    {vs : List Value} (hvs : vs.all t.admits = true) (cs : List DdsData) :
    Outcome .exception ((vs.flatMap (t.leaves .sequenceElement)).all fun o => o.2.readable o.1)
      (fun r => ∃ ds, r = .composite (.sequence E b) (cs ++ ds) ∧ List.Forall₂ (S t) vs ds)
      (setSequenceData (fun v output id => encode t v (.sequenceElement output id)) vs
        (.composite (.sequence E b) cs)) := by
  induction vs generalizing cs with
  | nil => exact Outcome.ok ⟨[], by rw [List.append_nil], .nil⟩
  | cons v vs ih =>
    rw [List.all_cons, Bool.and_eq_true] at hvs
    rw [List.flatMap_cons, List.all_append]
    have hholds : (Place.sequenceElement (.composite (.sequence E b) (cs ++ [E.createData]))
        (some cs.length)).Holds E E.createData :=
      ⟨Option.some_ne_none _, DdsData.component_concat _ cs _⟩
    refine (ht (p := .sequenceElement _ _) hE hvs.1 trivial hholds hcreated).bind fun r hr => ?_
    obtain ⟨d, rfl, -, hstored⟩ := hr
    unfold Place.put
    rw [Place.data, Place.id, DdsData.withComponent_concat]
    refine (ih hvs.2 (cs ++ [d])).imp fun r hr => ?_
    obtain ⟨ds, rfl, hds⟩ := hr
    exact ⟨d :: ds, by rw [List.append_assoc, List.singleton_append], .cons hstored hds⟩

theorem FastddsToXtypes.setSequenceData_outcome {fuel b : Nat} {t : DynamicType} {E : DdsType}
    (hE : t.getBuilder = some E) {vs : List Value} {ds : List DdsData}
    (h : List.Forall₂ (fun v d => Stored fuel t v d) vs ds) (cs : List DdsData)
    (output : List Value) :
    Outcome .exception ((vs.flatMap (t.leaves .sequenceElement)).all fun o => o.2.writable o.1)
      (· = output ++ vs.map t.rebuilt)
      (setSequenceData (fun id => decode fuel t
          (.sequenceElement (.composite (.sequence E b) (cs ++ ds)) id) t.default)
        (List.range' cs.length vs.length) output) := by
  induction h generalizing cs output with
  | nil => exact Outcome.ok (by rw [List.map_nil, List.append_nil])
  | @cons v d vs ds hstored hds ih =>
    rw [List.flatMap_cons, List.all_append, List.length_cons, List.range'_succ]
    have hdata : cs ++ d :: ds = cs ++ [d] ++ ds := by
      rw [List.append_assoc, List.singleton_append]
    have hholds : (Place.sequenceElement (.composite (.sequence E b) (cs ++ d :: ds))
        (some cs.length)).Holds E d := by
      refine ⟨Option.some_ne_none _, ?_⟩
      show (cs ++ d :: ds)[cs.length]? = some d
      rw [List.getElem?_append_right (le_refl _), Nat.sub_self]
      rfl
    refine (hstored (p := .sequenceElement _ _) hE trivial hholds).bind fun w hw => ?_
    rw [hw]
    have hrest := ih (cs ++ [d]) (output ++ [t.rebuilt v])
    rw [← hdata, List.length_append, List.length_singleton] at hrest
    refine hrest.imp fun r hr => ?_
    rw [hr, List.append_assoc, List.map_cons, List.singleton_append]

theorem stored_sequenceType {fuel b : Nat} {t : DynamicType} {E : DdsType} (n : String)
    (hE : t.getBuilder = some E) {vs : List Value} {ds : List DdsData}
    (h : List.Forall₂ (fun v d => Stored fuel t v d) vs ds) :
    Stored fuel (.sequenceType n t b) (.list vs) (.composite (.sequence E b) ds) := by
  intro T p hT _ hp
  rw [DynamicType.getBuilder, hE, Option.map_some] at hT
  cases hT
  rw [DynamicType.default, FastddsToXtypes.decode]
  refine FastddsToXtypes.setCollection_outcome hp ?_
  have hloop := FastddsToXtypes.setSequenceData_outcome (b := b) hE h [] []
  rw [List.length_nil, h.length_eq, ← List.range_eq_range'] at hloop
  exact hloop.bind_ok fun ws hws => by rw [hws]; rfl

theorem converts_sequenceType {fuel : Nat} {t : DynamicType} (n : String) (b : Nat)
    (ht : Converts fuel t) : Converts fuel (.sequenceType n t b) := by
  intro T p x v hT hv hfits hp hx
  cases v with
  | list vs =>
    obtain ⟨E, hE, rfl⟩ := Option.map_eq_some_iff.mp hT
    have hkey := hfits.ne_key rfl
    rw [XtypesToFastdds.encode, hT]
    refine XtypesToFastdds.setNested_outcome hp hkey hx (DdsType.admits_createData _)
      fun y hy => ?_
    obtain ⟨cs, rfl⟩ := hy
    refine (XtypesToFastdds.setSequenceData_outcome ht.convertsTo hE (shaped_createData hE) hv
      []).imp fun r hr => ?_
    obtain ⟨ds, rfl, hds⟩ := hr
    exact ⟨⟨ds, rfl⟩, stored_sequenceType n hE hds⟩
  | leaf | map | struct | union => cases hv

/-! ## Maps -/

def mapComponents (D : DdsLeaf) (qs : List (CppValue × DdsData)) : List DdsData :=
  qs.flatMap fun q => [.leaf D q.1, q.2]

section MapComponents

omit [Xtypes] [Dds]

variable (D : DdsLeaf) (qs : List (CppValue × DdsData))

theorem mapComponents_concat (q : CppValue × DdsData) :
    mapComponents D (qs ++ [q]) = mapComponents D qs ++ [.leaf D q.1, q.2] := by
  unfold mapComponents
  rw [List.flatMap_append, List.flatMap_singleton]

theorem length_mapComponents : (mapComponents D qs).length = qs.length * 2 := by
  unfold mapComponents
  rw [List.length_flatMap]
  simp

theorem mapKeys_mapComponents :
    DdsData.mapKeys (mapComponents D qs) = qs.map fun q => .leaf D q.1 := by
  induction qs with
  | nil => rfl
  | cons q qs ih =>
    show .leaf D q.1 :: DdsData.mapKeys (mapComponents D qs) = _
    rw [ih]
    rfl

theorem component_mapComponents (T : DdsType) (q : CppValue × DdsData)
    (rest : List (CppValue × DdsData)) :
    (DdsData.composite T (mapComponents D (qs ++ q :: rest))).component
        (some (qs.length * 2)) = some (.leaf D q.1) ∧
      (DdsData.composite T (mapComponents D (qs ++ q :: rest))).component
        (some (qs.length * 2 + 1)) = some q.2 := by
  show (mapComponents D _)[_]? = _ ∧ (mapComponents D _)[_]? = _
  have hsplit : mapComponents D (qs ++ q :: rest) =
      mapComponents D qs ++ .leaf D q.1 :: q.2 :: mapComponents D rest := by
    unfold mapComponents
    rw [List.flatMap_append, List.flatMap_cons]
    rfl
  have hlength := length_mapComponents D qs
  rw [hsplit, List.getElem?_append_right (by omega), List.getElem?_append_right (by omega), hlength,
    Nat.sub_self, Nat.add_sub_cancel_left]
  exact ⟨rfl, rfl⟩

end MapComponents

def EntryStored (fuel : Nat) (l : LeafType) (t : DynamicType) (e : Value × Value)
    (q : CppValue × DdsData) : Prop :=
  (∃ content, e.1 = .leaf content ∧ l.cppType.admits content = true ∧
    q.1 = l.stored .entry content) ∧ Stored fuel t e.2 q.2

omit [Xtypes] [Dds] in
theorem any_equals_mapComponents {D : DdsLeaf} {qs : List (CppValue × DdsData)} {x : CppValue}
    (h : ∀ q ∈ qs, q.1 ≠ x) :
    (DdsData.mapKeys (mapComponents D qs)).any (DdsData.leaf D x).equals = false := by
  rw [mapKeys_mapComponents, List.any_map, List.any_eq_false]
  intro q hq heq
  exact h q hq (of_decide_eq_true heq).symm

omit [Xtypes] [Dds] in
theorem insertMapData_mapComponents {D : DdsLeaf} {K V : DdsType} {b : Nat}
    {qs : List (CppValue × DdsData)} {x : CppValue} (c : DdsData) (h : ∀ q ∈ qs, q.1 ≠ x) :
    (DdsData.composite (.map K V b) (mapComponents D qs)).insertMapData (.leaf D x) c =
      .composite (.map K V b) (mapComponents D (qs ++ [(x, c)])) := by
  show (if _ then _ else _) = _
  rw [any_equals_mapComponents h, if_neg Bool.false_ne_true, mapComponents_concat]

theorem exists_leaf_of_admits {k : DynamicType} {n : String} {l : LeafType}
    (hk : k.resolve = .leafType n l) {v : Value} (h : k.admits v = true) :
    ∃ content, v = .leaf content ∧ l.cppType.admits content = true := by
  have halike := alike_resolve 0 k
  rw [hk] at halike
  rw [halike.admits] at h
  cases v with
  | leaf content => exact ⟨content, rfl, h⟩
  | list | map | struct | union => cases h

theorem getBuilder_of_resolve_leaf {k : DynamicType} {n : String} {l : LeafType}
    (hk : k.resolve = .leafType n l) : k.getBuilder = some (.leaf (l.getBuilder n)) := by
  have halike := alike_resolve 0 k
  rw [hk] at halike
  exact halike.getBuilder

theorem admits_of_mem_keys {k t : DynamicType} {n : String} {l : LeafType}
    (hk : k.resolve = .leafType n l) {es : List (Value × Value)}
    (hes : es.all (fun e => k.admits e.1 && t.admits e.2) = true) {content : CppValue}
    (h : .leaf content ∈ es.map Prod.fst) : l.cppType.admits content = true := by
  obtain ⟨e, he, hkey⟩ := List.mem_map.mp h
  have hadmits := (Bool.and_eq_true _ _ ▸ List.all_eq_true.mp hes e he).1
  obtain ⟨content', heq, hcontent⟩ := exists_leaf_of_admits hk hadmits
  cases hkey.symm.trans heq
  exact hcontent

omit [Xtypes] [Dds] in
/-- One more stored key does not clash with the keys to come. -/
theorem keys_ne_concat {l : LeafType} {keys : List Value}
    (hkeys : ∀ {content}, .leaf content ∈ keys → l.cppType.admits content = true)
    {content : CppValue} (hcontent : l.cppType.admits content = true) (hnew : .leaf content ∉ keys)
    (c : DdsData) {ps : List (CppValue × DdsData)}
    (hps : ∀ content, .leaf content ∈ keys → ∀ q ∈ ps, q.1 ≠ l.stored .entry content) :
    ∀ content', .leaf content' ∈ keys → ∀ q ∈ ps ++ [(l.stored .entry content, c)],
      q.1 ≠ l.stored .entry content' := by
  intro content' hmem q hq
  rcases List.mem_append.mp hq with hq | hq
  · exact hps content' hmem q hq
  · rw [List.mem_singleton.mp hq]
    intro heq
    rw [LeafType.stored_injective (hkeys hmem) hcontent heq.symm] at hmem
    exact hnew hmem

theorem XtypesToFastdds.encode_key {k : DynamicType} {n : String} {l : LeafType}
    (hk : k.resolve = .leafType n l) (content : CppValue) :
    Outcome .exception (k.readable .entry (.leaf content))
      (· = .leaf (l.getBuilder n) (l.stored .entry content))
      (encode k (.leaf content) (.key (DdsType.leaf (l.getBuilder n)).createData)) := by
  have halike := alike_resolve 0 k
  rw [hk] at halike
  rw [halike.encode, DynamicType.readable, halike.leaves, DynamicType.leaves, List.all_cons,
    List.all_nil, Bool.and_true]
  exact setLeaf_outcome content
    (show (Place.key _).Holds (.leaf (l.getBuilder n)) (.leaf (l.getBuilder n) _) from rfl)

theorem XtypesToFastdds.setMapData_outcome {b : Nat} {k t : DynamicType} {n : String}
    {l : LeafType} {V : DdsType} {L : DynamicType → DdsData → Prop}
    {S : DynamicType → Value → DdsData → Prop} (hk : k.resolve = .leafType n l)
    (ht : ConvertsTo L S t) (hV : t.getBuilder = some V) (hcreated : L t V.createData)
    {es : List (Value × Value)}
    (hes : es.all (fun e => k.admits e.1 && t.admits e.2) = true)
    (hdistinct : (es.map Prod.fst).Nodup) (ps : List (CppValue × DdsData))
    (hps : ∀ content, .leaf content ∈ es.map Prod.fst → ∀ q ∈ ps, q.1 ≠ l.stored .entry content) :
    Outcome .exception
      ((es.flatMap fun e => k.leaves .entry e.1 ++ t.leaves .entry e.2).all
        fun o => o.2.readable o.1)
      (fun r => ∃ qs, r = .composite (.map (.leaf (l.getBuilder n)) V b)
          (mapComponents (l.getBuilder n) (ps ++ qs)) ∧
        List.Forall₂ (fun e q => (∃ content, e.1 = .leaf content ∧
          l.cppType.admits content = true ∧ q.1 = l.stored .entry content) ∧ S t e.2 q.2) es qs)
      (setMapData (fun v output => encode k v (.key output))
        (fun v output => encode t v (.whole output)) (some (.leaf (l.getBuilder n))) (some V) es
        (.composite (.map (.leaf (l.getBuilder n)) V b) (mapComponents (l.getBuilder n) ps))) := by
  induction es generalizing ps with
  | nil => exact Outcome.ok ⟨[], by rw [List.append_nil], .nil⟩
  | cons e es ih =>
    obtain ⟨kv, v⟩ := e
    rw [List.all_cons, Bool.and_eq_true, Bool.and_eq_true] at hes
    rw [List.map_cons, List.nodup_cons] at hdistinct
    obtain ⟨⟨hkv, hv⟩, hes⟩ := hes
    obtain ⟨content, rfl, hcontent⟩ := exists_leaf_of_admits hk hkv
    rw [List.flatMap_cons, List.all_append, List.all_append, Bool.and_assoc]
    refine (encode_key hk content).bind fun keyData hkeyData => ?_
    refine (ht (p := .whole V.createData) hV hv trivial rfl hcreated).bind
      fun valueData hvalueData => ?_
    obtain ⟨c, hc, -, hstored⟩ := hvalueData
    have hvalue : valueData = c := hc
    have hnew := hps content (List.mem_map_of_mem (f := Prod.fst) List.mem_cons_self)
    rw [hkeyData, hvalue, insertMapData_mapComponents c hnew]
    refine (ih hes hdistinct.2 (ps ++ [(l.stored .entry content, c)]) ?_).imp fun r hr => ?_
    · exact keys_ne_concat (admits_of_mem_keys hk hes) hcontent hdistinct.1 c
        fun content' hmem => hps content' (List.mem_cons_of_mem _ hmem)
    · obtain ⟨qs, rfl, hqs⟩ := hr
      refine ⟨(l.stored .entry content, c) :: qs, ?_,
        .cons ⟨⟨content, rfl, hcontent, rfl⟩, hstored⟩ hqs⟩
      rw [List.append_assoc, List.singleton_append]

omit [Xtypes] [Dds] in
theorem FastddsToXtypes.setEntry_of_not_mem {key value : Value} {es : List (Value × Value)}
    (h : key ∉ es.map Prod.fst) : setEntry key value es = es ++ [(key, value)] := by
  induction es with
  | nil => rfl
  | cons e es ih =>
    obtain ⟨k, v⟩ := e
    rw [List.map_cons, List.mem_cons, not_or] at h
    rw [setEntry, if_neg (Ne.symm h.1), ih h.2, List.cons_append]

theorem FastddsToXtypes.decode_key {fuel i : Nat} {k : DynamicType} {n : String} {l : LeafType}
    (hk : k.resolve = .leafType n l) {content : CppValue} (h : l.cppType.admits content = true)
    {d : DdsData}
    (hd : d.component (some i) = some (.leaf (l.getBuilder n) (l.stored .entry content))) :
    Outcome .exception (k.writable .entry (.leaf content)) (· = some (.leaf content))
      (decode fuel k (.entry d (some i)) k.default) := by
  have halike := alike_resolve fuel k
  rw [hk] at halike
  rw [halike.decode, halike.default, DynamicType.writable, halike.leaves]
  have hstored : Stored fuel (.leafType n l) (.leaf content)
      (.leaf (l.getBuilder n) (l.stored .entry content)) := stored_leafType h .entry
  exact hstored (p := .entry d (some i)) rfl trivial ⟨Option.some_ne_none i, hd⟩

theorem FastddsToXtypes.setMapData_outcome {fuel b : Nat} {k t : DynamicType} {n : String}
    {l : LeafType} {V : DdsType} (hk : k.resolve = .leafType n l) (hV : t.getBuilder = some V)
    {es : List (Value × Value)} {qs : List (CppValue × DdsData)}
    (h : List.Forall₂ (EntryStored fuel l t) es qs) (hdistinct : (es.map Prod.fst).Nodup)
    (ps : List (CppValue × DdsData)) (output : List (Value × Value))
    (houtput : ∀ e ∈ es, e.1 ∉ output.map Prod.fst) :
    Outcome .exception
      ((es.flatMap fun e => k.leaves .entry e.1 ++ t.leaves .entry e.2).all
        fun o => o.2.writable o.1)
      (· = output ++ es.map fun e => (k.rebuilt e.1, t.rebuilt e.2))
      (setMapData
        (fun id => decode fuel k (.entry (.composite (.map (.leaf (l.getBuilder n)) V b)
          (mapComponents (l.getBuilder n) (ps ++ qs))) id) k.default)
        (fun id => decode fuel t (.entry (.composite (.map (.leaf (l.getBuilder n)) V b)
          (mapComponents (l.getBuilder n) (ps ++ qs))) id) t.default)
        (k.default, t.default) (List.range' ps.length es.length) output) := by
  induction h generalizing ps output with
  | nil => exact Outcome.ok (by rw [List.map_nil, List.append_nil])
  | @cons e q es qs he hqs ih =>
    obtain ⟨kv, v⟩ := e
    obtain ⟨x, c⟩ := q
    obtain ⟨⟨content, hkv, hcontent, hx⟩, hstored⟩ := he
    have hkv' : kv = .leaf content := hkv
    have hx' : x = l.stored .entry content := hx
    subst hkv' hx'
    rw [List.map_cons, List.nodup_cons] at hdistinct
    rw [List.flatMap_cons, List.all_append, List.all_append, Bool.and_assoc, List.length_cons,
      List.range'_succ]
    obtain ⟨hkeyAt, hvalueAt⟩ := component_mapComponents (l.getBuilder n) ps
      (.map (.leaf (l.getBuilder n)) V b) (l.stored .entry content, c) qs
    refine (decode_key hk hcontent hkeyAt).bind fun kv hkv => ?_
    refine (hstored (p := .entry _ _) hV trivial ⟨Option.some_ne_none _, hvalueAt⟩).bind
      fun w hw => ?_
    have hnew := houtput _ List.mem_cons_self
    rw [hkv, hw, Option.getD_some, Option.getD_some, setEntry_of_not_mem hnew]
    have hdata : ps ++ (l.stored .entry content, c) :: qs =
        ps ++ [(l.stored .entry content, c)] ++ qs := by
      rw [List.append_assoc, List.singleton_append]
    have hrest := ih hdistinct.2 (ps ++ [(l.stored .entry content, c)])
      (output ++ [(.leaf content, t.rebuilt v)]) ?_
    · rw [← hdata, List.length_append, List.length_singleton] at hrest
      refine hrest.imp fun r hr => ?_
      have halike := alike_resolve fuel k
      rw [hk] at halike
      rw [hr, List.append_assoc, List.map_cons, List.singleton_append, halike.rebuilt]
      rfl
    · intro e he
      rw [List.map_append, List.mem_append, not_or]
      refine ⟨houtput e (List.mem_cons_of_mem _ he), ?_⟩
      rw [List.map_singleton, List.mem_singleton]
      intro heq
      exact hdistinct.1 (List.mem_map.mpr ⟨e, he, heq⟩)

theorem stored_mapType {fuel b : Nat} {k t : DynamicType} {n' : String} {l : LeafType}
    {V : DdsType} (n : String) (hk : k.resolve = .leafType n' l) (hV : t.getBuilder = some V)
    {es : List (Value × Value)} (hdistinct : (es.map Prod.fst).Nodup)
    {qs : List (CppValue × DdsData)} (h : List.Forall₂ (EntryStored fuel l t) es qs) :
    Stored fuel (.mapType n k t b) (.map es)
      (.composite (.map (.leaf (l.getBuilder n')) V b) (mapComponents (l.getBuilder n') qs)) := by
  intro T p hT _ hp
  have halike := alike_resolve fuel k
  rw [hk] at halike
  rw [DynamicType.getBuilder, halike.getBuilder, DynamicType.getBuilder, hV] at hT
  cases hT
  rw [DynamicType.default, FastddsToXtypes.decode]
  refine FastddsToXtypes.setCollection_outcome hp ?_
  have hloop := FastddsToXtypes.setMapData_outcome (b := b) hk hV h hdistinct [] [] (by simp)
  have hcount : (mapComponents (l.getBuilder n') qs).length / 2 = es.length := by
    rw [length_mapComponents, Nat.mul_div_cancel _ (by decide), h.length_eq]
  rw [List.length_nil, ← List.range_eq_range', ← hcount] at hloop
  exact hloop.bind_ok fun ws hws => by rw [hws]; rfl

theorem converts_mapType {fuel : Nat} {k t : DynamicType} (n : String) (b : Nat)
    (hk : k.isLeaf = true) (ht : Converts fuel t) : Converts fuel (.mapType n k t b) := by
  intro T p x v hT hv hfits hp hx
  cases v with
  | map es =>
    obtain ⟨n', l, hk⟩ := DynamicType.resolve_of_isLeaf hk
    have hK := getBuilder_of_resolve_leaf hk
    obtain ⟨K, hK', hT'⟩ := Option.bind_eq_some_iff.mp hT
    obtain ⟨V, hV, rfl⟩ := Option.map_eq_some_iff.mp hT'
    rw [hK] at hK'
    cases hK'
    rw [DynamicType.admits, Bool.and_eq_true] at hv
    have hdistinct : (es.map Prod.fst).Nodup := of_decide_eq_true hv.2
    have hkey := hfits.ne_key rfl
    rw [XtypesToFastdds.encode, hT, hK, hV]
    refine XtypesToFastdds.setNested_outcome hp hkey hx (DdsType.admits_createData _)
      fun y hy => ?_
    obtain ⟨cs, rfl⟩ := hy
    refine (XtypesToFastdds.setMapData_outcome hk ht.convertsTo hV (shaped_createData hV) hv.1
      hdistinct [] (by simp)).imp fun r hr => ?_
    obtain ⟨qs, rfl, hqs⟩ := hr
    exact ⟨⟨_, rfl⟩, stored_mapType n hk hV hdistinct hqs⟩
  | leaf | list | struct | union => cases hv

end FastDdsSh
