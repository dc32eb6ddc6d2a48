import FastDdsSh.Conversion.Aliases
import FastDdsSh.Conversion.Arrays
import FastDdsSh.Conversion.Unrefused

/-!
# Loans of the conversion to DDS data

On an object of the DDS type of a type, with nothing on loan, the conversion that loans does what
the conversion does that takes every component for granted.  No pointer is null, and nothing is on
loan afterwards.
-/

namespace FastDdsSh

open Lookup

/-! ## Objects of a type -/

namespace DdsType

mutual

def AdmitsDeep : DdsType → DdsData → Prop
  | leaf l, data => ∃ v, data = .leaf l v
  | array e bounds, data => ∃ cs, data = .composite (array e bounds) cs ∧
      cs.length = bounds.prod ∧ ∀ c ∈ cs, e.AdmitsDeep c
  | sequence e b, data => ∃ cs, data = .composite (sequence e b) cs ∧ ∀ c ∈ cs, e.AdmitsDeep c
  -- keys and values take turns
  | map k t b, data => ∃ cs, data = .composite (map k t b) cs ∧ cs.length % 2 = 0 ∧
      ∀ i c, cs[i]? = some c → (i % 2 = 0 → k.AdmitsDeep c) ∧ (i % 2 = 1 → t.AdmitsDeep c)
  | struct ms, data => ∃ cs, data = .composite (struct ms) cs ∧ AdmitsDeepMembers ms cs
  | union d ms cases, data => ∃ n a cs, data = .union (union d ms cases) n a cs ∧
      AdmitsDeepMembers ms cs

def AdmitsDeepMembers : List (String × DdsType) → List DdsData → Prop
  | [], cs => cs = []
  | (_, t) :: ms, cs => ∃ c rest, cs = c :: rest ∧ t.AdmitsDeep c ∧ AdmitsDeepMembers ms rest

end

theorem admitsDeepMembers_iff {ms : List (String × DdsType)} {cs : List DdsData} :
    AdmitsDeepMembers ms cs ↔ List.Forall₂ (fun m c => m.2.AdmitsDeep c) ms cs := by
  apply iff_forall₂
  · intro cs
    rw [AdmitsDeepMembers]
  · intro m ms cs
    rw [AdmitsDeepMembers]

/-- Any value of a leaf will do. -/
theorem admitsDeep_leaf {T : DdsType} {l : DdsLeaf} {v : CppValue} (h : T.AdmitsDeep (.leaf l v))
    (w : CppValue) : T.AdmitsDeep (.leaf l w) := by
  cases T with
  | leaf l' =>
    obtain ⟨v', heq⟩ := h
    cases heq
    exact ⟨w, rfl⟩
  | array | sequence | map | struct =>
    obtain ⟨cs, heq, -⟩ := h
    cases heq
  | union =>
    obtain ⟨n, a, cs, heq, -⟩ := h
    cases heq

variable [Dds]

mutual

theorem admitsDeep_createData (t : DdsType) : t.AdmitsDeep t.createData := by
  cases t with
  | leaf l => exact ⟨_, rfl⟩
  | array e bounds =>
    refine ⟨_, rfl, List.length_replicate, ?_⟩
    intro c hc
    rw [List.eq_of_mem_replicate hc]
    exact admitsDeep_createData e
  | sequence e b => exact ⟨[], rfl, List.forall_mem_nil _⟩
  | map k t b => exact ⟨[], rfl, rfl, fun i c hc => by cases hc⟩
  | struct ms => exact ⟨_, rfl, admitsDeepMembers_createMembers ms⟩
  | union d ms cs => exact ⟨_, _, _, rfl, admitsDeepMembers_createMembers ms⟩

theorem admitsDeepMembers_createMembers (ms : List (String × DdsType)) :
    AdmitsDeepMembers ms (createMembers ms) := by
  match ms with
  | [] => rfl
  | (_, t) :: ms =>
    exact ⟨_, _, rfl, admitsDeep_createData t, admitsDeepMembers_createMembers ms⟩

end

end DdsType

open DdsType

/-- Another element for an array or a sequence. -/
theorem forall_mem_set {α : Type} {P : α → Prop} {l : List α} (h : ∀ a ∈ l, P a) {a : α}
    (ha : P a) (i : Nat) : ∀ b ∈ l.set i a, P b := by
  intro b hb
  rcases List.mem_or_eq_of_mem_set hb with hb | rfl
  · exact h b hb
  · exact ha

/-! ## Places -/

namespace Place

/-- A component of the type can be put in the place: the data itself is of the type, or the
component is there and is, or new data replaces a component of the type, if there is one. -/
def Takes (p : Place) (T : DdsType) : Prop :=
  match p with
  | whole d | key d => T.AdmitsDeep d
  | member d id _ | entry d id => ∃ i c, id = some i ∧ d.component id = some c ∧ T.AdmitsDeep c
  | p => (∀ l v, p.data ≠ .leaf l v) ∧
      ∀ i c, p.id = some i → p.data.component (some i) = some c → T.AdmitsDeep c

def Took (p : Place) (T : DdsType) (r : DdsData) : Prop :=
  match p with
  | whole _ | key _ => T.AdmitsDeep r
  | p => r = p.data ∨
      ∃ i c, p.id = some i ∧ T.AdmitsDeep c ∧ r = p.data.withComponent (some i) c

end Place

variable [Xtypes] [Dds]

abbrev NotNull (e : Fault) : Prop := e ≠ .nullPointer

abbrev Harmless (failure : Failure) : Prop := failure ≠ .nullPointer

def Balanced (Q : DdsData → Prop) (r : DdsData) (s : DdsData × Loans) : Prop :=
  s = (r, []) ∧ Q r

namespace XtypesToFastdds

open Trace

/-! ## One component -/

omit [Dds] in
theorem setLeaf_raisesOnly (l : LeafType) (v : Value) (p : Place) :
    Except.RaisesOnly NotNull (setLeaf l v p) := by
  unfold setLeaf
  split
  · split
    · exact .ok _
    · exact .error (by decide)
  · exact .error (by decide)

omit [Dds] in
/-- The setter is refused, or stores a leaf where one was. -/
theorem took_setLeaf {l : LeafType} {v : Value} {p : Place} {T : DdsType} {r : DdsData}
    (hp : p.Takes T) (h : setLeaf l v p = .ok r) : p.Took T r := by
  have hset : r = p.data ∨ ∃ l' x y, p.data.component p.id = some (.leaf l' x) ∧
      r = p.data.withComponent p.id (.leaf l' y) := by
    unfold setLeaf at h
    split at h
    · split at h
      · cases h
        unfold DdsData.setValue
        split
        · rename_i hcomponent
          split
          · exact .inr ⟨_, _, _, hcomponent, rfl⟩
          · exact .inl rfl
        · exact .inl rfl
      · cases h
    · cases h
  rcases hset with rfl | ⟨l', x, y, hcomponent, rfl⟩
  · cases p with
    | whole | key => exact hp
    | member | entry | arrayElement | sequenceElement => exact .inl rfl
  · cases p with
    | whole d | key d =>
      obtain rfl : d = .leaf l' x := Option.some.inj hcomponent
      exact admitsDeep_leaf hp y
    | member d id inUnion | entry d id =>
      obtain ⟨i, c, rfl, hc, hT⟩ := hp
      obtain rfl : c = .leaf l' x := Option.some.inj (hc.symm.trans hcomponent)
      exact .inr ⟨i, _, rfl, admitsDeep_leaf hT y, rfl⟩
    | arrayElement d indexes | sequenceElement d id =>
      obtain ⟨hleaf, helement⟩ := hp
      -- without an id it would be the collection itself
      generalize hid : Place.id _ = id' at hcomponent
      cases id' with
      | none => exact absurd (Option.some.inj hcomponent) (hleaf l' x)
      | some i => exact .inr ⟨i, _, hid, admitsDeep_leaf (helement i _ hid hcomponent) y, rfl⟩

omit [Xtypes] in
/-- A nested component, converted in an object of the type. -/
theorem setNested_balanced {p : Place} {T : DdsType} (hp : p.Takes T)
    {convert : DdsData → Except Fault DdsData}
    {lending : DdsData → Loans → Trace Failure Fault (DdsData × Loans)}
    (h : ∀ d, T.AdmitsDeep d →
      Follows Harmless NotNull (Balanced T.AdmitsDeep) (convert d) (lending d [])) :
    Follows Harmless NotNull (Balanced (p.Took T)) (setNested p (some T) convert)
      (Traced.setNested p [] (some T) lending) := by
  have hcreated := h T.createData (admitsDeep_createData T)
  cases p with
  | whole d => exact h d hp
  | member d id inUnion | entry d id =>
    obtain ⟨i, c, rfl, hc, hT⟩ := hp
    unfold setNested Traced.setNested
    dsimp only
    rw [DdsData.loanValue_of_component (Option.some_ne_none i) hc, loanValue_of_component hc,
      pure_bind]
    refine (h c hT).bind fun r s _ hs => ?_
    obtain ⟨rfl, hr⟩ := hs
    refine .pure ⟨?_, .inr ⟨i, r, rfl, hr, rfl⟩⟩
    rw [Loans.replace_lend]
  | key d =>
    refine hcreated.bind fun r s _ hs => ?_
    obtain ⟨rfl, -⟩ := hs
    exact .reportUnless_bind (by decide) _ (.pure ⟨rfl, hp⟩)
  | arrayElement d indexes | sequenceElement d id =>
    refine hcreated.bind fun r s _ hs => ?_
    obtain ⟨rfl, hr⟩ := hs
    refine .reportUnless_bind (by decide) _ (.pure ⟨by rw [Loans.replace_nil], ?_⟩)
    -- `set_complex_value` of an invalid id has no effect
    unfold DdsData.setComplexValue
    generalize hid : Place.id _ = id'
    cases id' with
    | none => exact .inl rfl
    | some i => exact .inr ⟨i, r, hid, hr, if_neg (Option.some_ne_none i)⟩

/-! ## Collections -/

/-- Whatever value of the type is put in an object of its DDS type, the object is of that type
afterwards. -/
def Balances (t : DynamicType) : Prop :=
  ∀ ⦃T : DdsType⦄ ⦃p : Place⦄ ⦃v : Value⦄, t.getBuilder = some T → t.admits v = true →
    p.Takes T → (∀ d indexes, p = .arrayElement d indexes → t.isArray = false) →
      Follows Harmless NotNull (Balanced (p.Took T)) (encode t v p) (Traced.encode .none t v p [])

def ElementBalances (t : DynamicType) : Prop :=
  ∀ ⦃B bounds : List Nat⦄ ⦃E : DdsType⦄ ⦃output : DdsData⦄ ⦃v : Value⦄, ArrayContent t B E →
    t.admits v = true → (array E bounds).AdmitsDeep output → ∀ indexes,
      Follows Harmless NotNull (Balanced (array E bounds).AdmitsDeep)
        (encode t v (.arrayElement output indexes))
        (Traced.encode .none t v (.arrayElement output indexes) [])

theorem elementBalances_of_balances {t : DynamicType} (ht : t.isArray = false) (h : Balances t) :
    ElementBalances t := by
  intro B bounds E output v hcontent hv houtput indexes
  obtain ⟨rfl, hE⟩ := arrayContent_of_not_isArray ht hcontent
  obtain ⟨cs, rfl, hlength, hcs⟩ := houtput
  have htakes : (Place.arrayElement (.composite (array E bounds) cs) indexes).Takes E := by
    refine ⟨fun _ _ => nofun, fun i c _ hc => ?_⟩
    exact hcs c (List.mem_of_getElem? hc)
  refine (h hE hv htakes fun _ _ _ => ht).imp fun r s _ hs => ⟨hs.1, ?_⟩
  rcases hs.2 with rfl | ⟨i, c, -, hc, rfl⟩
  · exact ⟨cs, rfl, hlength, hcs⟩
  · exact ⟨cs.set i c, rfl, by rw [List.length_set, hlength], forall_mem_set hcs hc i⟩

theorem setArrayData_balanced {t : DynamicType} (h : ElementBalances t) {B bounds : List Nat}
    {E : DdsType} (hcontent : ArrayContent t B E) {vs : List Value} (hvs : vs.all t.admits = true)
    (indexes : List Nat) (idx : Nat) {output : DdsData}
    (houtput : (array E bounds).AdmitsDeep output) :
    Follows Harmless NotNull (Balanced (array E bounds).AdmitsDeep)
      (setArrayData (fun v output indexes => encode t v (.arrayElement output indexes)) indexes vs
        idx output)
      (Traced.setArrayData
        (fun v output loans indexes => Traced.encode .none t v (.arrayElement output indexes) loans)
        indexes vs idx output []) := by
  induction vs generalizing idx output with
  | nil => exact .pure ⟨rfl, houtput⟩
  | cons v vs ih =>
    rw [List.all_cons, Bool.and_eq_true] at hvs
    refine (h hcontent hvs.1 houtput (indexes ++ [idx])).bind fun r s _ hs => ?_
    obtain ⟨rfl, hr⟩ := hs
    exact ih hvs.2 (idx + 1) hr

theorem setSequenceData_balanced {t : DynamicType} (h : Balances t) {E : DdsType}
    (hE : t.getBuilder = some E) (b : Nat) {vs : List Value} (hvs : vs.all t.admits = true)
    {output : DdsData} (houtput : (sequence E b).AdmitsDeep output) :
    Follows Harmless NotNull (Balanced (sequence E b).AdmitsDeep)
      (setSequenceData (fun v output id => encode t v (.sequenceElement output id)) vs output)
      (Traced.setSequenceData .none
        (fun v output loans id => Traced.encode .none t v (.sequenceElement output id) loans) vs
        output []) := by
  induction vs generalizing output with
  | nil => exact .pure ⟨rfl, houtput⟩
  | cons v vs ih =>
    rw [List.all_cons, Bool.and_eq_true] at hvs
    obtain ⟨cs, rfl, hcs⟩ := houtput
    -- the element that is inserted is fresh
    have hinserted : ∀ c ∈ cs ++ [E.createData], E.AdmitsDeep c := by
      intro c hc
      rcases List.mem_append.mp hc with hc | hc
      · exact hcs c hc
      · rw [List.mem_singleton.mp hc]
        exact admitsDeep_createData E
    have htakes : (Place.sequenceElement
        (.composite (sequence E b) (cs ++ [E.createData])) (some cs.length)).Takes E := by
      refine ⟨fun _ _ => nofun, fun i c _ hc => ?_⟩
      exact hinserted c (List.mem_of_getElem? hc)
    refine (h hE hvs.1 htakes fun _ _ heq => by cases heq).bind fun r s _ hs => ?_
    obtain ⟨rfl, hr⟩ := hs
    apply ih hvs.2
    rcases hr with rfl | ⟨i, c, -, hc, rfl⟩
    · exact ⟨_, rfl, hinserted⟩
    · exact ⟨_, rfl, forall_mem_set hinserted hc i⟩

omit [Xtypes] [Dds] in
theorem admitsDeep_insertMapData {K V : DdsType} {b : Nat} {output key value : DdsData}
    (houtput : (map K V b).AdmitsDeep output) (hkey : K.AdmitsDeep key)
    (hvalue : V.AdmitsDeep value) : (map K V b).AdmitsDeep (output.insertMapData key value) := by
  obtain ⟨cs, rfl, heven, hcs⟩ := houtput
  show (map K V b).AdmitsDeep (if _ then _ else _)
  split
  · exact ⟨cs, rfl, heven, hcs⟩
  · refine ⟨_, rfl, ?_, fun i c hc => ?_⟩
    · rw [List.length_append, List.length_cons, List.length_singleton]
      omega
    · rcases Nat.lt_or_ge i cs.length with hlt | hge
      · rw [List.getElem?_append_left hlt] at hc
        exact hcs i c hc
      -- the new entry begins at an even position
      · rw [List.getElem?_append_right hge] at hc
        obtain ⟨j, rfl⟩ := Nat.exists_eq_add_of_le hge
        rw [Nat.add_sub_cancel_left] at hc
        match j, hc with
        | 0, hc =>
          cases hc
          exact ⟨fun _ => hkey, fun hodd => by omega⟩
        | 1, hc =>
          cases hc
          exact ⟨fun hodd => by omega, fun _ => hvalue⟩

theorem setMapData_balanced {k t : DynamicType} (hk : Balances k) (ht : Balances t)
    {K V : DdsType} (hK : k.getBuilder = some K) (hV : t.getBuilder = some V) (b : Nat)
    {es : List (Value × Value)} (hes : es.all (fun e => k.admits e.1 && t.admits e.2) = true)
    {output : DdsData} (houtput : (map K V b).AdmitsDeep output) :
    Follows Harmless NotNull (Balanced (map K V b).AdmitsDeep)
      (setMapData (fun v output => encode k v (.key output))
        (fun v output => encode t v (.whole output)) (some K) (some V) es output)
      (Traced.setMapData .none (fun v output loans => Traced.encode .none k v (.key output) loans)
        (fun v output loans => Traced.encode .none t v (.whole output) loans) (some K) (some V) es
        output []) := by
  induction es generalizing output with
  | nil => exact .pure ⟨rfl, houtput⟩
  | cons e es ih =>
    obtain ⟨kv, v⟩ := e
    rw [List.all_cons, Bool.and_eq_true, Bool.and_eq_true] at hes
    obtain ⟨⟨hkv, hv⟩, hes⟩ := hes
    have hkey := hk (p := .key K.createData) hK hkv (admitsDeep_createData K)
      fun _ _ heq => by cases heq
    refine hkey.bind fun key s _ hs => ?_
    obtain ⟨rfl, hkeyData⟩ := hs
    have hvalue := ht (p := .whole V.createData) hV hv (admitsDeep_createData V)
      fun _ _ heq => by cases heq
    refine hvalue.bind fun value s _ hs => ?_
    obtain ⟨rfl, hvalueData⟩ := hs
    apply Follows.reportUnless_bind (by decide)
    show Follows Harmless NotNull _ _ (Traced.setMapData _ _ _ _ _ es _
      (Traced.insertedLoans output (output.insertMapData key value) [] [] []))
    rw [Traced.insertedLoans_nil]
    exact ih hes (admitsDeep_insertMapData houtput hkeyData hvalueData)

/-! ## Structures and unions -/

omit [Xtypes] [Dds] in
/-- The place of the member that a name leads to, and what the components are once it has taken one.
-/
theorem member_takes {ms : List (String × DynamicType)}
    (hbuilders : ∀ m ∈ ms, m.2.getBuilder.isSome = true) {m : String} {t : DynamicType}
    (hm : ms.lookup m = some t) {cs : List DdsData}
    (hcs : AdmitsDeepMembers (DynamicType.getMemberBuilders ms) cs) :
    ∃ i T c, t.getBuilder = some T ∧ cs[i]? = some c ∧ T.AdmitsDeep c ∧
      ((DynamicType.getMemberBuilders ms).findIdx? fun e => e.1 = m) = some i ∧
      ∀ r, T.AdmitsDeep r → AdmitsDeepMembers (DynamicType.getMemberBuilders ms) (cs.set i r) := by
  obtain ⟨i, T, hT, -, hid, hi⟩ := DynamicType.getMemberBuilders_of_lookup hbuilders hm
  rw [admitsDeepMembers_iff] at hcs
  obtain ⟨c, hc, hadmits⟩ := forall₂_getElem? hcs hi
  exact ⟨i, T, c, hT, hc, hadmits, hid, fun r hr =>
    admitsDeepMembers_iff.mpr (forall₂_set hcs hi hr)⟩

theorem setStructData_balanced {ms : List (String × DynamicType)}
    (hbuilders : ∀ m ∈ ms, m.2.getBuilder.isSome = true) {fields : List (String × Value)}
    (hfields : DynamicType.admitsFields ms fields = true) {rest : List (String × DynamicType)}
    (hrest : ∀ m ∈ rest, ms.lookup m.1 = some m.2 ∧ Balances m.2) {output : DdsData}
    (houtput : (struct (DynamicType.getMemberBuilders ms)).AdmitsDeep output) :
    Follows Harmless NotNull (Balanced (struct (DynamicType.getMemberBuilders ms)).AdmitsDeep)
      (setStructData rest (.struct fields) output)
      (Traced.setStructData .none rest (.struct fields) output []) := by
  induction rest generalizing output with
  | nil =>
    rw [setStructData, Traced.setStructData]
    exact .pure ⟨rfl, houtput⟩
  | cons head rest ih =>
    obtain ⟨m, t⟩ := head
    obtain ⟨hm, hbalances⟩ := hrest _ List.mem_cons_self
    obtain ⟨cs, rfl, hcs⟩ := houtput
    obtain ⟨i, T, c, hT, hc, hadmits, hid, hset⟩ := member_takes hbuilders hm hcs
    rw [setStructData, Traced.setStructData]
    rw [show (Value.struct fields).field t m = fields.lookup m from rfl]
    cases hw : fields.lookup m with
    | none => exact .throw (by decide)
    | some w =>
      have hmember : (Place.member (.composite (struct (DynamicType.getMemberBuilders ms)) cs)
          (DdsData.getMemberIdByName (.composite (struct (DynamicType.getMemberBuilders ms)) cs) m)
          false).Takes T := ⟨i, c, hid, (congrArg _ hid).trans hc, hadmits⟩
      refine (hbalances hT (DynamicType.admits_of_lookup hfields hm hw) hmember
        fun _ _ heq => by cases heq).bind fun r s _ hs => ?_
      obtain ⟨rfl, hr⟩ := hs
      apply ih fun m' hm' => hrest m' (List.mem_cons_of_mem _ hm')
      rcases hr with rfl | ⟨j, x, hj, hx, rfl⟩
      · exact ⟨cs, rfl, hcs⟩
      · obtain rfl : i = j := Option.some.inj (hid.symm.trans hj)
        exact ⟨_, rfl, hset x hx⟩

theorem Traced.setUnionData_of_lookup {ms : List (String × DynamicType)} {c : String}
    {t : DynamicType} (h : ms.lookup c = some t) (v : Value) (output : DdsData) (loans : Loans) :
    Traced.setUnionData .none ms c v output loans =
      Traced.encode .none t v (.member output (output.getMemberIdByName c) true) loans := by
  apply eq_of_lookup _ h
  intro m t ms
  rw [Traced.setUnionData]

theorem setUnionData_balanced {ms : List (String × DynamicType)}
    (hbuilders : ∀ m ∈ ms, m.2.getBuilder.isSome = true) {c : String} {t : DynamicType}
    (hc : ms.lookup c = some t) (hbalances : Balances t) {v : Value} (hv : t.admits v = true)
    {D : DdsType} {labels : List (List Nat × Bool)} {output : DdsData}
    (houtput : (union D (DynamicType.getMemberBuilders ms) labels).AdmitsDeep output) :
    Follows Harmless NotNull
      (Balanced (union D (DynamicType.getMemberBuilders ms) labels).AdmitsDeep)
      (setUnionData ms c v output) (Traced.setUnionData .none ms c v output []) := by
  obtain ⟨n, a, cs, rfl, hcs⟩ := houtput
  obtain ⟨i, T, x, hT, hx, hadmits, hid, hset⟩ := member_takes hbuilders hc hcs
  rw [setUnionData_of_lookup hc, Traced.setUnionData_of_lookup hc]
  have hmember : (Place.member (.union (union D (DynamicType.getMemberBuilders ms) labels) n a cs)
      (DdsData.getMemberIdByName
        (.union (union D (DynamicType.getMemberBuilders ms) labels) n a cs) c) true).Takes T :=
    ⟨i, x, hid, (congrArg _ hid).trans hx, hadmits⟩
  refine (hbalances hT hv hmember fun _ _ heq => by cases heq).imp fun r s _ hs => ⟨hs.1, ?_⟩
  rcases hs.2 with rfl | ⟨j, y, hj, hy, rfl⟩
  · exact ⟨n, a, cs, rfl, hcs⟩
  · obtain rfl : i = j := Option.some.inj (hid.symm.trans hj)
    have hlt := (List.getElem?_eq_some_iff.mp hx).1
    -- the member that is written becomes the active one
    exact ⟨n, some i, _, if_pos hlt, hset y hy⟩

/-! ## Every type -/

theorem balances_of_isBuilt {t : DynamicType} (hbuilt : t.isBuilt = true)
    (hdirect : t.hasDirectArrays = true) :
    Balances t ∧ ((t.isAlias && t.isArray) = false → ElementBalances t) := by
  -- for all types but arrays an element is like any other component
  have hother {t : DynamicType} (ht : t.isArray = false) (h : Balances t) :
      Balances t ∧ ((t.isAlias && t.isArray) = false → ElementBalances t) :=
    ⟨h, fun _ => elementBalances_of_balances ht h⟩
  induction t using DynamicType.inductionOn with
  | leafType n l =>
    apply hother rfl
    intro T p v hT hv hp _
    cases hT
    rw [encode, Traced.encode]
    refine (setLeaf_follows (by decide) (by decide) l v p).andThen fun r s hr hs =>
      ⟨(r, []), ⟨rfl, took_setLeaf hp hr⟩, ?_⟩
    rw [hs]
  | bitsetType n => cases hbuilt
  | aliasType n t ih =>
    have h := (ih hbuilt hdirect).1
    have halias : Balances (.aliasType n t) := by
      intro T p v hT hv hp helement
      rw [encode, Traced.encode]
      exact h hT hv hp helement
    refine ⟨halias, fun hnot => ?_⟩
    rw [DynamicType.isAlias, Bool.true_and] at hnot
    exact elementBalances_of_balances hnot halias
  | arrayType n t d ih =>
    obtain ⟨T', hT'⟩ := Option.isSome_iff_exists.mp
      (DynamicType.getBuilder_isSome_of_isBuilt (t := t) hbuilt)
    have hcontent := DynamicType.hasDirectArrays_arrayType hT' hdirect
    have h := (ih hbuilt hcontent.2).2 hcontent.1
    constructor
    · intro T p v hT hv hp helement
      cases v with
      | list vs =>
        obtain ⟨B, E, hcontent, rfl⟩ := arrayContent_of_getBuilder hT
        rw [DynamicType.admits, Bool.and_eq_true] at hv
        have hnested := setNested_balanced hp fun output houtput =>
          setArrayData_balanced h hcontent hv.2 [] 0 houtput
        cases p with
        | arrayElement output indexes => cases helement output indexes rfl
        | whole | key | entry | member | sequenceElement =>
          rw [encode, Traced.encode, hT]
          · exact hnested
          all_goals rintro _ _ ⟨⟩
      | leaf | map | struct | union => cases hv
    · intro _ B' bounds E output v hbuilder hv houtput indexes
      cases v with
      | list vs =>
        obtain ⟨B, E', hcontent, heq⟩ := arrayContent_of_getBuilder
          (show (DynamicType.arrayType n t d).getBuilder = some (.array E B') from hbuilder)
        cases heq
        rw [DynamicType.admits, Bool.and_eq_true] at hv
        rw [encode, Traced.encode]
        exact setArrayData_balanced h hcontent hv.2 indexes 0 houtput
      | leaf | map | struct | union => cases hv
  | sequenceType n t b ih =>
    apply hother rfl
    intro T p v hT hv hp _
    cases v with
    | list vs =>
      obtain ⟨E, hE, rfl⟩ := Option.map_eq_some_iff.mp hT
      rw [encode, Traced.encode, hT]
      refine setNested_balanced hp fun output houtput => ?_
      obtain ⟨cs, rfl, -⟩ := houtput
      exact setSequenceData_balanced (ih hbuilt hdirect).1 hE b hv
        ⟨[], rfl, List.forall_mem_nil _⟩
    | leaf | map | struct | union => cases hv
  | mapType n k t b ihk iht =>
    apply hother rfl
    intro T p v hT hv hp _
    cases v with
    | map es =>
      obtain ⟨K, hK, hT'⟩ := Option.bind_eq_some_iff.mp hT
      obtain ⟨V, hV, rfl⟩ := Option.map_eq_some_iff.mp hT'
      rw [DynamicType.isBuilt, Bool.and_eq_true] at hbuilt
      have hentries := DynamicType.hasDirectArrays_mapType hK hV hdirect
      rw [DynamicType.admits, Bool.and_eq_true] at hv
      rw [encode, Traced.encode, hT, hK, hV]
      refine setNested_balanced hp fun output houtput => ?_
      obtain ⟨cs, rfl, -⟩ := houtput
      exact setMapData_balanced (ihk hbuilt.1 hentries.1).1 (iht hbuilt.2 hentries.2).1 hK hV b hv.1
        ⟨[], rfl, rfl, fun i c hc => by cases hc⟩
    | leaf | list | struct | union => cases hv
  | structType n ms ih =>
    apply hother rfl
    intro T p v hT hv hp _
    cases v with
    | struct fields =>
      cases hT
      rw [DynamicType.isBuilt, Bool.and_eq_true, decide_eq_true_eq] at hbuilt
      have hbuilders := DynamicType.getBuilder_isSome_of_areBuilt hbuilt.2
      rw [encode, Traced.encode, DynamicType.getBuilder]
      refine setNested_balanced hp fun output houtput =>
        setStructData_balanced hbuilders hv (fun m hm => ⟨lookup_of_mem hbuilt.1 hm, ?_⟩) houtput
      exact (ih m hm (DynamicType.isBuilt_of_mem hbuilt.2 hm)
        (DynamicType.hasDirectArrays_of_mem hdirect hm)).1
    | leaf | list | map | union => cases hv
  | unionType n d ms cs ihd ih =>
    apply hother rfl
    intro T p v hT hv hp _
    cases v with
    | union x c w =>
      obtain ⟨D, hD, rfl⟩ := Option.map_eq_some_iff.mp hT
      rw [DynamicType.isBuilt, Bool.and_eq_true] at hbuilt
      have hmembers := (DynamicType.hasDirectArrays_unionType hD hdirect).2
      have hbuilders := DynamicType.getBuilder_isSome_of_areBuilt hbuilt.2
      obtain ⟨t, hc, hw⟩ := DynamicType.exists_lookup_of_admitsCase hv
      have hmem := mem_of_lookup hc
      rw [encode, Traced.encode, hT]
      refine setNested_balanced hp fun output houtput => ?_
      obtain ⟨k, a, components, rfl, hcomponents⟩ := houtput
      have hk' := setDiscriminator_union d x
        (union D (DynamicType.getMemberBuilders ms) (DynamicType.getCaseDescriptors ms cs)) k a
        components
      generalize (if d.isDiscriminator then (x % 2 ^ 64).toNat else k) = k' at hk'
      have hset := setDiscriminator_follows (P := Harmless) (E := NotNull) (by decide)
        (by decide) d x (.union
          (union D (DynamicType.getMemberBuilders ms) (DynamicType.getCaseDescriptors ms cs)) k a
          components)
      rw [hk'] at hset ⊢
      refine Follows.bind (f := setUnionData ms c w) hset fun r s hr hs => ?_
      cases hr
      rw [hs]
      exact setUnionData_balanced hbuilders hc
        (ih _ hmem (DynamicType.isBuilt_of_mem hbuilt.2 hmem)
          (DynamicType.hasDirectArrays_of_mem hmembers hmem)).1 hw ⟨k', a, components, rfl,
            hcomponents⟩
    | leaf | list | map | struct => cases hv

end XtypesToFastdds

end FastDdsSh
