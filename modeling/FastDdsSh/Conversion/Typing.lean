import FastDdsSh.Conversion.Components

/-!
# The types of the components

In DDS data the component for a member is of the type of the member, at any depth of structures and
unions.  The encoder keeps that, whatever it converts.
-/

namespace FastDdsSh

namespace DdsData

mutual

/-- Every component that belongs to a member is of the type of the member. -/
def IsTyped : DdsData → Prop
  | leaf _ _ => True
  | composite t cs | union t _ _ cs => AreTyped t.members cs

def AreTyped : List (String × DdsType) → List DdsData → Prop
  | m :: ms, c :: cs => c.type = m.2 ∧ c.IsTyped ∧ AreTyped ms cs
  | _, _ => True

end

theorem areTyped_nil (cs : List DdsData) : AreTyped [] cs := by
  cases cs <;> trivial

theorem areTyped_getElem? {ms : List (String × DdsType)} {cs : List DdsData} (h : AreTyped ms cs)
    {i : Nat} {m : String × DdsType} {c : DdsData} (hm : ms[i]? = some m) (hc : cs[i]? = some c) :
    c.type = m.2 ∧ c.IsTyped := by
  induction ms generalizing cs i with
  | nil => cases hm
  | cons head ms ih =>
    cases cs with
    | nil => cases hc
    | cons d cs =>
      obtain ⟨htype, htyped, hrest⟩ := h
      cases i with
      | zero =>
        cases hm
        cases hc
        exact ⟨htype, htyped⟩
      | succ i => exact ih hrest hm hc

theorem isTyped_iff (d : DdsData) : d.IsTyped ↔ AreTyped d.type.members d.components := by
  cases d with
  | leaf l v => exact ⟨fun _ => areTyped_nil _, fun _ => trivial⟩
  | composite t cs => rfl
  | union t n a cs => rfl

/-- The result is of the type of the data, and its components are of their types if those of the
data were. -/
def SameTyping (d r : DdsData) : Prop :=
  r.type = d.type ∧ (d.IsTyped → r.IsTyped)

theorem SameTyping.refl (d : DdsData) : SameTyping d d :=
  ⟨rfl, id⟩

theorem SameTyping.trans {d r s : DdsData} (h : SameTyping d r) (h' : SameTyping r s) :
    SameTyping d s :=
  ⟨h'.1.trans h.1, fun hd => h'.2 (h.2 hd)⟩

theorem areTyped_set {ms : List (String × DdsType)} {cs : List DdsData} {i : Nat} {c r : DdsData}
    (hc : cs[i]? = some c) (hr : SameTyping c r) (h : AreTyped ms cs) :
    AreTyped ms (cs.set i r) := by
  induction ms generalizing cs i with
  | nil => exact areTyped_nil _
  | cons head ms ih =>
    cases cs with
    | nil => cases hc
    | cons d cs =>
      obtain ⟨htype, htyped, hrest⟩ := h
      cases i with
      | zero =>
        cases hc
        exact ⟨hr.1.trans htype, hr.2 htyped, hrest⟩
      | succ i => exact ⟨htype, htyped, ih hc hrest⟩

/-- A component may be replaced by what its conversion gives. -/
theorem sameTyping_withComponent {d c r : DdsData} {id : MemberId} (hc : d.component id = some c)
    (hr : SameTyping c r) : SameTyping d (d.withComponent id r) := by
  cases id with
  | none =>
    cases hc
    exact hr
  | some i =>
    cases d with
    | leaf l v => exact SameTyping.refl _
    | composite t cs => exact ⟨rfl, areTyped_set hc hr⟩
    | union t n a cs =>
      rw [withComponent]
      split
      · exact ⟨rfl, areTyped_set hc hr⟩
      · exact SameTyping.refl _

theorem areTyped_of_members_eq_nil {t : DdsType} (h : t.members = []) (cs : List DdsData) :
    AreTyped t.members cs := by
  rw [h]
  exact areTyped_nil cs

/-- Data without members may get any component. -/
theorem sameTyping_setComplexValue {d : DdsData} {id : MemberId}
    (h : id = none ∨ d.type.members = []) (r : DdsData) :
    SameTyping d (d.setComplexValue r id) := by
  cases id with
  | none => exact SameTyping.refl d
  | some i =>
    -- data without members: any components are of the types of its members
    rcases h with h | h
    · cases h
    · cases d with
      | leaf l v => exact SameTyping.refl _
      | composite t cs => exact ⟨rfl, fun _ => areTyped_of_members_eq_nil h _⟩
      | union t n a cs =>
        rw [setComplexValue, if_neg (Option.some_ne_none i), withComponent]
        split
        · exact ⟨rfl, fun _ => areTyped_of_members_eq_nil h _⟩
        · exact SameTyping.refl _

theorem component_of_loanValue {d c : DdsData} {id : MemberId} (h : d.loanValue id = some c) :
    d.component id = some c := by
  unfold loanValue at h
  split at h
  · cases h
  · exact h

theorem sameTyping_setValue (d : DdsData) (a : Accessor) (x : CppValue) (id : MemberId) :
    SameTyping d ((d.setValue a x id).getD d) := by
  unfold setValue
  split
  · rename_i l v hc
    split
    · exact sameTyping_withComponent hc ⟨rfl, fun h => h⟩
    · exact SameTyping.refl d
  · exact SameTyping.refl d

theorem sameTyping_clearAllValues (d : DdsData) : SameTyping d d.clearAllValues := by
  unfold clearAllValues
  split
  · exact ⟨rfl, fun _ => areTyped_of_members_eq_nil rfl _⟩
  · exact ⟨rfl, fun _ => areTyped_of_members_eq_nil rfl _⟩
  · exact SameTyping.refl _

theorem sameTyping_insertMapData (d key value : DdsData) :
    SameTyping d (d.insertMapData key value) := by
  unfold insertMapData
  split
  · split
    · exact SameTyping.refl _
    · exact ⟨rfl, fun _ => areTyped_of_members_eq_nil rfl _⟩
  · exact SameTyping.refl _

theorem sameTyping_setDiscriminatorValue (d : DdsData) (n : Nat) :
    SameTyping d (d.setDiscriminatorValue n) := by
  cases d with
  | leaf | composite => exact SameTyping.refl _
  | union t k a cs => exact ⟨rfl, fun h => h⟩

variable [Dds]

theorem sameTyping_insertSequenceData (d : DdsData) :
    SameTyping d d.insertSequenceData.1 ∧
      (d.insertSequenceData.2 = none ∨ d.insertSequenceData.1.type.members = []) := by
  unfold insertSequenceData
  split
  · exact ⟨⟨rfl, fun _ => areTyped_of_members_eq_nil rfl _⟩, .inr rfl⟩
  · exact ⟨SameTyping.refl _, .inl rfl⟩

end DdsData

namespace DdsType

variable [Dds]

theorem type_createData (t : DdsType) : t.createData.type = t := by
  cases t <;> rfl

mutual

/-- Fresh data has components of the types of its members. -/
theorem isTyped_createData (t : DdsType) : t.createData.IsTyped := by
  cases t with
  | leaf l => trivial
  | array e bounds => exact DdsData.areTyped_of_members_eq_nil rfl _
  | sequence e b => exact DdsData.areTyped_of_members_eq_nil rfl _
  | map k t b => exact DdsData.areTyped_of_members_eq_nil rfl _
  | struct ms => exact areTyped_createMembers ms
  | union d ms cs => exact areTyped_createMembers ms

theorem areTyped_createMembers (ms : List (String × DdsType)) :
    DdsData.AreTyped ms (createMembers ms) := by
  match ms with
  | [] => trivial
  | (_, t) :: ms => exact ⟨type_createData t, isTyped_createData t, areTyped_createMembers ms⟩

end

end DdsType

variable [Xtypes] [Dds]

/-! ## The encoder -/

namespace XtypesToFastdds

open DdsData

def IsProper : Place → Prop
  | .sequenceElement d id => id = none ∨ d.type.members = []
  | _ => True

omit [Xtypes] [Dds] in
theorem getArrayIndex_eq_none_or (d : DdsData) (indexes : List Nat) :
    d.getArrayIndex indexes = none ∨ d.type.members = [] := by
  unfold getArrayIndex
  cases d.type with
  | array e bounds => exact .inr rfl
  | _ => exact .inl rfl

omit [Dds] in
theorem sameTyping_setLeaf {l : LeafType} {v : Value} {p : Place} {r : DdsData}
    (h : setLeaf l v p = .ok r) : SameTyping p.data r := by
  unfold setLeaf at h
  split at h
  · split at h
    · cases h
      exact sameTyping_setValue _ _ _ _
    · cases h
  · cases h

omit [Xtypes] in
theorem sameTyping_setNested {p : Place} (hp : IsProper p) {builder : Option DdsType}
    {convert : DdsData → Except Fault DdsData}
    (hconvert : ∀ y s, convert y = .ok s → SameTyping y s) {r : DdsData}
    (h : setNested p builder convert = .ok r) : SameTyping p.data r := by
  cases p with
  | whole d => exact hconvert d r h
  | member d id _ | entry d id =>
    unfold setNested at h
    cases hloan : d.loanValue id with
    | none => simp only [hloan] at h; cases h
    | some c =>
      simp only [hloan] at h
      obtain ⟨s, hs, hr⟩ := Except.bind_eq_ok_iff.mp h
      cases hr
      exact sameTyping_withComponent (component_of_loanValue hloan) (hconvert c s hs)
  | key d | arrayElement d _ | sequenceElement d _ =>
    unfold setNested at h
    cases builder with
    | none => cases h
    | some T =>
      obtain ⟨s, hs, hr⟩ := Except.bind_eq_ok_iff.mp h
      cases hr
      first
        | exact sameTyping_setComplexValue (.inl rfl) s
        | exact sameTyping_setComplexValue (getArrayIndex_eq_none_or _ _) s
        | exact sameTyping_setComplexValue hp s

omit [Xtypes] [Dds] in
theorem sameTyping_setArrayData {setElement : Value → DdsData → List Nat → Except Fault DdsData}
    (helement : ∀ v d indexes r, setElement v d indexes = .ok r → SameTyping d r)
    (indexes : List Nat) {vs : List Value} {idx : Nat} {d r : DdsData}
    (h : setArrayData setElement indexes vs idx d = .ok r) : SameTyping d r := by
  induction vs generalizing idx d with
  | nil =>
    cases h
    exact SameTyping.refl _
  | cons v vs ih =>
    obtain ⟨s, hs, hr⟩ := Except.bind_eq_ok_iff.mp h
    exact (helement v d _ s hs).trans (ih hr)

omit [Xtypes] in
theorem sameTyping_setSequenceData {setElement : Value → DdsData → MemberId → Except Fault DdsData}
    (helement : ∀ v d id r, (id = none ∨ d.type.members = []) → setElement v d id = .ok r →
      SameTyping d r)
    {vs : List Value} {d r : DdsData} (h : setSequenceData setElement vs d = .ok r) :
    SameTyping d r := by
  induction vs generalizing d with
  | nil =>
    cases h
    exact SameTyping.refl _
  | cons v vs ih =>
    obtain ⟨s, hs, hr⟩ := Except.bind_eq_ok_iff.mp h
    obtain ⟨hinserted, hproper⟩ := sameTyping_insertSequenceData d
    exact (hinserted.trans (helement v _ _ s hproper hs)).trans (ih hr)

omit [Xtypes] in
theorem sameTyping_setMapData {setKey setEntry : Value → DdsData → Except Fault DdsData}
    {keyBuilder valueBuilder : Option DdsType} {es : List (Value × Value)} {d r : DdsData}
    (h : setMapData setKey setEntry keyBuilder valueBuilder es d = .ok r) : SameTyping d r := by
  induction es generalizing d with
  | nil =>
    cases h
    exact SameTyping.refl _
  | cons e es ih =>
    unfold setMapData at h
    cases keyBuilder with
    | none => cases h
    | some K =>
      obtain ⟨key, -, h⟩ := Except.bind_eq_ok_iff.mp h
      cases valueBuilder with
      | none => cases h
      | some V =>
        obtain ⟨value, -, h⟩ := Except.bind_eq_ok_iff.mp h
        exact (sameTyping_insertMapData d key value).trans (ih h)

omit [Xtypes] [Dds] in
theorem sameTyping_setDiscriminator (discriminator : DynamicType) (x : Int) (d : DdsData) :
    SameTyping d (setDiscriminator discriminator x d) := by
  unfold setDiscriminator
  split
  · split
    · exact sameTyping_setDiscriminatorValue d _
    · exact SameTyping.refl d
  · exact SameTyping.refl d

/-- A conversion keeps the types of the data and of its components. -/
theorem sameTyping_encode {t : DynamicType} {v : Value} {p : Place} (hp : IsProper p) {r : DdsData}
    (h : encode t v p = .ok r) : SameTyping p.data r := by
  induction t using DynamicType.inductionOn generalizing v p r with
  | leafType n l => exact sameTyping_setLeaf h
  | bitsetType n =>
    cases h
    exact SameTyping.refl _
  | aliasType n t ih => exact ih hp h
  | arrayType n t d ih =>
    have hloop : ∀ (indexes : List Nat) (vs : List Value) (y s : DdsData),
        setArrayData (fun v output indexes => encode t v (.arrayElement output indexes)) indexes vs
          0 y = .ok s → SameTyping y s := by
      intro indexes vs y s hs
      exact sameTyping_setArrayData
        (fun v output indexes r hr => ih (p := .arrayElement output indexes) trivial hr) indexes hs
    cases v with
    | list vs =>
      cases p with
      | arrayElement output indexes =>
        rw [encode] at h
        exact hloop indexes vs output r h
      | whole | key | entry | member | sequenceElement =>
        rw [encode] at h
        · exact sameTyping_setNested hp (hloop [] vs) h
        · rintro _ _ ⟨⟩
    | leaf | map | struct | union => cases h
  | sequenceType n t b ih =>
    cases v with
    | list vs =>
      rw [encode] at h
      refine sameTyping_setNested hp (fun y s hs => ?_) h
      exact (sameTyping_clearAllValues y).trans
        (sameTyping_setSequenceData (fun v d id r hproper hr => ih (p := .sequenceElement d id)
          hproper hr) hs)
    | leaf | map | struct | union => cases h
  | mapType n k t b ihk iht =>
    cases v with
    | map es =>
      rw [encode] at h
      refine sameTyping_setNested hp (fun y s hs => ?_) h
      exact (sameTyping_clearAllValues y).trans (sameTyping_setMapData hs)
    | leaf | list | struct | union => cases h
  | structType n ms ih =>
    rw [encode] at h
    refine sameTyping_setNested hp (fun y s hs => ?_) h
    clear h hp
    induction ms generalizing y with
    | nil =>
      cases hs
      exact SameTyping.refl _
    | cons head ms ihms =>
      obtain ⟨m, mt⟩ := head
      rw [setStructData] at hs
      split at hs
      · obtain ⟨z, hz, hs⟩ := Except.bind_eq_ok_iff.mp hs
        have hfirst := ih _ List.mem_cons_self (p := .member y _ false) trivial hz
        exact hfirst.trans (ihms (fun m hm => ih m (List.mem_cons_of_mem _ hm)) z hs)
      · cases hs
  | unionType n d ms cs ihd ih =>
    cases v with
    | union x c w =>
      rw [encode] at h
      refine sameTyping_setNested hp (fun y s hs => ?_) h
      refine (sameTyping_setDiscriminator d x y).trans ?_
      generalize setDiscriminator d x y = z at hs
      clear h hp
      induction ms with
      | nil => cases hs
      | cons head ms ihms =>
        obtain ⟨m, mt⟩ := head
        rw [setUnionData] at hs
        split at hs
        · exact ih _ List.mem_cons_self (p := .member z _ true) trivial hs
        · exact ihms (fun m hm => ih m (List.mem_cons_of_mem _ hm)) hs
    | leaf | list | map | struct => cases h

end XtypesToFastdds

end FastDdsSh
