import FastDdsSh.Conversion.LoansToFastdds
import FastDdsSh.Conversion.Termination
import FastDdsSh.Conversion.Typing

/-!
# What a conversion gives is of its type

Neither conversion checks that the types of its two sides belong together, and what does not fit is
passed over or cast.  Still the values on both sides remain ones of their types: the xtypes data of
its xtypes type, and the DDS data of its DDS type with leaves in the range of their C++ types.
-/

namespace FastDdsSh

open Except Lookup

/-! ## Casts -/

namespace CppType

/-- A value of the first type can be cast to one of the second. -/
def Convertible (T U : CppType) : Prop :=
  T = U ∨ (T.bounds.isSome = true ∧ U.bounds.isSome = true)

instance (T U : CppType) : Decidable (T.Convertible U) := by
  unfold Convertible
  infer_instance

theorem convertible_of_sameWidth {T U : CppType} (h : T.sameWidth U = true) : T.Convertible U := by
  unfold sameWidth at h
  split at h
  · rename_i hT hU
    exact .inr ⟨by rw [hT]; rfl, by rw [hU]; rfl⟩
  · cases h

theorem admits_cast_integral {T : CppType} (h : T.bounds.isSome = true) (n : Int) :
    T.admits (T.cast (.integral n)) = true := by
  cases T <;> simp [bounds] at h <;> simp [cast, admits, bounds]
  case bool => split <;> decide
  all_goals omega

theorem Convertible.admits_cast {T U : CppType} (h : T.Convertible U) {x : CppValue}
    (hx : T.admits x = true) : U.admits (U.cast x) = true := by
  rcases h with rfl | ⟨hT, hU⟩
  · rw [cast_of_admits hx]
    exact hx
  · cases x with
    | integral n => exact admits_cast_integral hU n
    | real bits => cases T <;> cases hx <;> cases hT
    | text s => cases T <;> cases hx <;> cases hT

end CppType

theorem Accessor.convertible_of_actsOn {a : Accessor} {l : DdsLeaf} (h : a.actsOn l = true) :
    a.cppType.Convertible l.cppType := by
  cases a with
  | primitive kind =>
    cases l with
    | primitive kind' =>
      obtain rfl : kind = kind' := of_decide_eq_true h
      exact .inl rfl
    | string8 | string16 | enum => cases h
  | uint8 | int8 =>
    cases l with
    | primitive kind =>
      obtain rfl : kind = .byte := of_decide_eq_true h
      decide
    | string8 | string16 | enum => cases h
  | string | wstring | enum =>
    cases l <;> first | exact .inl rfl | cases h

/-! ## DDS data -/

namespace DdsData

/-- The leaves within have values of their C++ types. -/
def IsSound (d : DdsData) : Prop :=
  ∀ l v, d.Within (.leaf l v) → l.cppType.admits v = true

theorem isSound_iff (d : DdsData) : d.IsSound ↔
    (∀ l v, d = .leaf l v → l.cppType.admits v = true) ∧ ∀ c ∈ d.components, c.IsSound := by
  constructor
  · intro h
    refine ⟨fun l v hd => h l v (hd ▸ .refl _), fun c hc l v hv => h l v (.component hc hv)⟩
  · intro h l v hv
    cases hv with
    | refl => exact h.1 l v rfl
    | component hc hv => exact h.2 _ hc l v hv

theorem isSound_leaf {l : DdsLeaf} {v : CppValue} (h : l.cppType.admits v = true) :
    (leaf l v).IsSound := by
  rw [isSound_iff]
  refine ⟨fun l' v' heq => ?_, List.forall_mem_nil _⟩
  cases heq
  exact h

theorem isSound_composite {T : DdsType} {cs : List DdsData} :
    (composite T cs).IsSound ↔ ∀ c ∈ cs, c.IsSound := by
  rw [isSound_iff]
  exact and_iff_right fun l v heq => by cases heq

theorem isSound_union {T : DdsType} {n : Nat} {a : MemberId} {cs : List DdsData} :
    (union T n a cs).IsSound ↔ ∀ c ∈ cs, c.IsSound := by
  rw [isSound_iff]
  exact and_iff_right fun l v heq => by cases heq

theorem IsSound.within {d c : DdsData} (h : d.IsSound) (hc : d.Within c) : c.IsSound :=
  fun l v hv => h l v (hc.trans hv)

theorem within_of_component {d c : DdsData} {id : MemberId} (h : d.component id = some c) :
    d.Within c := by
  cases id with
  | none =>
    cases h
    exact .refl d
  | some i => exact .component (List.mem_of_getElem? h) (.refl c)

theorem IsSound.withComponent {d c : DdsData} (h : d.IsSound) (hc : c.IsSound) (id : MemberId) :
    (d.withComponent id c).IsSound := by
  cases id with
  | none => cases d <;> exact hc
  | some i =>
    cases d with
    | leaf l v => exact h
    | composite T cs => exact isSound_composite.mpr (forall_mem_set (isSound_composite.mp h) hc i)
    | union T n a cs =>
      rw [DdsData.withComponent]
      split
      · exact isSound_union.mpr (forall_mem_set (isSound_union.mp h) hc i)
      · exact h

theorem IsSound.setComplexValue {d c : DdsData} (h : d.IsSound) (hc : c.IsSound) (id : MemberId) :
    (d.setComplexValue c id).IsSound := by
  unfold DdsData.setComplexValue
  split
  · exact h
  · exact h.withComponent hc id

/-- A setter casts what it is given. -/
theorem IsSound.setValue {d r : DdsData} {a : Accessor} {x : CppValue} {id : MemberId}
    (h : d.IsSound) (hx : a.cppType.admits (a.cppType.cast x) = true)
    (hr : d.setValue a x id = some r) : r.IsSound := by
  unfold DdsData.setValue at hr
  split at hr
  · split at hr
    · rename_i hacts
      cases hr
      exact h.withComponent (isSound_leaf ((a.convertible_of_actsOn hacts).admits_cast hx)) id
    · cases hr
  · cases hr

/-- So does a getter. -/
theorem IsSound.getValue {d : DdsData} {a : Accessor} {x : CppValue} {id : MemberId}
    (h : d.IsSound) (hx : d.getValue a id = some x) : a.cppType.admits x = true := by
  unfold DdsData.getValue at hx
  split at hx
  · rename_i l v hc
    split at hx
    · rename_i hacts
      cases hx
      have hv : l.cppType.admits v = true := h l v (within_of_component hc)
      have hback : l.cppType.Convertible a.cppType :=
        (a.convertible_of_actsOn hacts).imp Eq.symm And.symm
      exact hback.admits_cast hv
    · cases hx
  · cases hx

theorem IsSound.clearAllValues {d : DdsData} (h : d.IsSound) : d.clearAllValues.IsSound := by
  unfold DdsData.clearAllValues
  split
  · exact isSound_composite.mpr (List.forall_mem_nil _)
  · exact isSound_composite.mpr (List.forall_mem_nil _)
  · exact h

theorem IsSound.insertMapData {d key value : DdsData} (h : d.IsSound) (hkey : key.IsSound)
    (hvalue : value.IsSound) : (d.insertMapData key value).IsSound := by
  unfold DdsData.insertMapData
  split
  · split
    · exact h
    · rw [isSound_composite] at h ⊢
      exact List.forall_mem_append.mpr ⟨h, List.forall_mem_cons.mpr
      ⟨hkey, List.forall_mem_singleton.mpr hvalue⟩⟩
  · exact h

theorem IsSound.setDiscriminatorValue {d : DdsData} (h : d.IsSound) (n : Nat) :
    (d.setDiscriminatorValue n).IsSound := by
  unfold DdsData.setDiscriminatorValue
  split
  · exact isSound_union.mpr (isSound_union.mp h)
  · exact h

end DdsData

/-! ## Defaults -/

/-- Fresh values are values of their types, and a fresh union has one of its cases. -/
class TypedXtypes [Xtypes] : Prop where
  defaultLeaf (l : LeafType) : l.cppType.admits (Xtypes.defaultLeaf l) = true
  initialCase (n : String) (d : DynamicType) (ms : List (String × DynamicType))
    (cs : List UnionCase) : ms ≠ [] → cs ≠ [] →
      (Xtypes.initialCase (.unionType n d ms cs)).2 ∈ ms.map Prod.fst

class TypedDds [Dds] : Prop where
  defaultLeaf (l : DdsLeaf) : l.cppType.admits (Dds.defaultLeaf l) = true
  indeterminate (T : CppType) : T.admits (Dds.indeterminate T) = true

namespace DynamicType

mutual

def hasCases : DynamicType → Bool
  | leafType _ _ | bitsetType _ => true
  | aliasType _ t | arrayType _ t _ | sequenceType _ t _ => t.hasCases
  | mapType _ k t _ => k.hasCases && t.hasCases
  | structType _ ms => haveCases ms
  | unionType _ d ms cs => d.hasCases && !ms.isEmpty && !cs.isEmpty && haveCases ms

def haveCases : List (String × DynamicType) → Bool
  | [] => true
  | (_, t) :: ms => t.hasCases && haveCases ms

end

theorem hasCases_of_mem {ms : List (String × DynamicType)} (h : haveCases ms = true)
    {m : String × DynamicType} (hm : m ∈ ms) : m.2.hasCases = true := by
  apply forall_of_check _ h hm
  intro m t ms
  rw [haveCases]

variable [Xtypes]

theorem admitsFields_defaultMembers {ms : List (String × DynamicType)}
    (h : ∀ m ∈ ms, m.2.admits m.2.default = true) : admitsFields ms (defaultMembers ms) = true := by
  induction ms with
  | nil => rfl
  | cons head ms ih =>
    obtain ⟨m, t⟩ := head
    obtain ⟨ht, hms⟩ := List.forall_mem_cons.mp h
    rw [defaultMembers, admitsFields, ht, ih hms]
    simp

theorem admits_default [TypedXtypes] {t : DynamicType} (h : t.hasCases = true) :
    t.admits t.default = true := by
  induction t using inductionOn with
  | leafType n l => exact TypedXtypes.defaultLeaf l
  | bitsetType n => rfl
  | aliasType n t ih => exact ih h
  | arrayType n t d ih =>
    rw [default, admits, List.length_replicate, decide_eq_true rfl, Bool.true_and,
      List.all_eq_true]
    intro v hv
    rw [List.eq_of_mem_replicate hv]
    exact ih h
  | sequenceType n t b ih => rfl
  | mapType n k t b ihk iht => rfl
  | structType n ms ih =>
    rw [default, admits]
    exact admitsFields_defaultMembers fun m hm => ih m hm (hasCases_of_mem h hm)
  | unionType n d ms cs ihd ih =>
    rw [hasCases, Bool.and_eq_true, Bool.and_eq_true, Bool.and_eq_true, Bool.not_eq_true',
      Bool.not_eq_true', List.isEmpty_eq_false_iff, List.isEmpty_eq_false_iff] at h
    obtain ⟨⟨⟨-, hms⟩, hcs⟩, hcases⟩ := h
    obtain ⟨⟨m, mt⟩, hm, heq⟩ :=
      List.mem_map.mp (TypedXtypes.initialCase n d ms cs hms hcs)
    have hfound : (ms.lookup (Xtypes.initialCase (unionType n d ms cs)).2).isSome = true :=
      List.lookup_isSome_iff.mpr ⟨_, hm, by simpa using heq.symm⟩
    obtain ⟨mt, hlookup⟩ := Option.isSome_iff_exists.mp hfound
    rw [default, admits, admitsCase_eq hlookup]
    rw [lookup_defaultMembers hlookup]
    exact ih _ (mem_of_lookup hlookup) (hasCases_of_mem hcases (mem_of_lookup hlookup))

end DynamicType

namespace DdsType

mutual

theorem isSound_createData [Dds] [TypedDds] (T : DdsType) : T.createData.IsSound := by
  cases T with
  | leaf l => exact DdsData.isSound_leaf (TypedDds.defaultLeaf l)
  | array e bounds =>
    refine DdsData.isSound_composite.mpr fun c hc => ?_
    rw [List.eq_of_mem_replicate hc]
    exact isSound_createData e
  | sequence e b => exact DdsData.isSound_composite.mpr (List.forall_mem_nil _)
  | map k t b => exact DdsData.isSound_composite.mpr (List.forall_mem_nil _)
  | struct ms => exact DdsData.isSound_composite.mpr (isSound_createMembers ms)
  | union d ms cs => exact DdsData.isSound_union.mpr (isSound_createMembers ms)

theorem isSound_createMembers [Dds] [TypedDds] (ms : List (String × DdsType)) :
    ∀ c ∈ createMembers ms, c.IsSound := by
  match ms with
  | [] => exact List.forall_mem_nil _
  | (_, T) :: ms =>
    exact List.forall_mem_cons.mpr ⟨isSound_createData T, isSound_createMembers ms⟩

end

end DdsType

theorem DdsData.IsSound.insertSequenceData [Dds] [TypedDds] {d : DdsData} (h : d.IsSound) :
    d.insertSequenceData.1.IsSound := by
  unfold DdsData.insertSequenceData
  split
  · rw [isSound_composite] at h ⊢
    exact List.forall_mem_append.mpr
      ⟨h, List.forall_mem_singleton.mpr (DdsType.isSound_createData _)⟩
  · exact h

/-! ## From xtypes to DDS -/

section

variable [Xtypes] [Dds]

omit [Dds] in
theorem LeafType.convertible_of_accessibleAs {l : LeafType} {T : CppType}
    (h : l.accessibleAs T = true) : l.cppType.Convertible T := by
  unfold accessibleAs at h
  rcases Bool.or_eq_true_iff.mp h with h | h
  · exact .inl (of_decide_eq_true h).symm
  · exact CppType.convertible_of_sameWidth (Bool.and_eq_true_iff.mp h).2

namespace XtypesToFastdds

omit [Dds] in
theorem isSound_setLeaf {l : LeafType} {n : String} {v : Value} {p : Place} (h : p.data.IsSound)
    (hv : (DynamicType.leafType n l).admits v = true) :
    Ensures DdsData.IsSound (setLeaf l v p) := by
  unfold setLeaf
  split
  · rename_i content
    rw [DynamicType.admits] at hv
    split
    · rename_i x hx
      unfold LeafType.valueAs at hx
      split at hx
      · rename_i haccessible
        cases hx
        refine .ok ?_
        have hread := (LeafType.convertible_of_accessibleAs haccessible).admits_cast hv
        have hsetter : (l.readAs p.position).Convertible (l.setter p.position).cppType := by
          cases l <;> cases p.position <;> first | exact .inl rfl | decide
        cases hr : p.data.setValue (l.setter p.position)
            ((l.readAs p.position).cast content) p.id with
        | none => exact h
        | some r => exact h.setValue (hsetter.admits_cast hread) hr
      · cases hx
    · exact .error _
  · exact .error _

omit [Xtypes] in
theorem isSound_setNested [TypedDds] {p : Place} (h : p.data.IsSound) (builder : Option DdsType)
    {convert : DdsData → Except Fault DdsData}
    (hconvert : ∀ y : DdsData, y.IsSound → Ensures DdsData.IsSound (convert y)) :
    Ensures DdsData.IsSound (setNested p builder convert) := by
  cases p with
  | whole d => exact hconvert d h
  | member d id _ | entry d id =>
    unfold setNested
    dsimp only
    split
    · rename_i c hc
      refine (hconvert c (h.within (DdsData.within_of_loanValue hc))).bind fun r hr => ?_
      exact .ok (h.withComponent hr id)
    · exact .error _
  | key d | arrayElement d _ | sequenceElement d _ =>
    unfold setNested
    dsimp only
    split
    · refine (hconvert _ (DdsType.isSound_createData _)).bind fun r hr => ?_
      exact .ok (h.setComplexValue hr _)
    · exact .error _

omit [Xtypes] [Dds] in
theorem isSound_setArrayData {Q : Value → Prop}
    {setElement : Value → DdsData → List Nat → Except Fault DdsData}
    (helement : ∀ v d indexes, Q v → d.IsSound → Ensures DdsData.IsSound (setElement v d indexes))
    (indexes : List Nat) {vs : List Value} (hvs : ∀ v ∈ vs, Q v) (idx : Nat) {d : DdsData}
    (h : d.IsSound) : Ensures DdsData.IsSound (setArrayData setElement indexes vs idx d) := by
  induction vs generalizing idx d with
  | nil => exact .ok h
  | cons v vs ih =>
    obtain ⟨hv, hvs⟩ := List.forall_mem_cons.mp hvs
    exact (helement v d _ hv h).bind fun r hr => ih hvs _ hr

omit [Xtypes] in
theorem isSound_setSequenceData [TypedDds] {Q : Value → Prop}
    {setElement : Value → DdsData → MemberId → Except Fault DdsData}
    (helement : ∀ v d id, Q v → d.IsSound → Ensures DdsData.IsSound (setElement v d id))
    {vs : List Value} (hvs : ∀ v ∈ vs, Q v) {d : DdsData} (h : d.IsSound) :
    Ensures DdsData.IsSound (setSequenceData setElement vs d) := by
  induction vs generalizing d with
  | nil => exact .ok h
  | cons v vs ih =>
    obtain ⟨hv, hvs⟩ := List.forall_mem_cons.mp hvs
    exact (helement v _ _ hv h.insertSequenceData).bind fun r hr => ih hvs hr

omit [Xtypes] in
theorem isSound_setMapData [TypedDds] {Q R : Value → Prop}
    {setKey setEntry : Value → DdsData → Except Fault DdsData}
    (hkey : ∀ v d, Q v → d.IsSound → Ensures DdsData.IsSound (setKey v d))
    (hentry : ∀ v d, R v → d.IsSound → Ensures DdsData.IsSound (setEntry v d))
    (keyBuilder valueBuilder : Option DdsType) {es : List (Value × Value)}
    (hes : ∀ e ∈ es, Q e.1 ∧ R e.2) {d : DdsData} (h : d.IsSound) :
    Ensures DdsData.IsSound (setMapData setKey setEntry keyBuilder valueBuilder es d) := by
  induction es generalizing d with
  | nil => exact .ok h
  | cons e es ih =>
    obtain ⟨he, hes⟩ := List.forall_mem_cons.mp hes
    unfold setMapData
    cases keyBuilder with
    | none => exact .error _
    | some K =>
      refine (hkey _ _ he.1 K.isSound_createData).bind fun key hkeyData => ?_
      cases valueBuilder with
      | none => exact .error _
      | some V =>
        refine (hentry _ _ he.2 V.isSound_createData).bind fun value hvalueData => ?_
        exact ih hes (h.insertMapData hkeyData hvalueData)

omit [Xtypes] [Dds] in
theorem isSound_setDiscriminator (discriminator : DynamicType) (x : Int) {d : DdsData}
    (h : d.IsSound) : (setDiscriminator discriminator x d).IsSound := by
  unfold setDiscriminator
  split
  · split
    · exact h.setDiscriminatorValue _
    · exact h
  · exact h

def EncodesSoundly (t : DynamicType) : Prop :=
  ∀ v p, t.admits v = true → p.data.IsSound → Ensures DdsData.IsSound (encode t v p)

theorem isSound_setStructData {ms : List (String × DynamicType)} {v : Value}
    (hms : ∀ m ∈ ms, EncodesSoundly m.2)
    (hfields : ∀ m ∈ ms, ∀ w, v.field m.2 m.1 = some w → m.2.admits w = true) {d : DdsData}
    (h : d.IsSound) : Ensures DdsData.IsSound (setStructData ms v d) := by
  induction ms generalizing d with
  | nil => exact .ok h
  | cons head ms ih =>
    obtain ⟨m, t⟩ := head
    obtain ⟨ht, hms⟩ := List.forall_mem_cons.mp hms
    obtain ⟨hfield, hfields⟩ := List.forall_mem_cons.mp hfields
    rw [setStructData]
    split
    · rename_i w hw
      exact (ht w (.member d _ false) (hfield w hw) h).bind fun r hr => ih hms hfields hr
    · exact .error _

theorem isSound_setUnionData {ms : List (String × DynamicType)} {c : String} {w : Value}
    (hms : ∀ m ∈ ms, EncodesSoundly m.2) (hcase : DynamicType.admitsCase ms c w = true)
    {d : DdsData} (h : d.IsSound) : Ensures DdsData.IsSound (setUnionData ms c w d) := by
  induction ms with
  | nil => exact .error _
  | cons head ms ih =>
    obtain ⟨m, t⟩ := head
    obtain ⟨ht, hms⟩ := List.forall_mem_cons.mp hms
    rw [setUnionData]
    rw [DynamicType.admitsCase] at hcase
    split
    · rename_i hm
      rw [if_pos hm] at hcase
      exact ht w (.member d _ true) hcase h
    · rename_i hm
      rw [if_neg hm] at hcase
      exact ih hms hcase

theorem encodesSoundly [TypedXtypes] [TypedDds] {t : DynamicType}
    (hnames : t.hasDistinctNames = true) (hcases : t.hasCases = true) : EncodesSoundly t := by
  induction t using DynamicType.inductionOn with
  | leafType n l =>
    intro v p hv h
    rw [encode]
    exact isSound_setLeaf h hv
  | bitsetType n =>
    intro v p _ h
    rw [encode]
    exact .ok h
  | aliasType n t ih =>
    intro v p hv h
    rw [encode]
    exact ih hnames hcases v p hv h
  | arrayType n t d ih =>
    intro v p hv h
    cases v with
    | list vs =>
      rw [DynamicType.admits, Bool.and_eq_true, List.all_eq_true] at hv
      have hloop : ∀ (indexes : List Nat) (y : DdsData), y.IsSound → Ensures DdsData.IsSound
          (setArrayData (fun v output indexes => encode t v (.arrayElement output indexes))
            indexes vs 0 y) := by
        intro indexes y hy
        refine isSound_setArrayData (fun v d is hv hd => ?_) indexes hv.2 0 hy
        exact ih hnames hcases v (.arrayElement d is) hv hd
      cases p with
      | arrayElement output indexes =>
        rw [encode]
        exact hloop indexes output h
      | whole | key | entry | member | sequenceElement =>
        rw [encode]
        · exact isSound_setNested h _ (hloop [])
        · rintro _ _ ⟨⟩
    | leaf | map | struct | union => cases hv
  | sequenceType n t b ih =>
    intro v p hv h
    cases v with
    | list vs =>
      rw [DynamicType.admits, List.all_eq_true] at hv
      rw [encode]
      refine isSound_setNested h _ fun y hy => ?_
      refine isSound_setSequenceData (fun v d id hv hd => ?_) hv hy.clearAllValues
      exact ih hnames hcases v (.sequenceElement d id) hv hd
    | leaf | map | struct | union => cases hv
  | mapType n k t b ihk iht =>
    intro v p hv h
    rw [DynamicType.hasDistinctNames, Bool.and_eq_true] at hnames
    rw [DynamicType.hasCases, Bool.and_eq_true] at hcases
    cases v with
    | map es =>
      rw [DynamicType.admits, Bool.and_eq_true, List.all_eq_true] at hv
      have hes : ∀ e ∈ es, k.admits e.1 = true ∧ t.admits e.2 = true :=
        fun e he => Bool.and_eq_true_iff.mp (hv.1 e he)
      rw [encode]
      refine isSound_setNested h _ fun y hy => ?_
      refine isSound_setMapData (Q := fun v => k.admits v = true) (R := fun v => t.admits v = true)
        (fun v d hv hd => ?_) (fun v d hv hd => ?_) _ _ hes hy.clearAllValues
      · exact ihk hnames.1 hcases.1 v (.key d) hv hd
      · exact iht hnames.2 hcases.2 v (.whole d) hv hd
    | leaf | list | struct | union => cases hv
  | structType n ms ih =>
    intro v p hv h
    rw [DynamicType.hasDistinctNames, Bool.and_eq_true] at hnames
    rw [encode]
    refine isSound_setNested h _ fun y hy => ?_
    refine isSound_setStructData (fun m hm => ?_) (fun m hm w hw => ?_) hy
    · exact ih m hm (DynamicType.hasDistinctNames_of_mem hnames.2 hm)
        (DynamicType.hasCases_of_mem hcases hm)
    · have hlookup := lookup_of_mem (of_decide_eq_true hnames.1) hm
      obtain ⟨w', hw', hadmits⟩ :=
        DynamicType.field_of_admits (t := .structType n ms) hlookup hv
      rw [hw] at hw'
      cases hw'
      rcases hadmits with hadmits | rfl
      · exact hadmits
      · exact DynamicType.admits_default (DynamicType.hasCases_of_mem hcases hm)
  | unionType n d ms cs ihd ih =>
    intro v p hv h
    rw [DynamicType.hasDistinctNames, Bool.and_eq_true] at hnames
    rw [DynamicType.hasCases, Bool.and_eq_true] at hcases
    cases v with
    | union x c w =>
      rw [encode]
      refine isSound_setNested h _ fun y hy => ?_
      refine isSound_setUnionData (fun m hm => ?_) hv (isSound_setDiscriminator d x hy)
      exact ih m hm (DynamicType.hasDistinctNames_of_mem hnames.2 hm)
        (DynamicType.hasCases_of_mem hcases.2 hm)
    | leaf | list | map | struct => cases hv

end XtypesToFastdds

end

/-! ## From DDS to xtypes -/

def DynamicType.AdmitsResult (t : DynamicType) (r : Option Value) : Prop :=
  ∀ w, r = some w → t.admits w = true

theorem DynamicType.admitsResult_some {t : DynamicType} {w : Value} (h : t.admits w = true) :
    t.AdmitsResult (some w) := by
  intro w' heq
  cases heq
  exact h

theorem DynamicType.admitsResult_none (t : DynamicType) : t.AdmitsResult none := by
  intro w heq
  cases heq

theorem DynamicType.AdmitsResult.getD {t : DynamicType} {r : Option Value} (h : t.AdmitsResult r)
    {v : Value} (hv : t.admits v = true) : t.admits (r.getD v) = true := by
  cases r with
  | none => exact hv
  | some w => exact h w rfl

/-- Another member is written, in a union perhaps that of another case. -/
theorem DynamicType.admits_withField_of_member [Xtypes] {t mt : DynamicType} {m : String}
    {v x : Value} (hm : t.member m = some mt) (h : t.admits v = true) (hx : mt.admits x = true) :
    t.admits (v.withField t m x) = true := by
  by_cases hpresent : v.Present [m]
  · exact admits_withField hm h hpresent hx
  · have hlookup := hm
    unfold member members at hlookup
    split at hlookup
    · cases v with
      | struct fields =>
        rw [admits] at h
        show DynamicType.admits (structType _ _) (.struct _) = true
        rw [admits]
        exact admitsFields_setField h hlookup hx
      | union | leaf | list | map => cases h
    · cases v with
      | union d c u =>
        have hne : c ≠ m := fun heq => hpresent ⟨heq, trivial⟩
        rw [Value.withField_select _ _ _ _ hne, admits, admitsCase_eq hlookup]
        exact hx
      | struct | leaf | list | map => cases h
    · cases hlookup

variable [Xtypes] [Dds]

namespace FastddsToXtypes

omit [Xtypes] in
theorem admits_read [TypedDds] {d : DdsData} (h : d.IsSound) (a : Accessor) (id : MemberId) :
    a.cppType.admits (read d a id) = true := by
  unfold read
  cases hx : d.getValue a id with
  | none => exact TypedDds.indeterminate _
  | some x => exact h.getValue hx

omit [Dds] in
theorem admitsResult_store {l : LeafType} {n : String} {A T : CppType} {x : CppValue}
    (hx : A.admits x = true) (hA : A.Convertible T) :
    Ensures (DynamicType.leafType n l).AdmitsResult (store l T x) := by
  unfold store
  split
  · rename_i content hcontent
    unfold LeafType.storedAs at hcontent
    split at hcontent
    · rename_i haccessible
      cases hcontent
      have hback : T.Convertible l.cppType :=
        (LeafType.convertible_of_accessibleAs haccessible).imp Eq.symm And.symm
      exact .ok (DynamicType.admitsResult_some (hback.admits_cast (hA.admits_cast hx)))
    · cases hcontent
  · exact .error _

omit [Xtypes] [Dds] in
theorem convertible_of_writtenAs {l : LeafType} {d : DdsLeaf} {inUnion : Bool} {T : CppType}
    (h : l.writtenAs d inUnion = some T) : d.getter.cppType.Convertible T := by
  have hgetter : d.getter.cppType = d.cppType := by cases d <;> rfl
  rw [hgetter]
  unfold LeafType.writtenAs at h
  split at h
  · split at h
    · cases h
      decide
    · split at h
      · cases h
        decide
      · cases h
        decide
      · cases h
        decide
      · cases h
  · cases h
    exact .inl rfl

theorem admitsResult_setLeaf [TypedDds] {l : LeafType} {n : String} {p : Place} {current : Value}
    (h : p.data.IsSound) (hcurrent : (DynamicType.leafType n l).admits current = true) :
    Ensures (DynamicType.leafType n l).AdmitsResult (setLeaf l p current) := by
  unfold setLeaf
  split
  · split
    · split
      · rename_i T hT
        exact admitsResult_store (admits_read h _ _) (convertible_of_writtenAs hT)
      · exact .ok (DynamicType.admitsResult_some hcurrent)
    · exact .error _
  · exact admitsResult_store (admits_read h _ _) (.inl rfl)

omit [Xtypes] [Dds] in
theorem admitsResult_mismatched {t : DynamicType} {current : Value} (p : Place)
    (hcurrent : t.admits current = true) : Ensures t.AdmitsResult (mismatched p current) := by
  unfold mismatched
  split
  · split
    · exact .ok (DynamicType.admitsResult_some hcurrent)
    · exact .error _
  · exact .error _

omit [Xtypes] [Dds] in
theorem admitsResult_setCollection {t : DynamicType} {p : Place} (h : p.data.IsSound)
    (kind : TypeKind) {current : Value} (hcurrent : t.admits current = true)
    {convert : DdsData → Except Fault Value}
    (hconvert : ∀ c : DdsData, c.IsSound → Ensures (fun v => t.admits v = true) (convert c)) :
    Ensures t.AdmitsResult (setCollection p kind current convert) := by
  unfold setCollection
  split
  · split
    · rename_i c hc
      exact (hconvert c (h.within (within_of_nestedData hc))).map fun v hv =>
        DynamicType.admitsResult_some hv
    · exact .error _
  · exact admitsResult_mismatched p hcurrent

omit [Xtypes] [Dds] in
theorem admits_setArrayData {t : DynamicType}
    {getElement : List Nat → Except Fault (Option Value)}
    (helement : ∀ indexes, Ensures t.AdmitsResult (getElement indexes)) (indexes : List Nat)
    {output : List Value} (houtput : ∀ v ∈ output, t.admits v = true) (idx : Nat) :
    Ensures (fun vs => vs.length = output.length ∧ ∀ v ∈ vs, t.admits v = true)
      (setArrayData getElement indexes output idx) := by
  induction output generalizing idx with
  | nil => exact .ok ⟨rfl, List.forall_mem_nil _⟩
  | cons v output ih =>
    obtain ⟨hv, houtput⟩ := List.forall_mem_cons.mp houtput
    rw [setArrayData]
    refine (helement _).bind fun r hr => (ih houtput _).bind fun rest hrest => .ok ?_
    exact ⟨congrArg Nat.succ hrest.1, List.forall_mem_cons.mpr ⟨hr.getD hv, hrest.2⟩⟩

omit [Xtypes] [Dds] in
theorem admits_setSequenceData {t : DynamicType}
    {getElement : MemberId → Except Fault (Option Value)}
    (helement : ∀ id, Ensures t.AdmitsResult (getElement id)) (idxs : List Nat)
    {output : List Value} (houtput : ∀ v ∈ output, t.admits v = true) :
    Ensures (fun vs => ∀ v ∈ vs, t.admits v = true) (setSequenceData getElement idxs output) := by
  induction idxs generalizing output with
  | nil => exact .ok houtput
  | cons idx idxs ih =>
    rw [setSequenceData]
    refine (helement _).bind fun r hr => ih (List.forall_mem_append.mpr ⟨houtput, fun v hv => ?_⟩)
    exact hr v (Option.mem_toList.mp hv)

omit [Xtypes] [Dds] in
/-- Writing under a key keeps keys apart. -/
theorem mem_setEntry {key value : Value} {es : List (Value × Value)} {e : Value × Value}
    (he : e ∈ setEntry key value es) :
    (e.1 = key ∨ e.1 ∈ es.map Prod.fst) ∧ (e ∈ es ∨ e = (key, value)) := by
  induction es with
  | nil =>
    obtain rfl := List.mem_singleton.mp he
    exact ⟨.inl rfl, .inr rfl⟩
  | cons head es ih =>
    rw [setEntry] at he
    split at he
    · rename_i hkey
      rcases List.mem_cons.mp he with rfl | he
      · exact ⟨.inl hkey, .inr (Prod.ext hkey rfl)⟩
      · exact ⟨.inr (List.mem_cons_of_mem _ (List.mem_map_of_mem he)),
          .inl (List.mem_cons_of_mem _ he)⟩
    · rcases List.mem_cons.mp he with rfl | he
      · exact ⟨.inr List.mem_cons_self, .inl List.mem_cons_self⟩
      · obtain ⟨hkey, hmem⟩ := ih he
        exact ⟨hkey.imp_right (List.mem_cons_of_mem _), hmem.imp_left (List.mem_cons_of_mem _)⟩

omit [Xtypes] [Dds] in
theorem nodup_setEntry {key value : Value} {es : List (Value × Value)}
    (h : (es.map Prod.fst).Nodup) : ((setEntry key value es).map Prod.fst).Nodup := by
  induction es with
  | nil => exact List.nodup_singleton _
  | cons head es ih =>
    obtain ⟨hhead, hes⟩ := List.nodup_cons.mp h
    rw [setEntry]
    split
    · exact List.nodup_cons.mpr ⟨hhead, hes⟩
    · rename_i hne
      refine List.nodup_cons.mpr ⟨fun hmem => ?_, ih hes⟩
      obtain ⟨e, he, heq⟩ := List.mem_map.mp hmem
      rcases (mem_setEntry he).1 with hkey | hkey
      · exact hne (heq.symm.trans hkey)
      · exact hhead (heq ▸ hkey)

omit [Xtypes] [Dds] in
theorem admits_setMapData {n : String} {b : Nat} {k t : DynamicType}
    {getKey getEntry : MemberId → Except Fault (Option Value)}
    (hkey : ∀ id, Ensures k.AdmitsResult (getKey id))
    (hentry : ∀ id, Ensures t.AdmitsResult (getEntry id)) {defaults : Value × Value}
    (hdefaults : k.admits defaults.1 = true ∧ t.admits defaults.2 = true) (idxs : List Nat)
    {output : List (Value × Value)}
    (houtput : (DynamicType.mapType n k t b).admits (.map output) = true) :
    Ensures (fun es => (DynamicType.mapType n k t b).admits (.map es) = true)
      (setMapData getKey getEntry defaults idxs output) := by
  induction idxs generalizing output with
  | nil => exact .ok houtput
  | cons idx idxs ih =>
    rw [setMapData]
    refine (hkey _).bind fun key hk => (hentry _).bind fun value hv => ih ?_
    rw [DynamicType.admits, Bool.and_eq_true, List.all_eq_true] at houtput ⊢
    refine ⟨fun e he => ?_, decide_eq_true (nodup_setEntry (of_decide_eq_true houtput.2))⟩
    rcases (mem_setEntry he).2 with he | rfl
    · exact houtput.1 e he
    · exact Bool.and_eq_true_iff.mpr ⟨hk.getD hdefaults.1, hv.getD hdefaults.2⟩

theorem admits_setMember [TypedXtypes] {fuel : Nat} {t : DynamicType} {p : Place}
    (hcases : ∀ m ∈ t.members, m.2.hasCases = true)
    (hdecode : ∀ m ∈ t.members, ∀ current, m.2.admits current = true →
      Ensures m.2.AdmitsResult (decode fuel m.2 p current))
    (name : String) {output : Value} (houtput : t.admits output = true) :
    Ensures (fun v => t.admits v = true) (setMember fuel t t.members name p output) := by
  cases hm : t.members.lookup name with
  | none =>
    have herror : setMember fuel t t.members name p output = setMember fuel t [] name p output :=
      eq_of_lookup_none (F := fun ms => setMember fuel t ms name p output)
        (g := fun mt => setMember fuel t [(name, mt)] name p output)
        (fun m mt ms => by simp only [setMember]; split <;> simp [*]) hm
    rw [herror]
    exact .error _
  | some mt =>
    have hmem := mem_of_lookup hm
    obtain ⟨current, hfield, hadmits⟩ := DynamicType.field_of_admits hm houtput
    have hcurrent : mt.admits current = true := by
      rcases hadmits with hadmits | rfl
      · exact hadmits
      · exact DynamicType.admits_default (hcases _ hmem)
    rw [setMember_of_lookup hm p hfield]
    refine (hdecode _ hmem current hcurrent).map fun r hr => ?_
    cases r with
    | none => exact houtput
    | some w => exact DynamicType.admits_withField_of_member hm houtput (hr w rfl)

omit [Xtypes] in
theorem admits_setStructData {Q : Value → Prop}
    {setMember : String → Place → Value → Except Fault Value} {input : DdsData}
    (hmember : ∀ name id output, Q output →
      Ensures Q (setMember name (.member input id false) output)) (fuel i : Nat) {output : Value}
    (houtput : Q output) : Ensures Q (setStructData setMember input fuel i output) := by
  induction fuel generalizing i output with
  | zero => exact .error _
  | succ fuel ih =>
    rw [setStructData]
    split
    · exact .ok houtput
    · split
      · exact ih i houtput
      · exact (hmember _ _ _ houtput).bind fun v hv => ih (i + 1) hv

omit [Xtypes] in
theorem admitsResult_setAggregation {t : DynamicType} {p : Place} (h : p.data.IsSound)
    {setMember : String → Place → Value → Except Fault Value}
    (hmember : ∀ (c : DdsData), c.IsSound → ∀ name id inUnion output, t.admits output = true →
      Ensures (fun v => t.admits v = true) (setMember name (.member c id inUnion) output))
    (fuel : Nat) (kind : TypeKind) {output : Value} (houtput : t.admits output = true) :
    Ensures t.AdmitsResult (setAggregation fuel setMember p kind output) := by
  unfold setAggregation
  split
  · rename_i c _ hnested
    have hc := h.within (within_of_nestedData hnested)
    exact (admits_setStructData (Q := fun v => t.admits v = true)
      (fun name id output => hmember c hc name id false output) fuel 0 houtput).map
        fun v hv => DynamicType.admitsResult_some hv
  · rename_i c _ hnested
    have hc := h.within (within_of_nestedData hnested)
    refine Ensures.map (Q := fun v => t.admits v = true) ?_ fun v hv =>
      DynamicType.admitsResult_some hv
    unfold setUnionData
    split
    · exact .ok houtput
    · exact hmember c hc _ _ true output houtput
  · exact .ok t.admitsResult_none
  · exact .ok t.admitsResult_none
  · exact .error _
  · exact .error _
  · exact admitsResult_mismatched _ houtput

/-- What is read into a value of the type, from whatever data. -/
theorem admitsResult_decode [TypedXtypes] [TypedDds] (fuel : Nat) {t : DynamicType}
    (hcases : t.hasCases = true) {p : Place} (h : p.data.IsSound) {current : Value}
    (hcurrent : t.admits current = true) : Ensures t.AdmitsResult (decode fuel t p current) := by
  induction t using DynamicType.inductionOn generalizing p current with
  | leafType n l =>
    rw [decode]
    exact admitsResult_setLeaf h hcurrent
  | bitsetType n =>
    unfold decode
    split
    · exact admitsResult_mismatched _ hcurrent
    · exact .ok (DynamicType.admitsResult_none _)
  | aliasType n t ih =>
    rw [decode]
    exact ih hcases h hcurrent
  | arrayType n t d ih =>
    have hdefault := DynamicType.admits_default (t := t) hcases
    cases current with
    | list output =>
      rw [DynamicType.admits, Bool.and_eq_true, List.all_eq_true] at hcurrent
      have hadmits : ∀ vs : List Value,
          (vs.length = output.length ∧ ∀ v ∈ vs, t.admits v = true) →
            (DynamicType.arrayType n t d).admits (.list vs) = true := by
        intro vs hvs
        rw [DynamicType.admits, Bool.and_eq_true, List.all_eq_true, hvs.1]
        exact ⟨hcurrent.1, hvs.2⟩
      have hloop : ∀ (c : DdsData), c.IsSound → ∀ indexes,
          Ensures (fun vs => (DynamicType.arrayType n t d).admits (.list vs) = true)
            (setArrayData (fun indexes => decode fuel t (.arrayElement c indexes) t.default)
              indexes output 0) := by
        intro c hc indexes vs hvs
        refine hadmits vs (admits_setArrayData (fun is => ?_) indexes hcurrent.2 0 vs hvs)
        exact ih hcases (p := .arrayElement c is) hc hdefault
      unfold decode
      dsimp only
      split
      · rename_i input indexes
        exact (hloop input h indexes).bind fun vs hvs => .ok (DynamicType.admitsResult_some hvs)
      · refine admitsResult_setCollection h _ (hadmits output ⟨rfl, hcurrent.2⟩) fun c hc => ?_
        exact (hloop c hc []).bind fun vs hvs => .ok hvs
    | leaf | map | struct | union => cases hcurrent
  | sequenceType n t b ih =>
    have hdefault := DynamicType.admits_default (t := t) hcases
    cases current with
    | list output =>
      have houtput := hcurrent
      rw [DynamicType.admits, List.all_eq_true] at houtput
      rw [decode]
      refine admitsResult_setCollection h _ hcurrent fun c hc => ?_
      refine (admits_setSequenceData (fun id => ?_) _ houtput).bind fun vs hvs => .ok ?_
      · exact ih hcases (p := .sequenceElement c id) hc hdefault
      · exact List.all_eq_true.mpr hvs
    | leaf | map | struct | union => cases hcurrent
  | mapType n k t b ihk iht =>
    rw [DynamicType.hasCases, Bool.and_eq_true] at hcases
    have hkey := DynamicType.admits_default hcases.1
    have hvalue := DynamicType.admits_default hcases.2
    cases current with
    | map output =>
      rw [decode]
      refine admitsResult_setCollection h _ hcurrent fun c hc => ?_
      refine (admits_setMapData (fun id => ?_) (fun id => ?_) ⟨hkey, hvalue⟩ _ hcurrent).bind
        fun es hes => .ok hes
      · exact ihk hcases.1 (p := .entry c id) hc hkey
      · exact iht hcases.2 (p := .entry c id) hc hvalue
    | leaf | list | struct | union => cases hcurrent
  | structType n ms ih =>
    rw [decode]
    refine admitsResult_setAggregation h (fun c hc name id inUnion output houtput => ?_) fuel _
      hcurrent
    refine admits_setMember (t := .structType n ms)
      (fun m hm => DynamicType.hasCases_of_mem hcases hm)
      (fun m hm current hcurrent => ?_) name houtput
    exact ih m hm (DynamicType.hasCases_of_mem hcases hm) (p := .member c id inUnion) hc hcurrent
  | unionType n d ms cs ihd ih =>
    rw [DynamicType.hasCases, Bool.and_eq_true] at hcases
    rw [decode]
    refine admitsResult_setAggregation h (fun c hc name id inUnion output houtput => ?_) fuel _
      hcurrent
    refine admits_setMember (t := .unionType n d ms cs)
      (fun m hm => DynamicType.hasCases_of_mem hcases.2 hm)
      (fun m hm current hcurrent => ?_) name houtput
    exact ih m hm (DynamicType.hasCases_of_mem hcases.2 hm) (p := .member c id inUnion) hc hcurrent

end FastddsToXtypes

end FastDdsSh
