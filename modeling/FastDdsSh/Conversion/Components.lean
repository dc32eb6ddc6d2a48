import FastDdsSh.Lib.Outcome
import FastDdsSh.Conversion.Content
import FastDdsSh.Conversion.ToFastdds
import FastDdsSh.Conversion.ToXtypes

/-!
# One component, there and back

What the two conversions do at a place that holds a component of the DDS type built for it, and the
statement about a type that is proved by induction over the types: the component that is written is
read back, at whatever place it is found later.
-/

namespace FastDdsSh

/-! ## Places -/

namespace Place

def Holds : Place → DdsType → DdsData → Prop
  | whole d, _, c | key d, _, c => d = c
  | member d id _, T, c =>
      id ≠ none ∧ d.component id = some c ∧ ∃ name, d.memberDescriptor id = some (name, T)
  | entry d id, _, c | sequenceElement d id, _, c => id ≠ none ∧ d.component id = some c
  | arrayElement d indexes, _, c =>
      d.getArrayIndex indexes ≠ none ∧ d.component (d.getArrayIndex indexes) = some c

def put (p : Place) (c : DdsData) : DdsData :=
  p.data.withComponent p.id c

/-- The conversion of a component of type `t` has an object of its own at the place: a composite key
has none, and an array in an array has none. -/
def Fits : Place → DynamicType → Prop
  | key _, t => t.isLeaf = true
  | arrayElement _ _, t => t.isArray = false
  | _, _ => True

/-- What is converted into a key of its own is a leaf. -/
theorem Fits.ne_key {p : Place} {t : DynamicType} (h : p.Fits t) (ht : t.isLeaf = false)
    (d : DdsData) : p ≠ .key d := by
  rintro rfl
  exact Bool.false_ne_true (ht.symm.trans h)

theorem fits_aliasType {p : Place} {n : String} {t : DynamicType} :
    p.Fits (.aliasType n t) ↔ p.Fits t := by
  cases p <;> exact Iff.rfl

theorem Holds.component {p : Place} {T : DdsType} {c : DdsData} (h : p.Holds T c) :
    p.data.component p.id = some c := by
  cases p with
  | whole d | key d => exact congrArg some h
  | member d id inUnion => exact h.2.1
  | entry d id | sequenceElement d id | arrayElement d indexes => exact h.2

/-- The id of a component on loan. -/
theorem Holds.exists_id {p : Place} {T : DdsType} {c : DdsData} (h : p.Holds T c)
    (hwhole : ∀ d, p ≠ .whole d) (hkey : ∀ d, p ≠ .key d) : ∃ i, p.id = some i := by
  apply Option.ne_none_iff_exists'.mp
  cases p with
  | whole d => exact absurd rfl (hwhole d)
  | key d => exact absurd rfl (hkey d)
  | member | entry | sequenceElement | arrayElement => exact h.1

end Place

namespace DdsData

theorem withComponent_composite {T : DdsType} {cs : List DdsData} {c : DdsData} {i : Nat}
    (h : cs[i]? = some c) :
    (composite T cs).withComponent (some i) c = .composite T cs := by
  obtain ⟨hlt, rfl⟩ := List.getElem?_eq_some_iff.mp h
  exact congrArg _ (List.set_getElem_self hlt)

/-- The active member of a union stays the active one. -/
theorem withComponent_union {T : DdsType} {n : Nat} {cs : List DdsData} {c : DdsData} {i : Nat}
    (h : cs[i]? = some c) :
    (union T n (some i) cs).withComponent (some i) c = .union T n (some i) cs := by
  obtain ⟨hlt, rfl⟩ := List.getElem?_eq_some_iff.mp h
  show (if i < cs.length then _ else _) = _
  rw [if_pos hlt, List.set_getElem_self hlt]

end DdsData

variable [Xtypes] [Dds]

/-! ## Leaves -/

omit [Dds] in
/-- A leaf is stored where the accessor is not an error. -/
theorem XtypesToFastdds.setLeaf_outcome {l : LeafType} {n : String} {p : Place} {x : CppValue}
    (content : CppValue) (h : p.Holds (.leaf (l.getBuilder n)) (.leaf (l.getBuilder n) x)) :
    Outcome .exception (l.readable p.position)
      (· = p.put (.leaf (l.getBuilder n) (l.stored p.position content)))
      (setLeaf l (.leaf content) p) := by
  have hset (y : CppValue) : p.data.setValue (l.setter p.position) y p.id =
      some (p.put (.leaf (l.getBuilder n)
        (l.ddsCppType.cast ((l.setter p.position).cppType.cast y)))) := by
    unfold DdsData.setValue
    rw [h.component]
    simp only [LeafType.setter_actsOn, if_true, LeafType.cppType_getBuilder]
    rfl
  unfold setLeaf LeafType.readable LeafType.valueAs
  cases l.accessibleAs (l.readAs p.position) with
  | false => rfl
  | true =>
    simp only [if_true, hset, Option.getD_some]
    exact Outcome.ok rfl

/-- What is stored is taken back where the accessor is not an error. -/
theorem FastddsToXtypes.setLeaf_outcome {l : LeafType} {n : String} {p : Place} {x : CppValue}
    (current : Value) (h : p.Holds (.leaf (l.getBuilder n)) (.leaf (l.getBuilder n) x)) :
    Outcome .exception (l.writable p.position)
      (· = some (.leaf (l.restored p.position x))) (setLeaf l p current) := by
  have hget (a : Accessor) (ha : a.actsOn (l.getBuilder n) = true) :
      read p.data a p.id = a.cppType.cast x := by
    unfold read DdsData.getValue
    rw [h.component]
    simp only [ha, if_true, Option.getD_some]
  have hstore (T : CppType) (a : Accessor) (ha : a.actsOn (l.getBuilder n) = true) :
      Outcome .exception (l.accessibleAs T)
        (· = some (.leaf (l.cppType.cast (T.cast (a.cppType.cast x)))))
        (store l T (read p.data a p.id)) := by
    unfold store LeafType.storedAs
    rw [hget a ha]
    cases l.accessibleAs T with
    | false => rfl
    | true => exact Outcome.ok rfl
  cases p with
  | member d id inUnion =>
    obtain ⟨-, -, name, hname⟩ := h
    have hmember : setLeaf l (.member d id inUnion) current =
        store l (l.restoredAs (if inUnion then .unionMember else .member))
          (read d (l.getBuilder n).getter id) := by
      unfold setLeaf
      simp only [hname, LeafType.writtenAs_getBuilder]
    have hread := hstore (l.restoredAs (if inUnion then .unionMember else .member))
      (l.getBuilder n).getter (LeafType.getter_getBuilder_actsOn l n)
    rw [hmember]
    rw [LeafType.getter_getBuilder l n inUnion] at hread ⊢
    exact hread
  | whole d | key d | entry d id | arrayElement d indexes | sequenceElement d id =>
    have hother := hstore l.getter.cppType l.getter (LeafType.getter_actsOn l n)
    cases l <;> exact hother

/-! ## Nested components -/

omit [Xtypes] in
/-- A nested component is converted, in data with the property `L`, and put in its place. -/
theorem XtypesToFastdds.setNested_outcome {p : Place} {T : DdsType} {x : DdsData} {b : Bool}
    {L Q : DdsData → Prop} {convert : DdsData → Except Fault DdsData} (hp : p.Holds T x)
    (hkey : ∀ d, p ≠ .key d) (hx : L x) (hcreated : L T.createData)
    (hconvert : ∀ y, L y → Outcome .exception b Q (convert y)) :
    Outcome .exception b (fun r => ∃ c, r = p.put c ∧ Q c) (setNested p (some T) convert) := by
  cases p with
  | whole d =>
    have hd : d = x := hp
    rw [← hd] at hx
    exact (hconvert d hx).imp fun c hc => ⟨c, rfl, hc⟩
  | key d => exact absurd rfl (hkey d)
  | member d id inUnion =>
    obtain ⟨hid, hcomponent, -⟩ := hp
    unfold setNested
    dsimp only
    rw [DdsData.loanValue_of_component hid hcomponent]
    exact (hconvert x hx).bind_ok fun c hc => ⟨c, rfl, hc⟩
  | entry d id =>
    obtain ⟨hid, hcomponent⟩ := hp
    unfold setNested
    dsimp only
    rw [DdsData.loanValue_of_component hid hcomponent]
    exact (hconvert x hx).bind_ok fun c hc => ⟨c, rfl, hc⟩
  | arrayElement d indexes =>
    refine (hconvert T.createData hcreated).bind_ok fun c hc => ⟨c, ?_, hc⟩
    exact if_neg hp.1
  | sequenceElement d id =>
    refine (hconvert T.createData hcreated).bind_ok fun c hc => ⟨c, ?_, hc⟩
    exact if_neg hp.1

omit [Xtypes] [Dds] in
theorem FastddsToXtypes.nestedData_of_holds {p : Place} {T : DdsType} {c : DdsData}
    (h : p.Holds T c) : nestedData p = some c := by
  cases p with
  | whole d | key d => exact congrArg some h
  | member d id inUnion => exact DdsData.loanValue_of_component h.1 h.2.1
  | entry d id | sequenceElement d id | arrayElement d indexes =>
    exact DdsData.loanValue_of_component h.1 h.2

omit [Xtypes] [Dds] in
theorem FastddsToXtypes.branch_of_holds {p : Place} {T : DdsType} {c : DdsData}
    (h : p.Holds T c) : branch p T.kind = some T.kind := by
  cases p with
  | member d id inUnion =>
    obtain ⟨-, -, name, hname⟩ := h
    show (d.memberDescriptor id).map (fun m => m.2.kind) = some T.kind
    rw [hname]
    rfl
  | whole | key | entry | arrayElement | sequenceElement => rfl

/-! ## The statement about a type -/

def Stored (fuel : Nat) (t : DynamicType) (v : Value) (c : DdsData) : Prop :=
  ∀ ⦃T : DdsType⦄ ⦃p : Place⦄, t.getBuilder = some T → p.Fits t → p.Holds T c →
    Outcome .exception (t.writable p.position v) (· = some (t.rebuilt v))
      (FastddsToXtypes.decode fuel t p t.default)

/-- Whatever value of the type is put in a place, data in which it is stored is found there. -/
def Converts (fuel : Nat) (t : DynamicType) : Prop :=
  ∀ ⦃T : DdsType⦄ ⦃p : Place⦄ ⦃x : DdsData⦄ ⦃v : Value⦄, t.getBuilder = some T →
    t.admits v = true → p.Fits t → p.Holds T x → T.Admits x →
    Outcome .exception (t.readable p.position v)
      (fun r => ∃ c, r = p.put c ∧ T.Admits c ∧ Stored fuel t v c)
      (XtypesToFastdds.encode t v p)

/-- Whatever value of the type is put in a place with `L`, data with `L` that has the value by `S`
is there afterwards. -/
def ConvertsTo (L : DynamicType → DdsData → Prop) (S : DynamicType → Value → DdsData → Prop)
    (t : DynamicType) : Prop :=
  ∀ ⦃T : DdsType⦄ ⦃p : Place⦄ ⦃x : DdsData⦄ ⦃v : Value⦄, t.getBuilder = some T →
    t.admits v = true → p.Fits t → p.Holds T x → L t x →
    Outcome .exception (t.readable p.position v)
      (fun r => ∃ c, r = p.put c ∧ L t c ∧ S t v c)
      (XtypesToFastdds.encode t v p)

def Shaped (t : DynamicType) (x : DdsData) : Prop :=
  ∀ ⦃T : DdsType⦄, t.getBuilder = some T → T.Admits x

omit [Xtypes] in
theorem shaped_createData {t : DynamicType} {T : DdsType} (h : t.getBuilder = some T) :
    Shaped t T.createData := by
  intro U hU
  rw [h] at hU
  cases hU
  exact T.admits_createData

theorem Converts.convertsTo {fuel : Nat} {t : DynamicType} (h : Converts fuel t) :
    ConvertsTo Shaped (Stored fuel) t := by
  intro T p x v hT hv hfits hp hx
  refine (h hT hv hfits hp (hx hT)).imp fun r hr => ?_
  obtain ⟨c, hr, hc, hstored⟩ := hr
  refine ⟨c, hr, fun U hU => ?_, hstored⟩
  rw [hT] at hU
  cases hU
  exact hc

theorem stored_leafType {fuel : Nat} {n : String} {l : LeafType} {content : CppValue}
    (h : l.cppType.admits content = true) (p : Position) :
    Stored fuel (.leafType n l) (.leaf content)
      (.leaf (l.getBuilder n) (l.stored p content)) := by
  intro T q hT _ hq
  cases hT
  rw [DynamicType.writable, DynamicType.leaves, List.all_cons, List.all_nil, Bool.and_true]
  refine (FastddsToXtypes.setLeaf_outcome _ hq).imp fun r hr => ?_
  rw [hr, LeafType.restored_stored h]
  rfl

theorem converts_leafType (fuel : Nat) (n : String) (l : LeafType) :
    Converts fuel (.leafType n l) := by
  intro T p x v hT hv hfits hp hx
  cases hT
  cases v with
  | leaf content =>
    obtain ⟨y, rfl⟩ := hx
    rw [DynamicType.readable, DynamicType.leaves, List.all_cons, List.all_nil, Bool.and_true]
    exact (XtypesToFastdds.setLeaf_outcome content hp).imp fun r hr =>
      ⟨_, hr, ⟨_, rfl⟩, stored_leafType hv _⟩
  | list | map | struct | union => cases hv

/-! ## Aliases -/

/-- Two types whose values are converted alike. -/
structure Alike (fuel : Nat) (t u : DynamicType) : Prop where
  getBuilder : t.getBuilder = u.getBuilder
  default : t.default = u.default
  admits (v : Value) : t.admits v = u.admits v
  leaves (p : Position) (v : Value) : t.leaves p v = u.leaves p v
  rebuilt (v : Value) : t.rebuilt v = u.rebuilt v
  encode (v : Value) (p : Place) :
    XtypesToFastdds.encode t v p = XtypesToFastdds.encode u v p
  decode (p : Place) (current : Value) :
    FastddsToXtypes.decode fuel t p current = FastddsToXtypes.decode fuel u p current

/-- An alias is converted as the type that it finally names. -/
theorem alike_resolve (fuel : Nat) (t : DynamicType) : Alike fuel t t.resolve := by
  induction t using DynamicType.resolve.induct with
  | case1 n t ih =>
    exact ⟨ih.getBuilder, ih.default, ih.admits, ih.leaves, ih.rebuilt, ih.encode, ih.decode⟩
  | case2 t h =>
    have ht : t.resolve = t := by
      rw [DynamicType.resolve]
      exact h
    rw [ht]
    exact ⟨rfl, rfl, fun _ => rfl, fun _ _ => rfl, fun _ => rfl, fun _ _ => rfl, fun _ _ => rfl⟩

theorem converts_aliasType {fuel : Nat} {t : DynamicType} (n : String) (h : Converts fuel t) :
    Converts fuel (.aliasType n t) := by
  intro T p x v hT hv hfits hp hx
  have hp' : p.Fits t := Place.fits_aliasType.mp hfits
  refine (h (T := T) hT hv hp' hp hx).imp fun r hr => ?_
  obtain ⟨c, hr, hc, hstored⟩ := hr
  refine ⟨c, hr, hc, ?_⟩
  intro T' q hT' hq hholds
  have hq' : q.Fits t := Place.fits_aliasType.mp hq
  exact hstored hT' hq' hholds

end FastDdsSh
