import FastDdsSh.Conversion.LoansToFastdds
import FastDdsSh.Conversion.Received
import FastDdsSh.Conversion.Termination

/-!
# Loans of the conversion from DDS data

The conversion that reads an object loans its components too.  On an object of the DDS type of a
type, with nothing on loan, it does what the conversion does that only reads, no pointer is null,
and the object is afterwards what it was, with nothing on loan.
-/

namespace FastDdsSh

open Lookup DdsType

/-! ## Places -/

structure Place.Gives (p : Place) (T : DdsType) (c : DdsData) : Prop where
  holds : p.Holds T c
  admits : T.AdmitsDeep c
  unchanged : p.data.withComponent p.id c = p.data

namespace DynamicType

/-- With a builder for every member, the members of the DDS type are those of the type. -/
theorem getElem?_getMemberBuilders {ms : List (String × DynamicType)}
    (h : ∀ m ∈ ms, m.2.getBuilder.isSome = true) {i : Nat} {m : String} {T : DdsType}
    (hi : (getMemberBuilders ms)[i]? = some (m, T)) :
    ∃ t, ms[i]? = some (m, t) ∧ t.getBuilder = some T := by
  induction ms generalizing i with
  | nil => cases hi
  | cons head ms ih =>
    obtain ⟨n, u⟩ := head
    obtain ⟨U, hU⟩ := Option.isSome_iff_exists.mp (h _ List.mem_cons_self)
    rw [getMemberBuilders_cons hU] at hi
    cases i with
    | zero =>
      cases hi
      exact ⟨u, rfl, hU⟩
    | succ i => exact ih (fun m hm => h m (List.mem_cons_of_mem _ hm)) hi

end DynamicType

variable [Xtypes] [Dds]

def Intact {α : Type} (d : DdsData) (r : α) (s : FastddsToXtypes.Traced.Read α) : Prop :=
  s = (r, d, [])

namespace FastddsToXtypes

open Trace

/-! ## One component -/

theorem setLeaf_follows (l : LeafType) (p : Place) (current : Value) :
    Follows Harmless NotNull (fun r s => s = r) (setLeaf l p current)
      (Traced.setLeaf l p current) := by
  have hread : ∀ (T : CppType) (d : DdsData) (a : Accessor) (id : MemberId),
      Follows Harmless NotNull (fun r s => s = r) (store l T (read d a id))
        (Traced.read d a id >>= fun x => liftM (store l T x)) := by
    intro T d a id
    unfold Traced.read
    rw [bind_assoc]
    refine .reportUnless_bind (by decide) _ (.lift ?_)
    unfold store
    split
    · exact .ok _
    · exact .error (by decide)
  cases p with
  | member d id inUnion =>
    unfold setLeaf Traced.setLeaf
    dsimp only
    cases d.memberDescriptor id with
    | none => exact .throw (by decide)
    | some m =>
      obtain ⟨name, T⟩ := m
      cases T with
      | array | sequence | map | struct | union => exact .throw (by decide)
      | leaf dl =>
        dsimp only
        cases l.writtenAs dl inUnion with
        | none => exact .report_bind (by decide) (.pure rfl)
        | some T => exact hread _ _ _ _
  | whole | key | entry | sequenceElement | arrayElement =>
    exact .reportUnless_bind (by decide) _ (hread _ _ _ _)

omit [Xtypes] [Dds] in
/-- A component that goes out on loan comes back. -/
theorem loanValue_intact {α : Type} {input c : DdsData} {i : Nat}
    (hc : input.component (some i) = some c) (hsame : input.withComponent (some i) c = input)
    {r : Except Fault α} {lending : DdsData → Loans → Trace Failure Fault (Traced.Read α)}
    (h : Follows Harmless NotNull (Intact c) r (lending c [])) :
    Follows Harmless NotNull (fun a s => s = some (a, input, [])) r
      (loanValue input [] (some i) >>= fun
        | some (loaned, inner, loans) => do
            let (a, loaned, inner) ← lending loaned inner
            return some (a, input.returnLoanedValue (some i) loaned,
              loans.replace (some i) inner)
        | none => return none) := by
  rw [loanValue_of_component hc, pure_bind]
  refine h.andThen fun a s _ hs => ⟨_, rfl, ?_⟩
  obtain rfl : s = (a, c, []) := hs
  show Pure.pure (some (a, input.withComponent (some i) c, _)) = _
  rw [hsame, Loans.replace_lend]

omit [Xtypes] [Dds] in
/-- The conversion of a nested component, on loan or not, leaves the data as it is. -/
theorem onNested_intact {α : Type} {p : Place} {T : DdsType} {c : DdsData} (hp : p.Gives T c)
    {r : Except Fault α} {lending : DdsData → Loans → Trace Failure Fault (Traced.Read α)}
    (h : Follows Harmless NotNull (Intact c) r (lending c [])) :
    Follows Harmless NotNull (fun a s => s = some (a, p.data, [])) r
      (Traced.onNested p [] lending) := by
  cases p with
  | whole d | key d =>
    obtain rfl : d = c := hp.holds
    refine h.andThen fun a s _ hs => ⟨_, ?_, rfl⟩
    rw [show s = (a, d, []) from hs]
    rfl
  | member | entry | sequenceElement | arrayElement =>
    obtain ⟨i, hi⟩ := hp.holds.exists_id (fun _ heq => by cases heq) (fun _ heq => by cases heq)
    have hc := hp.holds.component
    have hsame := hp.unchanged
    rw [hi] at hc hsame
    have hlent := loanValue_intact hc hsame h
    rw [← hi] at hlent
    exact hlent

omit [Xtypes] [Dds] in
/-- What is done once the component is back gives its result where `loan_value` gave one. -/
theorem onNested_finish_intact {p : Place} {T : DdsType} {c : DdsData} (hp : p.Gives T c)
    {r : Except Fault Value} {lending : DdsData → Loans → Trace Failure Fault (Traced.Read Value)}
    (h : Follows Harmless NotNull (Intact c) r (lending c []))
    {finish : Option (Traced.Read Value) → Trace Failure Fault (Traced.Read (Option Value))}
    (hfinish : ∀ v, finish (some (v, p.data, [])) = pure (some v, p.data, [])) :
    Follows Harmless NotNull (Intact p.data) (r.map some)
      (Traced.onNested p [] lending >>= finish) := by
  have hdone : Follows Harmless NotNull (fun v s => s = (some v, p.data, [])) r
      (Traced.onNested p [] lending >>= finish) := by
    refine (onNested_intact hp h).andThen fun v s _ hs => ?_
    obtain rfl : s = some (v, p.data, []) := hs
    exact ⟨_, rfl, hfinish v⟩
  exact hdone.map fun v s _ hs => hs

omit [Xtypes] [Dds] in
theorem setCollection_intact {p : Place} {T : DdsType} {c : DdsData} (hp : p.Gives T c)
    (current : Value) {convert : DdsData → Except Fault Value}
    {lending : DdsData → Loans → Trace Failure Fault (Traced.Read Value)}
    (h : Follows Harmless NotNull (Intact c) (convert c) (lending c [])) :
    Follows Harmless NotNull (Intact p.data) (setCollection p T.kind current convert)
      (Traced.setCollection p [] T.kind current lending) := by
  rw [setCollection_of_holds hp.holds]
  unfold Traced.setCollection
  rw [branch_of_holds hp.holds, if_pos rfl]
  exact onNested_finish_intact hp h fun _ => rfl

omit [Xtypes] in
theorem setAggregation_intact {fuel : Nat} {p : Place} {T : DdsType} {c : DdsData}
    (hp : p.Gives T c) {old : String → Place → Value → Except Fault Value}
    {lending : String → Place → Loans → Value → Trace Failure Fault (Traced.Read Value)}
    (output : Value)
    (hkind : (T.kind = .struct ∧ Follows Harmless NotNull (Intact c)
        (setStructData old c fuel 0 output)
        (Traced.setStructData lending fuel 0 output c [])) ∨
      (T.kind = .union ∧ Follows Harmless NotNull (Intact c) (setUnionData old c output)
        (Traced.setUnionData lending output c []))) :
    Follows Harmless NotNull (Intact p.data) (setAggregation fuel old p T.kind output)
      (Traced.setAggregation fuel lending p [] T.kind output) := by
  have hbranch := branch_of_holds hp.holds
  rcases hkind with ⟨hT, h⟩ | ⟨hT, h⟩
  · rw [hT] at hbranch ⊢
    rw [setAggregation_structure hp.holds hT]
    unfold Traced.setAggregation
    rw [hbranch]
    exact onNested_finish_intact hp h fun _ => rfl
  · rw [hT] at hbranch ⊢
    rw [setAggregation_union hp.holds hT]
    unfold Traced.setAggregation
    rw [hbranch]
    exact onNested_finish_intact hp h fun _ => rfl

/-! ## Collections -/

/-- Whatever is read from an object of the DDS type of the type, the object stays as it is. -/
def LeavesIntact (fuel : Nat) (t : DynamicType) : Prop :=
  ∀ ⦃T : DdsType⦄ ⦃p : Place⦄ ⦃c : DdsData⦄ ⦃current : Value⦄, t.getBuilder = some T →
    t.Writable current → p.Gives T c →
    (∀ d indexes, p = .arrayElement d indexes → t.isArray = false) →
      Follows Harmless NotNull (Intact p.data) (decode fuel t p current)
        (Traced.decode fuel t p [] current)

def ElementLeavesIntact (fuel : Nat) (t : DynamicType) : Prop :=
  ∀ ⦃B bounds indexes : List Nat⦄ ⦃q : Nat⦄ ⦃E : DdsType⦄ ⦃input : DdsData⦄ ⦃current : Value⦄,
    ArrayContent t B E → t.Writable current → RowMajor.index bounds indexes = some q →
    (array E (bounds ++ B)).AdmitsDeep input →
      Follows Harmless NotNull (Intact input) (decode fuel t (.arrayElement input indexes) current)
        (Traced.decode fuel t (.arrayElement input indexes) [] current)

theorem elementLeavesIntact_of_leavesIntact {fuel : Nat} {t : DynamicType}
    (ht : t.isArray = false) (h : LeavesIntact fuel t) : ElementLeavesIntact fuel t := by
  intro B bounds indexes q E input current hcontent hcurrent hq hinput
  obtain ⟨rfl, hE⟩ := arrayContent_of_not_isArray ht hcontent
  rw [List.append_nil] at hinput
  obtain ⟨cs, rfl, hlength, hcs⟩ := hinput
  have hlt : q < cs.length := by
    rw [hlength]
    exact RowMajor.index_lt hq
  have hc : cs[q]? = some cs[q] := List.getElem?_eq_getElem hlt
  have hid : (DdsData.composite (array E bounds) cs).getArrayIndex indexes = some q := hq
  have hgives : (Place.arrayElement (.composite (array E bounds) cs) indexes).Gives E cs[q] := by
    refine ⟨?_, hcs _ (List.getElem_mem hlt), ?_⟩
    · show _ ≠ none ∧ DdsData.component _ _ = some cs[q]
      rw [hid]
      exact ⟨Option.some_ne_none q, hc⟩
    · show (DdsData.composite (array E bounds) cs).withComponent
        ((DdsData.composite (array E bounds) cs).getArrayIndex indexes) cs[q] = _
      rw [hid]
      exact DdsData.withComponent_composite hc
  exact h hE hcurrent hgives fun _ _ _ => ht

theorem setArrayData_intact {fuel : Nat} {t : DynamicType} (h : ElementLeavesIntact fuel t)
    {B bounds indexes : List Nat} {q d : Nat} {E : DdsType} {input : DdsData}
    (hcontent : ArrayContent t B E) (hq : RowMajor.index bounds indexes = some q)
    (hinput : (array E (bounds ++ d :: B)).AdmitsDeep input) {output : List Value} {idx : Nat}
    (hlength : idx + output.length = d) :
    Follows Harmless NotNull (Intact input)
      (setArrayData (fun indexes => decode fuel t (.arrayElement input indexes) t.default) indexes
        output idx)
      (Traced.setArrayData
        (fun input loans indexes =>
          Traced.decode fuel t (.arrayElement input indexes) loans t.default)
        indexes output idx input []) := by
  induction output generalizing idx with
  | nil => exact .pure rfl
  | cons v output ih =>
    rw [List.length_cons] at hlength
    have hdefault : t.Writable t.default := .inr rfl
    have helement := h hcontent hdefault
      (RowMajor.index_concat hq (show idx < d by omega)) (by rwa [List.append_cons] at hinput)
    refine helement.bind fun w s _ hs => ?_
    obtain rfl : s = (w, input, []) := hs
    refine (ih (by omega)).bind fun rest s _ hs => ?_
    obtain rfl : s = (rest, input, []) := hs
    exact .pure rfl

theorem setSequenceData_intact {fuel : Nat} {t : DynamicType} (h : LeavesIntact fuel t)
    {E : DdsType} (hE : t.getBuilder = some E) {b : Nat} {cs : List DdsData}
    (hcs : ∀ c ∈ cs, E.AdmitsDeep c) {idxs : List Nat} (hidxs : ∀ idx ∈ idxs, idx < cs.length)
    (output : List Value) :
    Follows Harmless NotNull (Intact (.composite (sequence E b) cs))
      (setSequenceData (fun id =>
        decode fuel t (.sequenceElement (.composite (sequence E b) cs) id) t.default) idxs output)
      (Traced.setSequenceData
        (fun input loans id => Traced.decode fuel t (.sequenceElement input id) loans t.default)
        idxs output (.composite (sequence E b) cs) []) := by
  induction idxs generalizing output with
  | nil => exact .pure rfl
  | cons idx idxs ih =>
    have hlt := hidxs idx List.mem_cons_self
    have hc : cs[idx]? = some cs[idx] := List.getElem?_eq_getElem hlt
    have hgives : (Place.sequenceElement (.composite (sequence E b) cs) (some idx)).Gives E
        cs[idx] :=
      ⟨⟨Option.some_ne_none _, hc⟩, hcs _ (List.getElem_mem hlt),
        DdsData.withComponent_composite hc⟩
    refine (h hE (.inr rfl) hgives fun _ _ heq => by cases heq).bind fun w s _ hs => ?_
    obtain rfl : s = (w, DdsData.composite (sequence E b) cs, []) := hs
    exact ih (fun i hi => hidxs i (List.mem_cons_of_mem _ hi)) _

theorem setMapData_intact {fuel : Nat} {k t : DynamicType} (hk : LeavesIntact fuel k)
    (ht : LeavesIntact fuel t) {K V : DdsType} (hK : k.getBuilder = some K)
    (hV : t.getBuilder = some V) {b : Nat} {cs : List DdsData}
    (hcs : ∀ i c, cs[i]? = some c →
      (i % 2 = 0 → K.AdmitsDeep c) ∧ (i % 2 = 1 → V.AdmitsDeep c))
    {idxs : List Nat} (hidxs : ∀ idx ∈ idxs, idx < cs.length / 2)
    (output : List (Value × Value)) :
    Follows Harmless NotNull (Intact (.composite (map K V b) cs))
      (setMapData (fun id => decode fuel k (.entry (.composite (map K V b) cs) id) k.default)
        (fun id => decode fuel t (.entry (.composite (map K V b) cs) id) t.default)
        (k.default, t.default) idxs output)
      (Traced.setMapData
        (fun input loans id => Traced.decode fuel k (.entry input id) loans k.default)
        (fun input loans id => Traced.decode fuel t (.entry input id) loans t.default)
        (k.default, t.default) idxs output (.composite (map K V b) cs) []) := by
  induction idxs generalizing output with
  | nil => exact .pure rfl
  | cons idx idxs ih =>
    have hlt := hidxs idx List.mem_cons_self
    have hkey : cs[idx * 2]? = some cs[idx * 2] := List.getElem?_eq_getElem (by omega)
    have hvalue : cs[idx * 2 + 1]? = some cs[idx * 2 + 1] := List.getElem?_eq_getElem (by omega)
    have hgivesKey : (Place.entry (.composite (map K V b) cs) (some (idx * 2))).Gives K _ :=
      ⟨⟨Option.some_ne_none _, hkey⟩, (hcs _ _ hkey).1 (by omega),
        DdsData.withComponent_composite hkey⟩
    have hgivesValue : (Place.entry (.composite (map K V b) cs) (some (idx * 2 + 1))).Gives V _ :=
      ⟨⟨Option.some_ne_none _, hvalue⟩, (hcs _ _ hvalue).2 (by omega),
        DdsData.withComponent_composite hvalue⟩
    refine (hk hK (.inr rfl) hgivesKey fun _ _ heq => by cases heq).bind fun w s _ hs => ?_
    obtain rfl : s = (w, DdsData.composite (map K V b) cs, []) := hs
    refine (ht hV (.inr rfl) hgivesValue fun _ _ heq => by cases heq).bind fun x s _ hs => ?_
    obtain rfl : s = (x, DdsData.composite (map K V b) cs, []) := hs
    exact ih (fun i hi => hidxs i (List.mem_cons_of_mem _ hi)) _

/-! ## Structures and unions -/

/-- A member of the type is read into the output. -/
theorem setMember_intact {fuel : Nat} {t mt : DynamicType} {ms : List (String × DynamicType)}
    {m : String} (hm : ms.lookup m = some mt) (hmember : LeavesIntact fuel mt) {T : DdsType}
    (hT : mt.getBuilder = some T) {d c : DdsData} {id : MemberId} {inUnion : Bool}
    (hp : (Place.member d id inUnion).Gives T c) {output current : Value}
    (hcurrent : output.field mt m = some current) (hwritable : mt.Writable current) :
    Follows Harmless NotNull
      (fun r s => Intact d r s ∧ (r = output ∨ ∃ w, r = output.withField t m w))
      (setMember fuel t ms m (.member d id inUnion) output)
      (Traced.setMember fuel t ms m (.member d id inUnion) [] output) := by
  rw [setMember_of_lookup hm _ hcurrent, Traced.setMember_of_lookup hm _ _ hcurrent]
  have hread := hmember hT hwritable hp fun _ _ heq => by cases heq
  refine (hread.andThen (T := fun w s => Intact d (w.elim output (output.withField t m)) s)
    fun w s _ hs => ?_).map fun w s _ hs => ⟨hs, ?_⟩
  · obtain rfl : s = (w, d, []) := hs
    exact ⟨_, rfl, rfl⟩
  · cases w with
    | none => exact .inl rfl
    | some w => exact .inr ⟨w, rfl⟩

def WritableFrom (ms : List (String × DynamicType)) (i : Nat) (output : Value) : Prop :=
  ∃ fields, output = .struct fields ∧ ∀ j m t, i ≤ j → ms[j]? = some (m, t) →
    ∃ w, fields.lookup m = some w ∧ t.Writable w

omit [Dds] in
/-- Writing to a member leaves those after it as they are. -/
theorem writableFrom_withField {ms : List (String × DynamicType)}
    (hnames : (ms.map Prod.fst).Nodup) {i : Nat} {m : String} {t u : DynamicType}
    (hm : ms[i]? = some (m, t)) {output : Value} (h : WritableFrom ms i output) (w : Value) :
    WritableFrom ms (i + 1) (output.withField u m w) := by
  obtain ⟨fields, rfl, hfields⟩ := h
  refine ⟨_, rfl, fun j m' t' hj hm' => ?_⟩
  have hne : m' ≠ m := by
    intro heq
    have hi : (ms.map Prod.fst)[i]? = some m := by rw [List.getElem?_map, hm]; rfl
    have hj' : (ms.map Prod.fst)[j]? = some m := by rw [List.getElem?_map, hm', ← heq]; rfl
    have hlt := (List.getElem?_eq_some_iff.mp hi).1
    have hij := (List.getElem?_inj hlt hnames).mp (hi.trans hj'.symm)
    omega
  rw [Value.lookup_setField_ne _ _ hne]
  exact hfields j m' t' (by omega) hm'

theorem setStructData_intact {t : DynamicType} {ms : List (String × DynamicType)} {fuel : Nat}
    (hnames : (ms.map Prod.fst).Nodup) (hbuilders : ∀ m ∈ ms, m.2.getBuilder.isSome = true)
    (hms : ∀ m ∈ ms, LeavesIntact fuel m.2) {cs : List DdsData}
    (hcs : AdmitsDeepMembers (DynamicType.getMemberBuilders ms) cs) {turns i : Nat}
    {output : Value} (houtput : WritableFrom ms i output) :
    let input := DdsData.composite (struct (DynamicType.getMemberBuilders ms)) cs
    Follows Harmless NotNull (Intact input)
      (setStructData (setMember fuel t ms) input turns i output)
      (Traced.setStructData (Traced.setMember fuel t ms) turns i output input []) := by
  intro input
  -- on the turns of the loop, with the member it is at
  induction turns generalizing i output with
  | zero => exact .throw (by decide)
  | succ turns ih =>
    rw [setStructData, Traced.setStructData]
    cases hid : input.getMemberIdAtIndex i with
    | none => exact .pure rfl
    | some id =>
      obtain ⟨-, rfl⟩ := DdsData.getMemberIdAtIndex_eq_some_iff.mp hid
      dsimp only
      cases hdescriptor : input.getDescriptor (some i) with
      -- the loop stays at this member
      | none => exact .report_bind (by decide) (ih houtput)
      | some descriptor =>
        obtain ⟨m, T⟩ := descriptor
        have hbuilder : (DynamicType.getMemberBuilders ms)[i]? = some (m, T) :=
          DdsData.memberDescriptor_of_getDescriptor hdescriptor
        obtain ⟨mt, hm, hT⟩ := DynamicType.getElem?_getMemberBuilders hbuilders hbuilder
        obtain ⟨c, hc, hadmits⟩ := forall₂_getElem? (admitsDeepMembers_iff.mp hcs) hbuilder
        have hmem := List.mem_of_getElem? hm
        have hgives : (Place.member input (some i) false).Gives T c :=
          ⟨⟨Option.some_ne_none i, hc, m, hbuilder⟩, hadmits, DdsData.withComponent_composite hc⟩
        obtain ⟨fields, heq, hfields⟩ := id houtput
        obtain ⟨current, hcurrent, hwritable⟩ := hfields i m mt (le_refl i) hm
        have hfield : output.field mt m = some current := by
          rw [heq]
          exact hcurrent
        refine (setMember_intact (t := t) (lookup_of_mem hnames hmem) (hms _ hmem) hT hgives hfield
          hwritable).bind fun r s _ hs => ?_
        obtain ⟨hs, hr⟩ := hs
        obtain rfl : s = (r, input, []) := hs
        apply ih
        rcases hr with rfl | ⟨w, rfl⟩
        · exact ⟨fields, heq, fun j m' t' hj => hfields j m' t' (by omega)⟩
        · exact writableFrom_withField hnames hm houtput w

theorem setUnionData_intact {t : DynamicType} {ms : List (String × DynamicType)} {fuel : Nat}
    (hnames : (ms.map Prod.fst).Nodup) (hbuilders : ∀ m ∈ ms, m.2.getBuilder.isSome = true)
    (hms : ∀ m ∈ ms, LeavesIntact fuel m.2) (ht : t.members = ms) {D : DdsType}
    {labels : List (List Nat × Bool)} {n : Nat} {a : MemberId} {cs : List DdsData}
    (hcs : AdmitsDeepMembers (DynamicType.getMemberBuilders ms) cs) {output : Value}
    (houtput : t.Writable output) :
    let input := DdsData.union (union D (DynamicType.getMemberBuilders ms) labels) n a cs
    Follows Harmless NotNull (Intact input) (setUnionData (setMember fuel t ms) input output)
      (Traced.setUnionData (Traced.setMember fuel t ms) output input []) := by
  intro input
  unfold setUnionData Traced.setUnionData
  cases hdescriptor : input.getDescriptor input.getUnionId with
  | none => exact .report_bind (by decide) (.pure rfl)
  | some descriptor =>
    obtain ⟨m, T⟩ := descriptor
    obtain ⟨i, hi, hbuilder⟩ := Option.bind_eq_some_iff.mp
      (DdsData.memberDescriptor_of_getDescriptor hdescriptor)
    obtain rfl : a = some i := hi
    obtain ⟨mt, hm, hT⟩ := DynamicType.getElem?_getMemberBuilders hbuilders hbuilder
    obtain ⟨c, hc, hadmits⟩ := forall₂_getElem? (admitsDeepMembers_iff.mp hcs) hbuilder
    have hmem := List.mem_of_getElem? hm
    have hlookup := lookup_of_mem hnames hmem
    have hgives : (Place.member input (some i) true).Gives T c :=
      ⟨⟨Option.some_ne_none i, hc, m, hbuilder⟩, hadmits, DdsData.withComponent_union hc⟩
    obtain ⟨current, hcurrent, hwritable⟩ :=
      DynamicType.field_of_writable (m := m) (by rw [DynamicType.member, ht, hlookup]) houtput
    exact (setMember_intact hlookup (hms _ hmem) hT hgives hcurrent hwritable).imp
      fun r s _ hs => hs.1

/-! ## Every type -/

theorem leavesIntact_of_isBuilt {fuel : Nat} {t : DynamicType} (hbuilt : t.isBuilt = true)
    (hdirect : t.hasDirectArrays = true) :
    LeavesIntact fuel t ∧ ((t.isAlias && t.isArray) = false → ElementLeavesIntact fuel t) := by
  have hother {t : DynamicType} (ht : t.isArray = false) (h : LeavesIntact fuel t) :
      LeavesIntact fuel t ∧ ((t.isAlias && t.isArray) = false → ElementLeavesIntact fuel t) :=
    ⟨h, fun _ => elementLeavesIntact_of_leavesIntact ht h⟩
  induction t using DynamicType.inductionOn with
  | leafType n l =>
    apply hother rfl
    intro T p c current hT _ _ _
    rw [decode, Traced.decode]
    refine (setLeaf_follows l p current).andThen fun r s _ hs => ⟨(r, p.data, []), rfl, ?_⟩
    rw [hs]
  | bitsetType n => cases hbuilt
  | aliasType n t ih =>
    have h := (ih hbuilt hdirect).1
    have halias : LeavesIntact fuel (.aliasType n t) := by
      intro T p c current hT hcurrent hp helement
      rw [decode, Traced.decode]
      exact h hT hcurrent hp helement
    refine ⟨halias, fun hnot => ?_⟩
    rw [DynamicType.isAlias, Bool.true_and] at hnot
    exact elementLeavesIntact_of_leavesIntact hnot halias
  | arrayType n t d ih =>
    obtain ⟨T', hT'⟩ := Option.isSome_iff_exists.mp
      (DynamicType.getBuilder_isSome_of_isBuilt (t := t) hbuilt)
    have hcontent := DynamicType.hasDirectArrays_arrayType hT' hdirect
    have h := (ih hbuilt hcontent.2).2 hcontent.1
    constructor
    · intro T p c current hT hcurrent hp helement
      cases current with
      | list output =>
        have hlength := DynamicType.length_of_writable hcurrent
        obtain ⟨B, E, hcontent, rfl⟩ := arrayContent_of_getBuilder hT
        cases p with
        | arrayElement output indexes => cases helement output indexes rfl
        | whole | key | entry | member | sequenceElement =>
          rw [decode, Traced.decode]
          · refine setCollection_intact hp _ ?_
            have hq : RowMajor.index [] [] = some 0 := rfl
            refine (setArrayData_intact h hcontent hq hp.admits
              (show 0 + output.length = d by omega)).bind fun vs s _ hs => ?_
            obtain rfl : s = (vs, c, []) := hs
            exact .pure rfl
          all_goals rintro _ _ ⟨⟩
      | leaf | map | struct | union =>
        rw [decode, Traced.decode]
        · exact .throw (by decide)
        all_goals rintro _ ⟨⟩
    · intro _ B' bounds indexes q E input current hbuilder hcurrent hq hinput
      cases current with
      | list output =>
        have hlength := DynamicType.length_of_writable hcurrent
        obtain ⟨B, E', hcontent, heq⟩ := arrayContent_of_getBuilder
          (show (DynamicType.arrayType n t d).getBuilder = some (.array E B') from hbuilder)
        cases heq
        rw [decode, Traced.decode]
        refine (setArrayData_intact h hcontent hq hinput
          (show 0 + output.length = d by omega)).bind fun vs s _ hs => ?_
        obtain rfl : s = (vs, input, []) := hs
        exact .pure rfl
      | leaf | map | struct | union =>
        rw [decode, Traced.decode]
        · exact .throw (by decide)
        all_goals rintro _ ⟨⟩
  | sequenceType n t b ih =>
    apply hother rfl
    intro T p c current hT hcurrent hp _
    cases current with
    | list output =>
      obtain ⟨E, hE, rfl⟩ := Option.map_eq_some_iff.mp hT
      rw [decode, Traced.decode]
      refine setCollection_intact hp _ ?_
      obtain ⟨cs, rfl, hcs⟩ := hp.admits
      refine (setSequenceData_intact (ih hbuilt hdirect).1 hE hcs
        (fun idx hidx => List.mem_range.mp hidx) output).bind fun vs s _ hs => ?_
      obtain rfl : s = (vs, DdsData.composite (sequence E b) cs, []) := hs
      exact .pure rfl
    | leaf | map | struct | union =>
      rw [decode, Traced.decode]
      · exact .throw (by decide)
      all_goals rintro _ ⟨⟩
  | mapType n k t b ihk iht =>
    apply hother rfl
    intro T p c current hT hcurrent hp _
    cases current with
    | map output =>
      obtain ⟨K, hK, hT'⟩ := Option.bind_eq_some_iff.mp hT
      obtain ⟨V, hV, rfl⟩ := Option.map_eq_some_iff.mp hT'
      rw [DynamicType.isBuilt, Bool.and_eq_true] at hbuilt
      have hentries := DynamicType.hasDirectArrays_mapType hK hV hdirect
      rw [decode, Traced.decode]
      refine setCollection_intact hp _ ?_
      obtain ⟨cs, rfl, -, hcs⟩ := hp.admits
      refine (setMapData_intact (ihk hbuilt.1 hentries.1).1 (iht hbuilt.2 hentries.2).1 hK hV hcs
        (fun idx hidx => List.mem_range.mp hidx) output).bind fun es s _ hs => ?_
      obtain rfl : s = (es, DdsData.composite (map K V b) cs, []) := hs
      exact .pure rfl
    | leaf | list | struct | union =>
      rw [decode, Traced.decode]
      · exact .throw (by decide)
      all_goals rintro _ ⟨⟩
  | structType n ms ih =>
    apply hother rfl
    intro T p c current hT hcurrent hp _
    cases hT
    rw [DynamicType.isBuilt, Bool.and_eq_true, decide_eq_true_eq] at hbuilt
    have hbuilders := DynamicType.getBuilder_isSome_of_areBuilt hbuilt.2
    have hms : ∀ m ∈ ms, LeavesIntact fuel m.2 := fun m hm =>
      (ih m hm (DynamicType.isBuilt_of_mem hbuilt.2 hm)
        (DynamicType.hasDirectArrays_of_mem hdirect hm)).1
    have hwritable : WritableFrom ms 0 current := by
      have hfield : ∀ (j : Nat) m t, ms[j]? = some (m, t) →
          ∃ w, current.field t m = some w ∧ t.Writable w := by
        intro j m t hm
        exact DynamicType.field_of_writable
          (show (DynamicType.structType n ms).member m = some t from
            lookup_of_mem hbuilt.1 (List.mem_of_getElem? hm)) hcurrent
      rcases hcurrent with hadmits | rfl
      · cases current with
        | struct fields => exact ⟨fields, rfl, fun j m t _ hm => hfield j m t hm⟩
        | leaf | list | map | union => cases hadmits
      · exact ⟨_, rfl, fun j m t _ hm => hfield j m t hm⟩
    rw [decode, Traced.decode]
    refine setAggregation_intact hp current (.inl ⟨rfl, ?_⟩)
    obtain ⟨cs, rfl, hcs⟩ := hp.admits
    exact setStructData_intact hbuilt.1 hbuilders hms hcs hwritable
  | unionType n d ms cs ihd ih =>
    apply hother rfl
    intro T p c current hT hcurrent hp _
    obtain ⟨D, hD, rfl⟩ := Option.map_eq_some_iff.mp hT
    rw [DynamicType.isBuilt, Bool.and_eq_true, Bool.and_eq_true, decide_eq_true_eq] at hbuilt
    have hmembers := (DynamicType.hasDirectArrays_unionType hD hdirect).2
    have hbuilders := DynamicType.getBuilder_isSome_of_areBuilt hbuilt.2
    have hms : ∀ m ∈ ms, LeavesIntact fuel m.2 := fun m hm =>
      (ih m hm (DynamicType.isBuilt_of_mem hbuilt.2 hm)
        (DynamicType.hasDirectArrays_of_mem hmembers hm)).1
    rw [decode, Traced.decode]
    refine setAggregation_intact hp current (.inr ⟨rfl, ?_⟩)
    obtain ⟨k, a, components, rfl, hcomponents⟩ := hp.admits
    exact setUnionData_intact hbuilt.1.2 hbuilders hms rfl hcomponents hcurrent

end FastddsToXtypes

end FastDdsSh
