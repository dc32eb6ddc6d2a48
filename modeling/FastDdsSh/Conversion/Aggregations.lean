import FastDdsSh.Conversion.Components
import FastDdsSh.DataAccess

/-!
# Structures and unions, there and back

The encoder goes through the members of the xtypes type and finds each in the DDS data by name; the
decoder goes through the members of the DDS data and finds each in the xtypes data by name.
-/

namespace FastDdsSh

open Lookup

/-! ## Members by name -/

theorem setField_append_of_not_mem {before after : List (String × Value)} {m : String}
    (h : m ∉ before.map Prod.fst) (v w : Value) :
    Value.setField (before ++ (m, v) :: after) m w = before ++ (m, w) :: after := by
  induction before with
  | nil => simp [Value.setField]
  | cons head before ih =>
    rw [List.map_cons, List.mem_cons, not_or] at h
    rw [List.cons_append, Value.setField, if_neg (Ne.symm h.1), ih h.2, List.cons_append]

namespace DynamicType

theorem exists_lookup_of_admitsCase {ms : List (String × DynamicType)} {c : String} {v : Value}
    (h : admitsCase ms c v = true) : ∃ t, ms.lookup c = some t ∧ t.admits v = true := by
  cases hc : ms.lookup c with
  | some t =>
    rw [admitsCase_eq hc] at h
    exact ⟨t, rfl, h⟩
  | none =>
    have hnone : admitsCase ms c v = admitsCase [] c v := by
      apply eq_of_lookup_none (F := fun ms => admitsCase ms c v) (g := fun t => t.admits v) _ hc
      intro m t ms
      rw [admitsCase]
    rw [hnone] at h
    cases h

theorem leavesOfCase_eq {ms : List (String × DynamicType)} {c : String} {t : DynamicType}
    (h : ms.lookup c = some t) (v : Value) : leavesOfCase ms c v = t.leaves .unionMember v := by
  apply eq_of_lookup _ h
  intro m t ms
  rw [leavesOfCase]

theorem rebuiltCase_eq [Xtypes] {ms : List (String × DynamicType)} {c : String} {t : DynamicType}
    (h : ms.lookup c = some t) (v : Value) : rebuiltCase ms c v = t.rebuilt v := by
  apply eq_of_lookup _ h
  intro m t ms
  rw [rebuiltCase]

theorem map_fst_of_admitsFields {ms : List (String × DynamicType)}
    {fields : List (String × Value)} (h : admitsFields ms fields = true) :
    fields.map Prod.fst = ms.map Prod.fst := by
  induction ms generalizing fields with
  | nil =>
    cases fields with
    | nil => rfl
    | cons => cases h
  | cons head ms ih =>
    cases fields with
    | nil => cases h
    | cons field fields =>
      simp only [admitsFields, Bool.and_eq_true, decide_eq_true_eq] at h
      rw [List.map_cons, List.map_cons, ih h.2, h.1.1]

theorem getMemberBuilders_cons {m : String} {t : DynamicType} {T : DdsType}
    (h : t.getBuilder = some T) (ms : List (String × DynamicType)) :
    getMemberBuilders ((m, t) :: ms) = (m, T) :: getMemberBuilders ms := by
  rw [getMemberBuilders, h]

/-- With a builder for every member, the DDS type has the same members in the same order. -/
theorem map_fst_getMemberBuilders {ms : List (String × DynamicType)}
    (h : ∀ m ∈ ms, m.2.getBuilder.isSome = true) :
    (getMemberBuilders ms).map Prod.fst = ms.map Prod.fst := by
  induction ms with
  | nil => rfl
  | cons head ms ih =>
    obtain ⟨m, t⟩ := head
    obtain ⟨T, hT⟩ := Option.isSome_iff_exists.mp (h _ List.mem_cons_self)
    rw [getMemberBuilders_cons hT, List.map_cons, List.map_cons,
      ih fun m hm => h m (List.mem_cons_of_mem _ hm)]

theorem getMemberBuilders_of_lookup {ms : List (String × DynamicType)}
    (h : ∀ m ∈ ms, m.2.getBuilder.isSome = true) {c : String} {t : DynamicType}
    (hc : ms.lookup c = some t) :
    ∃ i T, t.getBuilder = some T ∧ ms[i]? = some (c, t) ∧
      (getMemberBuilders ms).findIdx? (fun m => m.1 = c) = some i ∧
      (getMemberBuilders ms)[i]? = some (c, T) := by
  induction ms with
  | nil => cases hc
  | cons head ms ih =>
    obtain ⟨m, u⟩ := head
    obtain ⟨T, hT⟩ := Option.isSome_iff_exists.mp (h _ List.mem_cons_self)
    rw [getMemberBuilders_cons hT]
    by_cases hm : m = c
    · rw [hm, List.lookup_cons_self] at hc
      cases hc
      exact ⟨0, T, hT, by simp [hm], by simp [List.findIdx?_cons, hm], by simp [hm]⟩
    · rw [lookup_cons_ne (Ne.symm hm)] at hc
      obtain ⟨i, U, hU, hmember, hi, hget⟩ := ih (fun m hm => h m (List.mem_cons_of_mem _ hm)) hc
      refine ⟨i + 1, U, hU, hmember, ?_, hget⟩
      rw [List.findIdx?_cons, hi]
      simp [hm]

end DynamicType

namespace DdsType

theorem admitsMembers_iff {ms : List (String × DdsType)} {cs : List DdsData} :
    AdmitsMembers ms cs ↔ List.Forall₂ (fun m c => m.2.Admits c) ms cs := by
  apply iff_forall₂
  · intro cs
    rw [AdmitsMembers]
  · intro m ms cs
    rw [AdmitsMembers]

theorem admitsMembers_getElem? {ms : List (String × DdsType)} {cs : List DdsData}
    (h : AdmitsMembers ms cs) {i : Nat} {m : String × DdsType} (hm : ms[i]? = some m) :
    ∃ c, cs[i]? = some c ∧ m.2.Admits c :=
  forall₂_getElem? (admitsMembers_iff.mp h) hm

theorem admitsMembers_set {ms : List (String × DdsType)} {cs : List DdsData}
    (h : AdmitsMembers ms cs) {i : Nat} {m : String × DdsType} (hm : ms[i]? = some m)
    {c : DdsData} (hc : m.2.Admits c) : AdmitsMembers ms (cs.set i c) :=
  admitsMembers_iff.mpr (forall₂_set (admitsMembers_iff.mp h) hm hc)

end DdsType

variable [Xtypes] [Dds]

/-! ## Structures -/

omit [Xtypes] [Dds] in
theorem member_holds {before : List (String × DdsType)} {done : List DdsData}
    (hdone : done.length = before.length) (m : String) (T : DdsType)
    (after : List (String × DdsType)) (x : DdsData) (rest : List DdsData) (inUnion : Bool) :
    (Place.member (.composite (.struct (before ++ (m, T) :: after)) (done ++ x :: rest))
      (some done.length) inUnion).Holds T x := by
  refine ⟨Option.some_ne_none _, ?_, m, ?_⟩
  · show (done ++ x :: rest)[done.length]? = some x
    rw [List.getElem?_append_right (le_refl _), Nat.sub_self]
    rfl
  · show (before ++ (m, T) :: after)[done.length]? = some (m, T)
    rw [hdone, List.getElem?_append_right (le_refl _), Nat.sub_self]
    rfl

omit [Xtypes] [Dds] in
theorem member_put (ms : List (String × DdsType)) (done rest : List DdsData) (x c : DdsData)
    (inUnion : Bool) :
    (Place.member (.composite (.struct ms) (done ++ x :: rest)) (some done.length) inUnion).put c =
      .composite (.struct ms) (done ++ c :: rest) := by
  show DdsData.composite _ ((done ++ x :: rest).set done.length c) = _
  rw [List.set_append_right _ _ (le_refl _), Nat.sub_self]
  rfl

def MembersStored (fuel : Nat) : List (String × DynamicType) → List (String × Value) →
    List DdsData → Prop
  | (_, t) :: ms, (_, v) :: fields, cs =>
      ∃ c rest, cs = c :: rest ∧ Stored fuel t v c ∧ MembersStored fuel ms fields rest
  | _, _, cs => cs = []

theorem membersStored_cons (fuel : Nat) (m : String) (t : DynamicType) (v : Value) (c : DdsData)
    (ms : List (String × DynamicType)) (fields : List (String × Value)) (cs : List DdsData)
    (hc : Stored fuel t v c) (hcs : MembersStored fuel ms fields cs) :
    MembersStored fuel ((m, t) :: ms) ((m, v) :: fields) (c :: cs) :=
  ⟨c, cs, rfl, hc, hcs⟩

/-- The loop over the members, the property `R` of all of them being put together from `S`. -/
theorem XtypesToFastdds.setStructData_outcome {ms : List (String × DynamicType)}
    {L : DynamicType → DdsData → Prop} {S : DynamicType → Value → DdsData → Prop}
    {R : List (String × DynamicType) → List (String × Value) → List DdsData → Prop}
    (hms : ∀ m ∈ ms, ConvertsTo L S m.2) (hbuilders : ∀ m ∈ ms, m.2.getBuilder.isSome = true)
    (hnil : R [] [] [])
    (hcons : ∀ m t v c ms fields cs, S t v c → R ms fields cs →
      R ((m, t) :: ms) ((m, v) :: fields) (c :: cs))
    {before : List (String × DdsType)}
    (hnames : ((before ++ DynamicType.getMemberBuilders ms).map Prod.fst).Nodup)
    {fields input : List (String × Value)} (hv : DynamicType.admitsFields ms fields = true)
    (hinput : ∀ f ∈ fields, input.lookup f.1 = some f.2) (done rest : List DdsData)
    (hdone : done.length = before.length) (hrest : List.Forall₂ (fun m c => L m.2 c) ms rest) :
    Outcome .exception ((DynamicType.leavesOfMembers ms fields).all fun o => o.2.readable o.1)
      (fun r => ∃ stored,
        r = .composite (.struct (before ++ DynamicType.getMemberBuilders ms)) (done ++ stored) ∧
          List.Forall₂ (fun m c => L m.2 c) ms stored ∧ R ms fields stored)
      (setStructData ms (.struct input)
        (.composite (.struct (before ++ DynamicType.getMemberBuilders ms)) (done ++ rest))) := by
  induction ms generalizing before fields done rest with
  | nil =>
    cases fields with
    | nil =>
      cases hrest
      exact Outcome.ok ⟨[], rfl, .nil, hnil⟩
    | cons f fields => cases hv
  | cons head ms ih =>
    obtain ⟨m, t⟩ := head
    cases fields with
    | nil => cases hv
    | cons field fields =>
      obtain ⟨k, v⟩ := field
      simp only [DynamicType.admitsFields, Bool.and_eq_true, decide_eq_true_eq] at hv
      obtain ⟨⟨rfl, hv⟩, hfields⟩ := hv
      obtain ⟨T, hT⟩ := Option.isSome_iff_exists.mp (hbuilders _ List.mem_cons_self)
      rw [DynamicType.getMemberBuilders_cons hT] at hnames ⊢
      cases hrest with
      | @cons _ x _ rest hx hrest =>
      -- the member is found at its own position: no member before it has its name
      have hm : m ∉ before.map Prod.fst := by
        rw [List.map_append, List.nodup_append] at hnames
        intro hmem
        exact hnames.2.2 m hmem m List.mem_cons_self rfl
      rw [DynamicType.leavesOfMembers, List.all_append, setStructData, Value.field,
        hinput _ List.mem_cons_self]
      have hid : (DdsData.composite (.struct (before ++ (m, T) :: DynamicType.getMemberBuilders ms))
          (done ++ x :: rest)).getMemberIdByName m = some done.length := by
        rw [hdone]
        exact findIdx?_append_of_not_mem hm T
      rw [hid]
      refine (hms _ List.mem_cons_self (p := .member _ _ false) hT hv trivial
        (member_holds hdone m T _ x rest false) hx).bind fun r hr => ?_
      obtain ⟨c, rfl, hc, hstored⟩ := hr
      -- the rest of the loop sees this member among those that are done
      have hsplit : before ++ (m, T) :: DynamicType.getMemberBuilders ms =
          before ++ [(m, T)] ++ DynamicType.getMemberBuilders ms := by
        rw [List.append_assoc, List.singleton_append]
      have hothers := ih (fun m hm => hms m (List.mem_cons_of_mem _ hm))
        (fun m hm => hbuilders m (List.mem_cons_of_mem _ hm)) (hsplit ▸ hnames) hfields
        (fun f hf => hinput f (List.mem_cons_of_mem _ hf)) (done ++ [c]) rest
        (by rw [List.length_append, List.length_append, hdone]; rfl) hrest
      rw [← hsplit, List.append_assoc, List.singleton_append] at hothers
      rw [member_put]
      refine hothers.imp fun r hr => ?_
      obtain ⟨stored, rfl, hadmits, hmembers⟩ := hr
      exact ⟨c :: stored, by rw [List.append_assoc, List.singleton_append], .cons hc hadmits,
        hcons m t v c ms fields stored hstored hmembers⟩

omit [Xtypes] [Dds] in
/-- The components are of the types of the members. -/
theorem shaped_members_iff {ms : List (String × DynamicType)}
    (hbuilders : ∀ m ∈ ms, m.2.getBuilder.isSome = true) {cs : List DdsData} :
    List.Forall₂ (fun m c => Shaped m.2 c) ms cs ↔
      DdsType.AdmitsMembers (DynamicType.getMemberBuilders ms) cs := by
  induction ms generalizing cs with
  | nil => exact List.forall₂_nil_left_iff
  | cons head ms ih =>
    obtain ⟨m, t⟩ := head
    obtain ⟨T, hT⟩ := Option.isSome_iff_exists.mp (hbuilders _ List.mem_cons_self)
    have hhead (c : DdsData) : Shaped t c ↔ T.Admits c := by
      constructor
      · intro h
        exact h hT
      · intro h U hU
        rw [hT] at hU
        cases hU
        exact h
    rw [DynamicType.getMemberBuilders_cons hT, List.forall₂_cons_left_iff]
    simp only [hhead, ih fun m hm => hbuilders m (List.mem_cons_of_mem _ hm)]
    constructor
    · rintro ⟨c, rest, hc, hrest, rfl⟩
      exact ⟨c, rest, rfl, hc, hrest⟩
    · rintro ⟨c, rest, rfl, hc, hrest⟩
      exact ⟨c, rest, hc, hrest, rfl⟩

omit [Xtypes] in
theorem FastddsToXtypes.setAggregation_structure {p : Place} {T : DdsType} {input : DdsData}
    (hp : p.Holds T input) (hkind : T.kind = .struct) (fuel : Nat)
    (f : String → Place → Value → Except Fault Value) (output : Value) :
    setAggregation fuel f p .struct output =
      (setStructData f input fuel 0 output).map some := by
  unfold setAggregation
  have hbranch := branch_of_holds hp
  rw [hkind] at hbranch
  rw [hbranch, nestedData_of_holds hp]

omit [Xtypes] in
theorem FastddsToXtypes.setAggregation_union {p : Place} {T : DdsType} {input : DdsData}
    (hp : p.Holds T input) (hkind : T.kind = .union) (fuel : Nat)
    (f : String → Place → Value → Except Fault Value) (output : Value) :
    setAggregation fuel f p .union output = (setUnionData f input output).map some := by
  unfold setAggregation
  have hbranch := branch_of_holds hp
  rw [hkind] at hbranch
  rw [hbranch, nestedData_of_holds hp]

/-- `output[name]` receives what is read for the member of that name. -/
theorem FastddsToXtypes.setMember_of_lookup {fuel : Nat} {t mt : DynamicType}
    {ms : List (String × DynamicType)} {m : String} (h : ms.lookup m = some mt) (p : Place)
    {output current : Value} (hcurrent : output.field mt m = some current) :
    setMember fuel t ms m p output =
      (decode fuel mt p current).map fun r => r.elim output (output.withField t m) := by
  induction ms with
  | nil => cases h
  | cons head ms ih =>
    obtain ⟨n, u⟩ := head
    rw [setMember]
    by_cases hn : n = m
    · rw [hn, List.lookup_cons_self] at h
      cases h
      rw [if_pos hn, hcurrent]
      dsimp only
      cases decode fuel mt p current with
      | error e => rfl
      | ok r =>
        cases r with
        | none => rfl
        | some w => rfl
    · rw [lookup_cons_ne (Ne.symm hn)] at h
      rw [if_neg hn]
      exact ih h

theorem FastddsToXtypes.setMember_outcome {fuel : Nat} {t mt : DynamicType}
    {ms : List (String × DynamicType)} {m : String} (h : ms.lookup m = some mt) {p : Place}
    {output current w : Value} (hcurrent : output.field mt m = some current) {b : Bool}
    (hdecode : Outcome .exception b (· = some w) (decode fuel mt p current)) :
    Outcome .exception b (· = output.withField t m w) (setMember fuel t ms m p output) := by
  rw [setMember_of_lookup h p hcurrent]
  refine hdecode.map fun r hr => ?_
  rw [hr]
  rfl

theorem XtypesToFastdds.setUnionData_of_lookup {ms : List (String × DynamicType)} {c : String}
    {t : DynamicType} (h : ms.lookup c = some t) (v : Value) (output : DdsData) :
    setUnionData ms c v output =
      encode t v (.member output (output.getMemberIdByName c) true) := by
  apply eq_of_lookup _ h
  intro m t ms
  rw [setUnionData]

omit [Xtypes] [Dds] in
theorem XtypesToFastdds.setDiscriminator_union (d : DynamicType) (x : Int) (U : DdsType) (k : Nat)
    (a : MemberId) (cs : List DdsData) :
    setDiscriminator d x (.union U k a cs) =
      .union U (if d.isDiscriminator then (x % 2 ^ 64).toNat else k) a cs := by
  unfold setDiscriminator DynamicType.isDiscriminator
  cases d.resolve with
  | leafType n l =>
    by_cases h : l.cppType.bounds.isSome = true
    · simp only [h, if_true]
      rfl
    · simp only [h]
      rfl
  | _ => rfl

variable [LawfulDds]

omit [Xtypes] in
theorem DdsData.getDescriptor_of_member {data : DdsData} {id : MemberId} {m : String × DdsType}
    (h : data.memberDescriptor id = some m) : data.getDescriptor id = some m := by
  unfold getDescriptor
  rw [if_pos (LawfulDds.describes_of_member data id (by rw [h]; rfl)), h]

theorem FastddsToXtypes.setStructData_outcome {fuel : Nat} {t : DynamicType}
    {members ms : List (String × DynamicType)} (hmembers : ∀ m ∈ ms, members.lookup m.1 = some m.2)
    (hbuilders : ∀ m ∈ ms, m.2.getBuilder.isSome = true) {before : List (String × DdsType)}
    {fields : List (String × Value)} {done stored : List DdsData}
    (hdone : done.length = before.length) (h : MembersStored fuel ms fields stored)
    (hv : DynamicType.admitsFields ms fields = true) (output : List (String × Value))
    (hnames : (output.map Prod.fst ++ ms.map Prod.fst).Nodup) {turns : Nat}
    (hturns : ms.length < turns) :
    Outcome .exception ((DynamicType.leavesOfMembers ms fields).all fun o => o.2.writable o.1)
      (· = .struct (output ++ DynamicType.rebuiltMembers ms fields))
      (setStructData (setMember fuel t members)
        (.composite (.struct (before ++ DynamicType.getMemberBuilders ms)) (done ++ stored)) turns
        done.length (.struct (output ++ DynamicType.defaultMembers ms))) := by
  induction ms generalizing before fields done stored output turns with
  | nil =>
    cases fields with
    | nil =>
      cases turns with
      | zero => cases hturns
      | succ turns =>
        -- past the last member there is no id, and the loop ends
        have hid : (DdsData.composite (.struct (before ++ DynamicType.getMemberBuilders []))
            (done ++ stored)).getMemberIdAtIndex done.length = none := by
          refine if_neg ?_
          show ¬ done.length < (before ++ []).length
          rw [List.append_nil, hdone]
          exact Nat.lt_irrefl _
        rw [setStructData, hid]
        exact Outcome.ok rfl
    | cons f fields => cases hv
  | cons head ms ih =>
    obtain ⟨m, mt⟩ := head
    cases fields with
    | nil => cases hv
    | cons field fields =>
      obtain ⟨k, v⟩ := field
      simp only [DynamicType.admitsFields, Bool.and_eq_true, decide_eq_true_eq] at hv
      obtain ⟨⟨rfl, hv⟩, hfields⟩ := hv
      obtain ⟨c, stored, rfl, hc, hrest⟩ := h
      obtain ⟨T, hT⟩ := Option.isSome_iff_exists.mp (hbuilders _ List.mem_cons_self)
      have hm : m ∉ output.map Prod.fst := by
        rw [List.nodup_append] at hnames
        intro hmem
        exact hnames.2.2 m hmem m List.mem_cons_self rfl
      cases turns with
      | zero => cases hturns
      | succ turns =>
        rw [DynamicType.getMemberBuilders_cons hT]
        have hholds := member_holds hdone m T (DynamicType.getMemberBuilders ms) c stored false
        have hid : (DdsData.composite
            (.struct (before ++ (m, T) :: DynamicType.getMemberBuilders ms))
            (done ++ c :: stored)).getMemberIdAtIndex done.length = some done.length := by
          refine if_pos ?_
          show done.length < (before ++ (m, T) :: DynamicType.getMemberBuilders ms).length
          rw [List.length_append, List.length_cons]
          omega
        have hdescriptor : (DdsData.composite
            (.struct (before ++ (m, T) :: DynamicType.getMemberBuilders ms))
            (done ++ c :: stored)).getDescriptor (some done.length) = some (m, T) := by
          apply DdsData.getDescriptor_of_member
          show (before ++ (m, T) :: DynamicType.getMemberBuilders ms)[done.length]? = some (m, T)
          rw [hdone, List.getElem?_append_right (le_refl _), Nat.sub_self]
          rfl
        rw [setStructData, hid, DynamicType.leavesOfMembers, List.all_append]
        simp only [hdescriptor]
        have hcurrent : (Value.struct (output ++ DynamicType.defaultMembers ((m, mt) :: ms))).field
            mt m = some mt.default := by
          show (output ++ DynamicType.defaultMembers ((m, mt) :: ms)).lookup m = _
          rw [lookup_append_of_not_mem hm, DynamicType.defaultMembers, List.lookup_cons_self]
        refine (setMember_outcome (hmembers _ List.mem_cons_self) hcurrent
          (hc (p := .member _ _ false) hT trivial hholds)).bind fun r hr => ?_
        have hwritten : r = .struct ((output ++ [(m, mt.rebuilt v)]) ++
            DynamicType.defaultMembers ms) := by
          rw [hr, DynamicType.defaultMembers]
          show Value.struct (Value.setField _ m _) = _
          rw [setField_append_of_not_mem hm, List.append_assoc, List.singleton_append]
        have hsplit : before ++ (m, T) :: DynamicType.getMemberBuilders ms =
            before ++ [(m, T)] ++ DynamicType.getMemberBuilders ms := by
          rw [List.append_assoc, List.singleton_append]
        have hothers := ih (fun m hm => hmembers m (List.mem_cons_of_mem _ hm))
          (fun m hm => hbuilders m (List.mem_cons_of_mem _ hm))
          (show (done ++ [c]).length = (before ++ [(m, T)]).length by
            rw [List.length_append, List.length_append, hdone]; rfl)
          hrest hfields (output ++ [(m, mt.rebuilt v)])
          (by rw [List.map_append, List.append_assoc]; exact hnames)
          (Nat.lt_of_succ_lt_succ hturns)
        rw [← hsplit, List.append_assoc done, List.singleton_append, List.length_append,
          List.length_singleton] at hothers
        rw [hwritten]
        refine hothers.imp fun r hr => ?_
        rw [hr, List.append_assoc, List.singleton_append]
        rfl

theorem stored_structType {fuel : Nat} {n : String} {ms : List (String × DynamicType)}
    (hbuilders : ∀ m ∈ ms, m.2.getBuilder.isSome = true) (hnames : (ms.map Prod.fst).Nodup)
    (hfuel : ms.length < fuel) {fields : List (String × Value)} {cs : List DdsData}
    (hv : DynamicType.admitsFields ms fields = true) (h : MembersStored fuel ms fields cs) :
    Stored fuel (.structType n ms) (.struct fields)
      (.composite (.struct (DynamicType.getMemberBuilders ms)) cs) := by
  intro T p hT _ hp
  cases hT
  rw [DynamicType.default, FastddsToXtypes.decode,
    FastddsToXtypes.setAggregation_structure hp rfl]
  have hloop := FastddsToXtypes.setStructData_outcome (t := .structType n ms)
    (fun m hm => lookup_of_mem hnames hm) hbuilders
    (show ([] : List DdsData).length = ([] : List (String × DdsType)).length from rfl) h hv []
    hnames hfuel
  exact hloop.map fun r hr => by rw [hr]; rfl

theorem converts_structType {fuel : Nat} {ms : List (String × DynamicType)} (n : String)
    (hms : ∀ m ∈ ms, Converts fuel m.2) (hbuilders : ∀ m ∈ ms, m.2.getBuilder.isSome = true)
    (hnames : (ms.map Prod.fst).Nodup) (hfuel : ms.length < fuel) :
    Converts fuel (.structType n ms) := by
  intro T p x v hT hv hfits hp hx
  cases v with
  | struct fields =>
    cases hT
    have hkey := hfits.ne_key rfl
    rw [XtypesToFastdds.encode, DynamicType.getBuilder]
    refine XtypesToFastdds.setNested_outcome hp hkey hx (DdsType.admits_createData _)
      fun y hy => ?_
    obtain ⟨cs, rfl, hcs⟩ := hy
    have hdds : (([] ++ DynamicType.getMemberBuilders ms).map Prod.fst).Nodup := by
      rw [List.nil_append, DynamicType.map_fst_getMemberBuilders hbuilders]
      exact hnames
    have hfields : (fields.map Prod.fst).Nodup := by
      rw [DynamicType.map_fst_of_admitsFields hv]
      exact hnames
    have hloop := XtypesToFastdds.setStructData_outcome (fun m hm => (hms m hm).convertsTo)
      hbuilders rfl (membersStored_cons fuel) hdds hv (fun f hf => lookup_of_mem hfields hf) [] cs
      rfl ((shaped_members_iff hbuilders).mpr hcs)
    refine hloop.imp fun r hr => ?_
    obtain ⟨stored, rfl, hadmits, hmembers⟩ := hr
    exact ⟨⟨stored, rfl, (shaped_members_iff hbuilders).mp hadmits⟩,
      stored_structType hbuilders hnames hfuel hv hmembers⟩
  | leaf | list | map | union => cases hv

/-! ## Unions -/

omit [Dds] [LawfulDds] in
theorem DynamicType.withField_default_unionType {n c : String} {d : DynamicType}
    {ms : List (String × DynamicType)} {cs : List UnionCase} (v : Value) :
    (unionType n d ms cs).default.withField (unionType n d ms cs) c v =
      .union ((unionType n d ms cs).selectedDiscriminator c) c v := by
  rw [default, Value.withField, selectedDiscriminator]
  split
  · rename_i hc
    rw [hc]
  · rfl

theorem FastddsToXtypes.setUnionData_outcome {fuel : Nat} {n c : String} {d mt : DynamicType}
    {D T : DdsType} {ms : List (String × DynamicType)} {cs : List UnionCase}
    (hc : ms.lookup c = some mt) (hT : mt.getBuilder = some T) {i : Nat}
    (hi : (DynamicType.getMemberBuilders ms)[i]? = some (c, T)) {v : Value} {y : DdsData}
    (hy : Stored fuel mt v y) {components : List DdsData} (hcomponent : components[i]? = some y)
    (labels : List (List Nat × Bool)) (k : Nat) :
    Outcome .exception (mt.writable .unionMember v)
      (· = .union ((DynamicType.unionType n d ms cs).selectedDiscriminator c) c (mt.rebuilt v))
      (setUnionData (setMember fuel (.unionType n d ms cs) ms)
        (.union (.union D (DynamicType.getMemberBuilders ms) labels) k (some i) components)
        (DynamicType.unionType n d ms cs).default) := by
  have hdescriptor : (DdsData.union (.union D (DynamicType.getMemberBuilders ms) labels) k (some i)
      components).getDescriptor (some i) = some (c, T) := DdsData.getDescriptor_of_member hi
  have hholds : (Place.member (.union (.union D (DynamicType.getMemberBuilders ms) labels) k
      (some i) components) (some i) true).Holds T y :=
    ⟨Option.some_ne_none i, hcomponent, c, hi⟩
  have hmember : (DynamicType.unionType n d ms cs).member c = some mt := hc
  have hset := setMember_outcome (t := .unionType n d ms cs) hc
    (DynamicType.field_default hmember) (hy (p := .member _ _ true) hT trivial hholds)
  rw [DynamicType.withField_default_unionType] at hset
  unfold setUnionData
  rw [DdsData.getUnionId]
  simp only [hdescriptor]
  exact hset

theorem converts_unionType {fuel : Nat} {ms : List (String × DynamicType)} (n : String)
    (d : DynamicType) (cs : List UnionCase) (hms : ∀ m ∈ ms, Converts fuel m.2)
    (hbuilders : ∀ m ∈ ms, m.2.getBuilder.isSome = true) :
    Converts fuel (.unionType n d ms cs) := by
  intro U p x v hU hv hfits hp hx
  cases v with
  | union k c w =>
    obtain ⟨D, labels, rfl⟩ :
        ∃ D labels, U = .union D (DynamicType.getMemberBuilders ms) labels := by
      obtain ⟨D, -, hunion⟩ := Option.map_eq_some_iff.mp hU
      exact ⟨D, _, hunion.symm⟩
    obtain ⟨mt, hc, hw⟩ := DynamicType.exists_lookup_of_admitsCase hv
    obtain ⟨i, T, hT, -, hid, hi⟩ := DynamicType.getMemberBuilders_of_lookup hbuilders hc
    have hkey := hfits.ne_key rfl
    rw [XtypesToFastdds.encode, hU]
    refine XtypesToFastdds.setNested_outcome hp hkey hx (DdsType.admits_createData _)
      fun y hy => ?_
    obtain ⟨k', a, components, rfl, hcomponents⟩ := hy
    have hset := XtypesToFastdds.setDiscriminator_union d k
      (.union D (DynamicType.getMemberBuilders ms) labels) k' a components
    generalize (if d.isDiscriminator then (k % 2 ^ 64).toNat else k') = k'' at hset
    obtain ⟨z, hz, hadmits⟩ := DdsType.admitsMembers_getElem? hcomponents hi
    have hid' : (DdsData.union (.union D (DynamicType.getMemberBuilders ms) labels) k'' a
        components).getMemberIdByName c = some i := hid
    rw [hset, XtypesToFastdds.setUnionData_of_lookup hc, DynamicType.readable, DynamicType.leaves,
      DynamicType.leavesOfCase_eq hc, hid']
    have hholds : (Place.member (.union (.union D (DynamicType.getMemberBuilders ms) labels) k'' a
        components) (some i) true).Holds T z := ⟨Option.some_ne_none i, hz, c, hi⟩
    refine (hms _ (mem_of_lookup hc) (p := .member _ _ true) hT hw trivial hholds hadmits).imp
      fun r hr => ?_
    obtain ⟨y, rfl, hy, hstored⟩ := hr
    obtain ⟨hlength, -⟩ := List.getElem?_eq_some_iff.mp hz
    have hput : (Place.member (.union (.union D (DynamicType.getMemberBuilders ms) labels) k'' a
        components) (some i) true).put y =
          .union (.union D (DynamicType.getMemberBuilders ms) labels) k'' (some i)
            (components.set i y) := if_pos hlength
    rw [hput]
    refine ⟨⟨k'', some i, _, rfl, DdsType.admitsMembers_set hcomponents hi hy⟩, ?_⟩
    intro U p hU' _ hp
    rw [hU] at hU'
    cases hU'
    rw [FastddsToXtypes.decode, FastddsToXtypes.setAggregation_union hp rfl, DynamicType.writable,
      DynamicType.leaves, DynamicType.leavesOfCase_eq hc]
    refine (FastddsToXtypes.setUnionData_outcome hc hT hi hstored
      (List.getElem?_set_self hlength) labels k'').map fun r hr => ?_
    rw [hr, DynamicType.rebuilt, DynamicType.rebuiltCase_eq hc]
  | leaf | list | map | struct => cases hv

end FastDdsSh
