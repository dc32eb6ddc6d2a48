import FastDdsSh.Conversion.Soundness
import FastDdsSh.Lib.Transition

/-!
# Conversions among many values

Data objects on both sides that are converted into each other again and again, by publishers,
subscribers, clients and servers.  Whatever the order and whichever the types, the xtypes objects
stay of their types, and the DDS objects as far as their members and the ranges of their leaves go.
-/

namespace FastDdsSh

open Except Transition

variable [Xtypes] [Dds]

namespace Exchange

structure State where
  values : List (DynamicType × Value)
  data : List DdsData

/-- What is done with the data: it is created, the user writes a value, a sample arrives, or some
data is converted into some other. -/
inductive Event where
  | newValue (t : DynamicType)
  | newData (T : DdsType)
  | assign (i : Nat) (v : Value)
  | sample (d : DdsData)
  | toFastdds (i j : Nat)
  | toXtypes (fuel i j : Nat)

/-- A conversion that throws is no step. -/
def step (s : State) : Event → Option State
  | .newValue t => some { s with values := s.values ++ [(t, t.default)] }
  | .newData T => some { s with data := s.data ++ [T.createData] }
  | .assign i v =>
      (s.values[i]?).map fun x => { s with values := s.values.set i (x.1, v) }
  | .sample d => some { s with data := s.data ++ [d] }
  | .toFastdds i j =>
      (s.values[i]?).bind fun x => (s.data[j]?).bind fun d =>
        match xtypesToFastdds x.1 x.2 d with
        | .ok result => some { s with data := s.data.set j result.2 }
        | .error _ => none
  | .toXtypes fuel i j =>
      (s.data[i]?).bind fun d => (s.values[j]?).bind fun x =>
        match fastddsToXtypes fuel d x.1 x.2 with
        | .ok result => some { s with values := s.values.set j (x.1, result.2) }
        | .error _ => none

/-- Any conversions in any order, whether or not the types of the two sides belong together. -/
def machine : Machine State Event where
  init s := s = ⟨[], []⟩
  step := step

/-- The types are ones that the libraries accept, the user writes values of the type, and the
library delivers samples of the type. -/
def Accepts (s : State) : Event → Prop
  | .newValue t => t.hasDistinctNames = true ∧ t.hasCases = true
  | .assign i v => ∀ x, s.values[i]? = some x → x.1.admits v = true
  | .sample d => d.IsTyped ∧ d.IsSound
  | _ => True

/-- Each value is one of its type; in DDS data members have their types, leaves their ranges. -/
structure Typed (s : State) : Prop where
  types : ∀ x ∈ s.values, x.1.hasDistinctNames = true ∧ x.1.hasCases = true
  values : ∀ x ∈ s.values, x.1.admits x.2 = true
  data : ∀ d ∈ s.data, d.IsTyped ∧ d.IsSound

/-- Data that is converted into keeps its DDS type. -/
theorem typed_xtypesToFastdds [TypedXtypes] [TypedDds] {t : DynamicType} {v : Value}
    {d : DdsData} {result : Bool × DdsData} (ht : t.hasDistinctNames = true ∧ t.hasCases = true)
    (hv : t.admits v = true) (hd : d.IsTyped ∧ d.IsSound)
    (hr : xtypesToFastdds t v d = .ok result) :
    result.2.type = d.type ∧ result.2.IsTyped ∧ result.2.IsSound := by
  cases hroot : t.resolve.isAggregation with
  | true =>
    rw [xtypesToFastdds_of_isAggregation hroot] at hr
    obtain ⟨r, hencode, heq⟩ := bind_eq_ok_iff.mp hr
    cases heq
    obtain ⟨htype, htyped⟩ := XtypesToFastdds.sameTyping_encode (p := .whole d) trivial hencode
    have hsound := XtypesToFastdds.encodesSoundly ht.1 ht.2 v (.whole d) hv hd.2 r hencode
    exact ⟨htype, htyped hd.1, hsound⟩
  | false =>
    rw [xtypesToFastdds_of_not_isAggregation hroot] at hr
    cases hr
    exact ⟨rfl, hd⟩

theorem typed_fastddsToXtypes [TypedXtypes] [TypedDds] {fuel : Nat} {t : DynamicType} {v : Value}
    {d : DdsData} {result : Bool × Value} (ht : t.hasCases = true) (hv : t.admits v = true)
    (hd : d.IsSound) (hr : fastddsToXtypes fuel d t v = .ok result) :
    t.admits result.2 = true := by
  cases hroot : t.resolve.isAggregation with
  | true =>
    rw [fastddsToXtypes_of_isAggregation hroot] at hr
    obtain ⟨r, hdecode, heq⟩ := bind_eq_ok_iff.mp hr
    cases heq
    have hadmits := FastddsToXtypes.admitsResult_decode fuel ht (p := .whole d) hd hv r hdecode
    exact hadmits.getD hv
  | false =>
    rw [fastddsToXtypes_of_not_isAggregation hroot] at hr
    cases hr
    exact hv

theorem Typed.step [TypedXtypes] [TypedDds] {s s' : State} {a : Event} (h : Typed s)
    (ha : Accepts s a) (hstep : machine.step s a = some s') : Typed s' := by
  obtain ⟨htypes, hvalues, hdata⟩ := h
  have hstep : Exchange.step s a = some s' := hstep
  cases a with
  | newValue t =>
    cases hstep
    exact ⟨List.forall_mem_append.mpr ⟨htypes, List.forall_mem_singleton.mpr ha⟩,
      List.forall_mem_append.mpr ⟨hvalues,
        List.forall_mem_singleton.mpr (DynamicType.admits_default ha.2)⟩, hdata⟩
  | newData T =>
    cases hstep
    exact ⟨htypes, hvalues, List.forall_mem_append.mpr ⟨hdata, List.forall_mem_singleton.mpr
      ⟨T.isTyped_createData, T.isSound_createData⟩⟩⟩
  | assign i v =>
    obtain ⟨x, hx, rfl⟩ := Option.map_eq_some_iff.mp hstep
    have hmem := List.mem_of_getElem? hx
    have hwritten : x.1.admits v = true := ha x hx
    exact ⟨forall_mem_set htypes (a := (x.1, v)) (htypes x hmem) i,
      forall_mem_set hvalues hwritten i, hdata⟩
  | sample d =>
    cases hstep
    exact ⟨htypes, hvalues,
      List.forall_mem_append.mpr ⟨hdata, List.forall_mem_singleton.mpr ha⟩⟩
  | toFastdds i j =>
    obtain ⟨x, hx, hstep⟩ := Option.bind_eq_some_iff.mp hstep
    obtain ⟨d, hd, hstep⟩ := Option.bind_eq_some_iff.mp hstep
    have hxmem := List.mem_of_getElem? hx
    split at hstep
    · rename_i result hresult
      cases hstep
      have hr := typed_xtypesToFastdds (htypes x hxmem) (hvalues x hxmem)
        (hdata d (List.mem_of_getElem? hd)) hresult
      exact ⟨htypes, hvalues, forall_mem_set hdata hr.2 j⟩
    · cases hstep
  | toXtypes fuel i j =>
    obtain ⟨d, hd, hstep⟩ := Option.bind_eq_some_iff.mp hstep
    obtain ⟨x, hx, hstep⟩ := Option.bind_eq_some_iff.mp hstep
    have hxmem := List.mem_of_getElem? hx
    split at hstep
    · rename_i result hresult
      cases hstep
      have hr := typed_fastddsToXtypes (htypes x hxmem).2 (hvalues x hxmem)
        (hdata d (List.mem_of_getElem? hd)).2 hresult
      exact ⟨forall_mem_set htypes (a := (x.1, result.2)) (htypes x hxmem) j,
        forall_mem_set hvalues hr j, hdata⟩
    · cases hstep

/-- Whatever is converted into whatever, in any order and between any types, all xtypes data remains
of its type, and in all DDS data what belongs to a member is of the type of the member and every
leaf is in its range. -/
theorem values_stay_typed [TypedXtypes] [TypedDds] {s : State}
    (h : machine.ReachableVia Accepts s) :
    (∀ x ∈ s.values, x.1.admits x.2 = true) ∧ ∀ d ∈ s.data, d.IsTyped ∧ d.IsSound := by
  have htyped : Typed s := by
    refine h.invariant (fun s hs => ?_) fun s a s' hs ha hstep => hs.step ha hstep
    have hs : s = ⟨[], []⟩ := hs
    subst hs
    exact ⟨List.forall_mem_nil _, List.forall_mem_nil _, List.forall_mem_nil _⟩
  exact ⟨htyped.values, htyped.data⟩

omit [Xtypes] [Dds]

theorem typed_firstLabelXtypes : @TypedXtypes firstLabelXtypes := by
  refine @TypedXtypes.mk firstLabelXtypes (fun l => ?_) fun n d ms cs hms hcs => ?_
  · cases l <;> rfl
  · cases ms with
    | nil => exact absurd rfl hms
    | cons m ms =>
      cases cs with
      | nil => exact absurd rfl hcs
      | cons c cs => exact List.mem_cons_self

theorem typed_zeroDds : @TypedDds zeroDds := by
  refine @TypedDds.mk zeroDds (fun l => ?_) fun T => ?_
  · cases l with
    | primitive kind => cases kind <;> decide
    | string8 | string16 | enum => rfl
  · cases T <;> decide

def pointType : DynamicType :=
  .structType "Point" [("x", .leafType "int32_t" .int32)]

/-- A number goes to a member that is a byte, and comes back from it. -/
theorem values_stay_typed_byte : ∃ s : State,
    (s.values.map Prod.snd = [.struct [("x", .leaf (.integral 70000))]]) ∧
      (∀ x ∈ s.values, x.1.admits x.2 = true) ∧ ∀ d ∈ s.data, d.IsTyped ∧ d.IsSound := by
  have hnew : (@machine firstLabelXtypes zeroDds).ReachableVia Accepts
      ⟨[(pointType, .struct [("x", .leaf (.integral 0))])], []⟩ :=
    .step (a := .newValue pointType) (.init rfl) ⟨by decide, by decide⟩ rfl
  have hassign : Accepts ⟨[(pointType, .struct [("x", .leaf (.integral 0))])], []⟩
      (.assign 0 (.struct [("x", .leaf (.integral 70000))])) := by
    intro x hx
    cases hx
    decide
  have hvalue := hnew.step hassign rfl
  have hdata := hvalue.step (a := Event.newData (.struct [("x", .leaf (.primitive .byte))]))
    (by trivial) rfl
  have hthere := hdata.step (a := Event.toFastdds 0 0) (by trivial) rfl
  have hback := hthere.step (a := Event.toXtypes 2 0 0) (by trivial) rfl
  exact ⟨_, rfl, @values_stay_typed firstLabelXtypes zeroDds typed_firstLabelXtypes typed_zeroDds
    _ hback⟩

end Exchange

end FastDdsSh
