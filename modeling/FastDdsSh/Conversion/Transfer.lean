import FastDdsSh.Conversion.RoundTrip

/-!
# Values on their way

A writer converts a value into the DDS data object that it keeps, and a reader converts the sample
that is taken into fresh xtypes data.  What the object held before does not show in what the reader
gets; and a component that was assigned is found again at its path, with its unions rebuilt.
-/

namespace FastDdsSh

open Lookup

/-! ## Components of a rebuilt value -/

section Rebuilt

variable [Xtypes]

namespace DynamicType

@[simp] theorem rebuilt_resolve (t : DynamicType) (v : Value) :
    t.resolve.rebuilt v = t.rebuilt v := by
  induction t using resolve.induct with
  | case1 n t ih => exact ih
  | case2 t h =>
    rw [resolve]
    exact h

theorem lookup_rebuiltMembers {ms : List (String × DynamicType)} {fields : List (String × Value)}
    {m : String} {mt : DynamicType} {w : Value} (h : admitsFields ms fields = true)
    (hm : ms.lookup m = some mt) (hw : fields.lookup m = some w) :
    (rebuiltMembers ms fields).lookup m = some (mt.rebuilt w) := by
  induction ms generalizing fields with
  | nil => cases hm
  | cons head ms ih =>
    obtain ⟨n, t⟩ := head
    cases fields with
    | nil => cases hw
    | cons field fields =>
      obtain ⟨k, x⟩ := field
      simp only [admitsFields, Bool.and_eq_true, decide_eq_true_eq] at h
      obtain ⟨⟨rfl, -⟩, hrest⟩ := h
      rw [rebuiltMembers]
      by_cases hmn : m = n
      · subst hmn
        rw [List.lookup_cons_self] at hm hw ⊢
        cases hm
        cases hw
        rfl
      · rw [lookup_cons_ne hmn] at hm hw ⊢
        exact ih hrest hm hw

/-- The member that is present is rebuilt by itself. -/
theorem field_rebuilt {t mt : DynamicType} {m : String} {v w : Value} {path : List String}
    (hv : t.admits v = true) (hm : t.member m = some mt) (hpresent : v.Present (m :: path))
    (hw : v.field mt m = some w) : (t.rebuilt v).field mt m = some (mt.rebuilt w) := by
  have hlookup := hm
  unfold member members at hlookup
  split at hlookup
  · cases v with
    | struct fields =>
      rw [admits] at hv
      rw [rebuilt]
      exact lookup_rebuiltMembers hv hlookup hw
    | union | leaf | list | map => cases hv
  · cases v with
    | union d c u =>
      obtain ⟨rfl, -⟩ := hpresent
      rw [Value.field, if_pos rfl] at hw
      cases hw
      rw [rebuilt, Value.field, if_pos rfl, rebuiltCase_eq hlookup]
    | struct | leaf | list | map => cases hv
  · cases hlookup

/-- A component that is present is found in the rebuilt value, rebuilt. -/
theorem component_rebuilt {t u : DynamicType} {v w : Value} {path : List String}
    (hv : t.admits v = true) (hpresent : v.Present path)
    (h : v.component t path = some (u, w)) :
    (t.rebuilt v).component t path = some (u, u.rebuilt w) := by
  induction path generalizing t v with
  | nil =>
    rw [Value.component] at h ⊢
    cases h
    rw [rebuilt_resolve]
  | cons m ms ih =>
    rw [Value.component] at h ⊢
    obtain ⟨mt, hm, hrest⟩ := Option.bind_eq_some_iff.mp h
    obtain ⟨x, hx, hbelow⟩ := Option.bind_eq_some_iff.mp hrest
    rw [← admits_resolve] at hv
    obtain ⟨hfirst, hpresent'⟩ := present_cons hpresent hx
    have hfield := field_rebuilt hv hm hpresent hx
    rw [rebuilt_resolve] at hfield
    rw [hm, Option.bind_some, hfield, Option.bind_some]
    exact ih (admits_field hm hv hfirst hx) hpresent' hbelow

end DynamicType

end Rebuilt

/-! ## From a writer to a reader -/

variable [Xtypes] [Dds]

def readSample (fuel : Nat) (t : DynamicType) (sample : DdsData) : Option Value :=
  match fastddsToXtypes fuel sample t t.default with
  | .ok (true, v) => some v
  | _ => none

/-- A type for a topic: its values are converted, and loops are followed for long enough. -/
structure Transferable (fuel : Nat) (t : DynamicType) : Prop where
  convertible : t.isConvertible = true
  root : t.resolve.isAggregation = true
  fuel : t.width < fuel

/-- The sample is one that is read as `v`, its unions rebuilt, or cannot be read. -/
def Carries (fuel : Nat) (t : DynamicType) (v : Value) (sample : DdsData) : Prop :=
  Outcome .exception (t.writable .entry v) (· = (true, t.rebuilt v))
    (fastddsToXtypes fuel sample t t.default)

/-- Whatever the object of the writer held, afterwards it carries the value that was converted. -/
theorem carries_of_xtypesToFastdds [LawfulDds] {fuel : Nat} {t : DynamicType}
    (ht : Transferable fuel t) {v : Value} (hv : t.admits v = true) {data data' : DdsData}
    {converted : Bool} (hdata : Shaped t data)
    (hconvert : xtypesToFastdds t v data = .ok (converted, data')) :
    converted = true ∧ Shaped t data' ∧ Carries fuel t v data' := by
  obtain ⟨T, hT⟩ := Option.isSome_iff_exists.mp (DynamicType.getBuilder_isSome ht.convertible)
  rw [xtypesToFastdds_of_isAggregation ht.root] at hconvert
  have hencode := (converts_of_isConvertible ht.convertible ht.fuel).1.convertsTo
    (p := .whole data) hT hv trivial rfl hdata
  obtain ⟨r, hr, heq⟩ := Except.bind_eq_ok_iff.mp hconvert
  cases heq
  obtain ⟨-, c, hc, hshaped, hstored⟩ := hencode.of_eq_ok hr
  have hput : data' = c := hc
  subst hput
  refine ⟨rfl, hshaped, ?_⟩
  unfold Carries
  rw [fastddsToXtypes_of_isAggregation ht.root]
  have hdecode := hstored (p := .whole data') hT trivial rfl
  exact hdecode.bind_ok fun r hr => by rw [hr]; rfl

/-- A value whose leaves can be taken out is converted, whatever the object of the writer holds. -/
theorem exists_converted [LawfulDds] {fuel : Nat} {t : DynamicType} (ht : Transferable fuel t)
    {v : Value} (hv : t.admits v = true) (hreadable : t.readable .entry v = true) {data : DdsData}
    (hdata : Shaped t data) : ∃ data', xtypesToFastdds t v data = .ok (true, data') := by
  obtain ⟨T, hT⟩ := Option.isSome_iff_exists.mp (DynamicType.getBuilder_isSome ht.convertible)
  have hencode := (converts_of_isConvertible ht.convertible ht.fuel).1.convertsTo
    (p := .whole data) hT hv trivial rfl hdata
  have hposition : (Place.whole data).position = .entry := rfl
  rw [hposition, hreadable] at hencode
  obtain ⟨r, hr, -⟩ := hencode
  exact ⟨r, by rw [xtypesToFastdds_of_isAggregation ht.root, hr]; rfl⟩

/-- What is read of a sample is the value that was written. -/
theorem Carries.read {fuel : Nat} {t : DynamicType} {v w : Value} {sample : DdsData}
    (h : Carries fuel t v sample) (hread : readSample fuel t sample = some w) :
    w = t.rebuilt v := by
  unfold readSample at hread
  split at hread
  · rename_i x hx
    cases hread
    have heq : (true, w) = (true, t.rebuilt v) := (h.of_eq_ok hx).2
    exact (Prod.mk.inj heq).2
  · cases hread

/-- A sample whose leaves can be put into xtypes data is read. -/
theorem Carries.read_of_writable {fuel : Nat} {t : DynamicType} {v : Value} {sample : DdsData}
    (h : Carries fuel t v sample) (hwritable : t.writable .entry v = true) :
    readSample fuel t sample = some (t.rebuilt v) := by
  unfold Carries at h
  rw [hwritable] at h
  unfold readSample
  rw [(h.eq_ok_iff).mpr ⟨rfl, rfl⟩]

end FastDdsSh
