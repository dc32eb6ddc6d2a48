import FastDdsSh.Conversion.History
import FastDdsSh.Conversion.LoansToXtypes

/-!
# Loans over the life of an object

Publishers, subscribers, clients and servers keep an object and convert every message into it or out
of it.  Whatever the conversions, each one finds the object with nothing on loan and leaves it so.
-/

namespace FastDdsSh

open Trace DdsType

variable [Xtypes] [Dds]

/-- A conversion into an object of the type gives what it gives without loans. -/
theorem xtypesToFastddsTraced_balanced {t : DynamicType} (hbuilt : t.isBuilt = true)
    (hdirect : t.hasDirectArrays = true) {T : DdsType} (hT : t.getBuilder = some T) {v : Value}
    (hv : t.admits v = true) {data : DdsData} (hdata : T.AdmitsDeep data) :
    Follows Harmless NotNull (fun r s => s = (r.1, r.2, []) ∧ T.AdmitsDeep r.2)
      (xtypesToFastdds t v data) (xtypesToFastddsTraced .none t v data []) := by
  have hencode := (XtypesToFastdds.balances_of_isBuilt hbuilt hdirect).1 (p := .whole data) hT hv
    hdata fun _ _ heq => by cases heq
  unfold xtypesToFastdds xtypesToFastddsTraced
  cases t.resolve with
  | structType | unionType =>
    refine hencode.bind fun r s _ hs => ?_
    obtain ⟨rfl, hr⟩ := hs
    exact .pure ⟨rfl, hr⟩
  | _ => exact .pure ⟨rfl, hdata⟩

/-- A conversion out of an object of the type gives what it gives without loans, and leaves the
object as it is. -/
theorem fastddsToXtypesTraced_intact {t : DynamicType} (hbuilt : t.isBuilt = true)
    (hdirect : t.hasDirectArrays = true) {T : DdsType} (hT : t.getBuilder = some T) (fuel : Nat)
    {output : Value} (houtput : t.Writable output) {data : DdsData} (hdata : T.AdmitsDeep data) :
    Follows Harmless NotNull (Intact data) (fastddsToXtypes fuel data t output)
      (fastddsToXtypesTraced fuel data [] t output) := by
  have hintact : FastddsToXtypes.LeavesIntact fuel t :=
    (FastddsToXtypes.leavesIntact_of_isBuilt hbuilt hdirect).1
  have hdecode := hintact (p := .whole data) hT houtput ⟨rfl, hdata, rfl⟩ fun _ _ heq => by
    cases heq
  unfold fastddsToXtypes fastddsToXtypesTraced
  cases t.resolve with
  | structType | unionType =>
    refine hdecode.bind fun r s _ hs => ?_
    obtain rfl : s = (r, data, []) := hs
    exact .pure rfl
  | _ => exact .pure rfl

def Use.IsOf (t : DynamicType) : Use → Prop
  | toFastdds input => t.admits input = true
  | toXtypes _ output => t.Writable output

def Use.outcome (t : DynamicType) (data : DdsData) : Use → Except Fault DdsData
  | toFastdds input => (xtypesToFastdds t input data).map Prod.snd
  | toXtypes fuel output => (fastddsToXtypes fuel data t output).map fun _ => data

theorem perform_balanced {t : DynamicType} (hbuilt : t.isBuilt = true)
    (hdirect : t.hasDirectArrays = true) {T : DdsType} (hT : t.getBuilder = some T) {use : Use}
    (huse : use.IsOf t) {data : DdsData} (hdata : T.AdmitsDeep data) :
    Follows Harmless NotNull (Balanced T.AdmitsDeep) (use.outcome t data)
      (use.perform t (data, [])) := by
  cases use with
  | toFastdds input =>
    have h := xtypesToFastddsTraced_balanced hbuilt hdirect hT huse hdata
    refine Follows.andThen (h.map (f := Prod.snd) (T := fun r s => s.2 = (r, []) ∧ T.AdmitsDeep r)
      fun r s _ hs => ?_) fun r s _ hs => ?_
    · obtain ⟨rfl, hr⟩ := hs
      exact ⟨rfl, hr⟩
    · obtain ⟨flag, object⟩ := s
      obtain ⟨rfl, hr⟩ : object = (r, []) ∧ _ := hs
      exact ⟨(r, []), ⟨rfl, hr⟩, rfl⟩
  | toXtypes fuel output =>
    have h := fastddsToXtypesTraced_intact hbuilt hdirect hT fuel huse hdata
    refine Follows.andThen (h.map (f := fun _ => data)
      (T := fun r s => s.2 = (r, []) ∧ T.AdmitsDeep r) fun r s _ hs => ?_) fun r s _ hs => ?_
    · obtain rfl : s = (r, data, []) := hs
      exact ⟨rfl, hdata⟩
    · obtain ⟨output', object⟩ := s
      obtain ⟨rfl, hr⟩ : object = (r, []) ∧ _ := hs
      exact ⟨(r, []), ⟨rfl, hr⟩, rfl⟩

def outcomes (t : DynamicType) : List Use → DdsData → Except Fault DdsData
  | [], data => .ok data
  | use :: uses, data => use.outcome t data >>= outcomes t uses

theorem performAll_balanced {t : DynamicType} (hbuilt : t.isBuilt = true)
    (hdirect : t.hasDirectArrays = true) {T : DdsType} (hT : t.getBuilder = some T)
    {uses : List Use} (huses : ∀ use ∈ uses, use.IsOf t) {data : DdsData}
    (hdata : T.AdmitsDeep data) :
    Follows Harmless NotNull (Balanced T.AdmitsDeep) (outcomes t uses data)
      (performAll t uses (data, [])) := by
  induction uses generalizing data with
  | nil => exact .pure ⟨rfl, hdata⟩
  | cons use uses ih =>
    have hfirst := perform_balanced hbuilt hdirect hT (huses use List.mem_cons_self) hdata
    refine hfirst.bind fun r s _ hs => ?_
    obtain ⟨rfl, hr⟩ := hs
    exact ih (fun use' huse' => huses use' (List.mem_cons_of_mem _ huse')) hr

/-- In any sequence of conversions into and out of an object of the type, `loan_value` never gives
null, nothing is on loan after a conversion, and one out of the object leaves it as it is. -/
theorem loans_balanced {t : DynamicType} (hbuilt : t.isBuilt = true)
    (hdirect : t.hasDirectArrays = true) {T : DdsType} (hT : t.getBuilder = some T)
    {uses : List Use} (huses : ∀ use ∈ uses, use.IsOf t) {data : DdsData}
    (hdata : T.AdmitsDeep data) :
    Failure.nullPointer ∉ (performAll t uses (data, [])).log ∧
      (performAll t uses (data, [])).outcome ≠ .error .nullPointer ∧
      ∀ data' loans, (performAll t uses (data, [])).outcome = .ok (data', loans) → loans = [] ∧
        ∀ fuel output, t.Writable output →
          Failure.nullPointer ∉ (fastddsToXtypesTraced fuel data' loans t output).log ∧
          (fastddsToXtypesTraced fuel data' loans t output).outcome ≠ .error .nullPointer ∧
          ∀ result data'' loans',
            (fastddsToXtypesTraced fuel data' loans t output).outcome =
              .ok (result, data'', loans') → data'' = data' ∧ loans' = [] := by
  have hall := performAll_balanced hbuilt hdirect hT huses hdata
  obtain ⟨herror, hok⟩ := hall.of_outcome
  refine ⟨fun hmem => hall.1 _ hmem rfl, fun heq => herror _ heq rfl, fun data' loans heq => ?_⟩
  obtain ⟨data₁, -, hbalanced, hdata₁⟩ := hok _ heq
  obtain ⟨rfl, rfl⟩ := Prod.mk.inj hbalanced
  refine ⟨rfl, fun fuel output houtput => ?_⟩
  -- what is read next finds the object as the run has left it
  have hread := fastddsToXtypesTraced_intact hbuilt hdirect hT fuel houtput hdata₁
  obtain ⟨herror', hok'⟩ := hread.of_outcome
  refine ⟨fun hmem => hread.1 _ hmem rfl, fun heq' => herror' _ heq' rfl,
    fun result data'' loans' heq' => ?_⟩
  obtain ⟨read, -, hintact⟩ := hok' _ heq'
  cases hintact
  exact ⟨rfl, rfl⟩

omit [Xtypes] [Dds]

theorem loans_balanced_batches :
    ∃ T, batchType.getBuilder = some T ∧
      let run := @performAll firstLabelXtypes zeroDds batchType [.toFastdds longBatch,
        .toXtypes 3 (@DynamicType.default firstLabelXtypes batchType), .toFastdds shortBatch]
        (@DdsType.createData zeroDds T, [])
      Failure.nullPointer ∉ run.log ∧ run.outcome ≠ .error .nullPointer := by
  have hdata : ∀ T : DdsType, T.AdmitsDeep (@DdsType.createData zeroDds T) := fun T =>
    @admitsDeep_createData zeroDds T
  have huses : ∀ use ∈ [Use.toFastdds longBatch,
      .toXtypes 3 (@DynamicType.default firstLabelXtypes batchType), .toFastdds shortBatch],
      @Use.IsOf firstLabelXtypes batchType use := by
    intro use huse
    simp only [List.mem_cons, List.not_mem_nil, or_false] at huse
    rcases huse with rfl | rfl | rfl
    · show batchType.admits longBatch = true
      decide
    · exact .inr rfl
    · show batchType.admits shortBatch = true
      decide
  have hbalanced := @loans_balanced firstLabelXtypes zeroDds batchType (by decide) (by decide) _ rfl
    _ huses _ (hdata _)
  exact ⟨_, rfl, hbalanced.1, hbalanced.2.1⟩

end FastDdsSh
