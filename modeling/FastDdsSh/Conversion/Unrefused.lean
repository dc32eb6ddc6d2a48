import FastDdsSh.Conversion.Traced

/-!
# Conversions that are refused nothing

With nothing on loan at the start, and a library that refuses nothing of its own accord, the
conversion to DDS data that reports its calls does what the conversion without a report does,
whatever the type, the value and the data are.  It leaves nothing on loan.
-/

namespace FastDdsSh

open Trace

variable [Xtypes] [Dds]

namespace XtypesToFastdds

omit [Dds] in
/-- A library that refuses nothing of its own accord does not change what a setter does. -/
theorem setLeaf_follows {P : Failure → Prop} {E : Fault → Prop} (hP : P .refused)
    (hE : E .exception) (l : LeafType) (v : Value) (p : Place) :
    Follows P E (fun r s => s = r) (setLeaf l v p) (Traced.setLeaf .none l v p) := by
  unfold setLeaf Traced.setLeaf
  cases v with
  | list | map | struct | union => exact .throw hE
  | leaf content =>
    dsimp only
    cases l.valueAs (l.readAs p.position) content with
    | none => exact .throw hE
    | some x =>
      dsimp only
      apply Follows.reportUnless_bind hP
      have hset : Refusals.none.setValue p.data (l.setter p.position) x p.id =
          p.data.setValue (l.setter p.position) x p.id := by
        unfold Refusals.setValue DdsData.setValue
        cases p.data.component p.id with
        | none => rfl
        | some c => cases c <;> rfl
      rw [hset]
      cases p.data.setValue (l.setter p.position) x p.id with
      | none => exact .report_bind hP (.pure rfl)
      | some output => exact .pure rfl

omit [Xtypes] [Dds] in
theorem setDiscriminator_follows {P : Failure → Prop} {E : Fault → Prop} (hP : P .refused)
    (hP' : P .unsupported) (d : DynamicType) (x : Int) (output : DdsData) :
    Follows P E (fun r s => s = r) (.ok (setDiscriminator d x output))
      (Traced.setDiscriminator d x output) :=
  .reportUnless_bind hP' _ (.reportUnless_bind hP _ (.pure rfl))

/-- The same result or the same fault, and nothing on loan. -/
def Mirrors (r : Except Fault DdsData) (x : Trace Failure Fault (DdsData × Loans)) : Prop :=
  Follows (fun _ => True) (fun _ => True) (fun a s => s = (a, [])) r x

omit [Xtypes] [Dds] in
theorem Mirrors.bind {r : Except Fault DdsData} {x : Trace Failure Fault (DdsData × Loans)}
    {f : DdsData → Except Fault DdsData}
    {g : DdsData × Loans → Trace Failure Fault (DdsData × Loans)} (h : Mirrors r x)
    (hfg : ∀ a, Mirrors (f a) (g (a, []))) : Mirrors (r >>= f) (x >>= g) := by
  refine Follows.bind h fun a s _ hs => ?_
  rw [hs]
  exact hfg a

omit [Xtypes] in
theorem setNested_mirrors (p : Place) (builder : Option DdsType)
    {convert : DdsData → Except Fault DdsData}
    {lending : DdsData → Loans → Trace Failure Fault (DdsData × Loans)}
    (h : ∀ d, Mirrors (convert d) (lending d [])) :
    Mirrors (setNested p builder convert) (Traced.setNested p [] builder lending) := by
  have hcreate (replaced : DdsData → DdsData) (id : MemberId) (b : Bool) (type : DdsType) :
      Mirrors (convert type.createData >>= fun created => .ok (replaced created))
        (lending type.createData [] >>= fun s => do
          Trace.reportUnless b .refused
          return (replaced s.1, Loans.replace [] id s.2)) := by
    refine (h type.createData).bind fun created => ?_
    rw [Loans.replace_nil]
    exact .reportUnless_bind trivial _ (.pure rfl)
  cases p with
  | whole output => exact h output
  | member output id inUnion | entry output id =>
    unfold setNested Traced.setNested
    dsimp only
    cases hloan : output.loanValue id with
    | none =>
      rw [loanValue_of_null hloan, bind_assoc]
      exact .report_bind trivial (.throw trivial)
    | some c =>
      obtain ⟨i, rfl, hc⟩ := DdsData.exists_of_loanValue hloan
      rw [loanValue_of_component hc, pure_bind]
      refine (h c).bind fun r => ?_
      dsimp only
      rw [Loans.replace_lend]
      exact .pure rfl
  | key output | arrayElement output _ | sequenceElement output _ =>
    cases builder with
    | none => exact .throw trivial
    | some type => exact hcreate _ _ _ type

omit [Xtypes] [Dds] in
theorem setArrayData_mirrors {setElement : Value → DdsData → List Nat → Except Fault DdsData}
    {lending : Value → DdsData → Loans → List Nat → Trace Failure Fault (DdsData × Loans)}
    (h : ∀ v output indexes, Mirrors (setElement v output indexes) (lending v output [] indexes))
    (indexes : List Nat) (vs : List Value) (idx : Nat) (output : DdsData) :
    Mirrors (setArrayData setElement indexes vs idx output)
      (Traced.setArrayData lending indexes vs idx output []) := by
  induction vs generalizing idx output with
  | nil => exact .pure rfl
  | cons v vs ih => exact (h v output (indexes ++ [idx])).bind fun output => ih (idx + 1) output

omit [Xtypes] in
theorem setSequenceData_mirrors {setElement : Value → DdsData → MemberId → Except Fault DdsData}
    {lending : Value → DdsData → Loans → MemberId → Trace Failure Fault (DdsData × Loans)}
    (h : ∀ v output id, Mirrors (setElement v output id) (lending v output [] id))
    (vs : List Value) (output : DdsData) :
    Mirrors (setSequenceData setElement vs output)
      (Traced.setSequenceData .none lending vs output []) := by
  induction vs generalizing output with
  | nil => exact .pure rfl
  | cons v vs ih =>
    exact .reportUnless_bind trivial _ ((h v _ _).bind fun output => ih output)

omit [Xtypes] in
theorem setMapData_mirrors {setKey setEntry : Value → DdsData → Except Fault DdsData}
    {lendingKey lendingEntry : Value → DdsData → Loans → Trace Failure Fault (DdsData × Loans)}
    (hkey : ∀ v output, Mirrors (setKey v output) (lendingKey v output []))
    (hentry : ∀ v output, Mirrors (setEntry v output) (lendingEntry v output []))
    (keyBuilder valueBuilder : Option DdsType) (es : List (Value × Value)) (output : DdsData) :
    Mirrors (setMapData setKey setEntry keyBuilder valueBuilder es output)
      (Traced.setMapData .none lendingKey lendingEntry keyBuilder valueBuilder es output []) := by
  induction es generalizing output with
  | nil => exact .pure rfl
  | cons e es ih =>
    obtain ⟨k, v⟩ := e
    unfold setMapData Traced.setMapData
    cases keyBuilder with
    | none => exact .throw trivial
    | some K =>
      refine (hkey k _).bind fun key => ?_
      cases valueBuilder with
      | none => exact .throw trivial
      | some V =>
        refine (hentry v _).bind fun value => ?_
        apply Follows.reportUnless_bind trivial
        rw [Traced.insertedLoans_nil]
        exact ih (output.insertMapData key value)

/-! ## Every type -/

def EncodesAlike (t : DynamicType) : Prop :=
  ∀ v p, Mirrors (encode t v p) (Traced.encode .none t v p [])

theorem setStructData_mirrors {ms : List (String × DynamicType)}
    (h : ∀ m ∈ ms, EncodesAlike m.2) (v : Value) (output : DdsData) :
    Mirrors (setStructData ms v output) (Traced.setStructData .none ms v output []) := by
  induction ms generalizing output with
  | nil =>
    rw [setStructData, Traced.setStructData]
    exact .pure rfl
  | cons head ms ih =>
    obtain ⟨m, t⟩ := head
    rw [setStructData, Traced.setStructData]
    cases v.field t m with
    | none => exact .throw trivial
    | some w =>
      refine (h _ List.mem_cons_self w _).bind fun output => ?_
      exact ih (fun m hm => h m (List.mem_cons_of_mem _ hm)) output

theorem setUnionData_mirrors {ms : List (String × DynamicType)}
    (h : ∀ m ∈ ms, EncodesAlike m.2) (c : String) (v : Value) (output : DdsData) :
    Mirrors (setUnionData ms c v output) (Traced.setUnionData .none ms c v output []) := by
  induction ms with
  | nil =>
    rw [setUnionData, Traced.setUnionData]
    exact .throw trivial
  | cons head ms ih =>
    obtain ⟨m, t⟩ := head
    rw [setUnionData, Traced.setUnionData]
    split
    · exact h _ List.mem_cons_self v _
    · exact ih fun m hm => h m (List.mem_cons_of_mem _ hm)

theorem encodesAlike (t : DynamicType) : EncodesAlike t := by
  induction t using DynamicType.inductionOn with
  | leafType n l =>
    intro v p
    rw [encode, Traced.encode]
    refine (setLeaf_follows trivial trivial l v p).andThen fun r s _ hs => ⟨(r, []), rfl, ?_⟩
    rw [hs]
  | bitsetType n =>
    intro v p
    rw [encode, Traced.encode]
    exact .report_bind trivial (.pure rfl)
  | aliasType n t ih =>
    intro v p
    rw [encode, Traced.encode]
    exact ih v p
  | arrayType n t d ih =>
    intro v p
    have helements (indexes : List Nat) (vs : List Value) (output : DdsData) :
        Mirrors
          (setArrayData (fun v output indexes => encode t v (.arrayElement output indexes))
            indexes vs 0 output)
          (Traced.setArrayData
            (fun v output loans indexes =>
              Traced.encode .none t v (.arrayElement output indexes) loans)
            indexes vs 0 output []) :=
      setArrayData_mirrors (fun v output indexes => ih v (.arrayElement output indexes)) ..
    cases v with
    | list vs =>
      cases p with
      | arrayElement output indexes =>
        rw [encode, Traced.encode]
        exact helements indexes vs output
      | whole | key | entry | member | sequenceElement =>
        rw [encode, Traced.encode]
        · exact setNested_mirrors _ _ (helements [] vs)
        all_goals rintro _ _ ⟨⟩
    | leaf | map | struct | union =>
      rw [encode, Traced.encode]
      · exact .throw trivial
      all_goals rintro _ ⟨⟩
  | sequenceType n t b ih =>
    intro v p
    cases v with
    | list vs =>
      rw [encode, Traced.encode]
      refine setNested_mirrors _ _ fun output => ?_
      exact setSequenceData_mirrors (fun v output id => ih v (.sequenceElement output id)) vs _
    | leaf | map | struct | union =>
      rw [encode, Traced.encode]
      · exact .throw trivial
      all_goals rintro _ ⟨⟩
  | mapType n k t b ihk iht =>
    intro v p
    cases v with
    | map es =>
      rw [encode, Traced.encode]
      refine setNested_mirrors _ _ fun output => ?_
      exact setMapData_mirrors (fun v output => ihk v (.key output))
        (fun v output => iht v (.whole output)) _ _ es _
    | leaf | list | struct | union =>
      rw [encode, Traced.encode]
      · exact .throw trivial
      all_goals rintro _ ⟨⟩
  | structType n ms ih =>
    intro v p
    rw [encode, Traced.encode]
    exact setNested_mirrors _ _ fun output => setStructData_mirrors ih v output
  | unionType n d ms cs ihd ih =>
    intro v p
    cases v with
    | union x c w =>
      rw [encode, Traced.encode]
      refine setNested_mirrors _ _ fun output => ?_
      refine Follows.bind (f := setUnionData ms c w)
        (setDiscriminator_follows (E := fun _ => True) trivial trivial d x output)
        fun r s hr hs => ?_
      cases hr
      rw [hs]
      exact setUnionData_mirrors ih c w _
    | leaf | list | map | struct =>
      rw [encode, Traced.encode]
      · exact .throw trivial
      all_goals rintro _ _ _ ⟨⟩

end XtypesToFastdds

/-- Into an object with nothing on loan, a conversion that is refused nothing is the one without a
report. -/
theorem xtypesToFastddsTraced_follows (t : DynamicType) (v : Value) (output : DdsData) :
    Follows (fun _ => True) (fun _ => True) (fun r s => s = (r.1, r.2, []))
      (xtypesToFastdds t v output) (xtypesToFastddsTraced .none t v output []) := by
  have hencode := XtypesToFastdds.encodesAlike t v (.whole output)
  unfold xtypesToFastdds xtypesToFastddsTraced
  cases t.resolve with
  | structType | unionType =>
    refine Follows.bind hencode fun r s _ hs => ?_
    rw [hs]
    exact .pure rfl
  | _ => exact .pure rfl

end FastDdsSh
