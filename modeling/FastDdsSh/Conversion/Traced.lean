import FastDdsSh.Lib.Trace
import FastDdsSh.Conversion.Content
import FastDdsSh.Conversion.ToFastdds
import FastDdsSh.Conversion.ToXtypes

/-!
# The calls of a conversion

The conversions once more, with what the calls of the DDS library answer and what is on loan.  Each
call that fails is reported, and so is a kind without a branch; the conversions go on, as the code
does, and look at the answer nowhere but where this is said.  What the library refuses for reasons
of its own, such as a bound, is a parameter.  Every object keeps the ids of its components that are
on loan: `loan_value` gives null for a component that is absent or on loan already, and what is
below a component goes out with it.  To DDS data they agree with the conversions without a report
wherever nothing is refused (`Conversion.Unrefused`), from DDS data on objects of the type
(`Conversion.LoansToXtypes`).
-/

namespace FastDdsSh

open Lookup

/-- What is reported: null for a loan, an error code or an invalid id, a kind without a branch. -/
inductive Failure where
  | nullPointer
  | refused
  | unsupported
  deriving DecidableEq, Repr

/-- What the library refuses: a value for a leaf, and one more element or entry, by the type and the
number of those that are there. -/
structure Refusals where
  value : DdsLeaf → CppValue → Bool
  element : DdsType → Nat → Bool
  entry : DdsType → Nat → Bool

namespace Refusals

def none : Refusals := ⟨fun _ _ => false, fun _ _ => false, fun _ _ => false⟩

def setValue (refusals : Refusals) (data : DdsData) (accessor : Accessor) (value : CppValue)
    (id : MemberId) : Option DdsData :=
  match data.component id with
  | some (.leaf l _) =>
      if refusals.value l (l.cppType.cast (accessor.cppType.cast value)) then .none
      else data.setValue accessor value id
  | _ => .none

variable [Dds] in
def insertSequenceData (refusals : Refusals) (data : DdsData) : DdsData × MemberId :=
  if refusals.element data.type data.components.length then (data, .none)
  else data.insertSequenceData

def insertMapData (refusals : Refusals) (data key value : DdsData) : DdsData :=
  if refusals.entry data.type (data.components.length / 2) then data
  else data.insertMapData key value

end Refusals

/-! ## Loans -/

/-- The paths, by ids, to the components of an object that are on loan, at any depth. -/
abbrev Loans := List (List Nat)

namespace Loans

def below (loans : Loans) (i : Nat) : Loans :=
  loans.filterMap fun
    | j :: path => if j = i ∧ path ≠ [] then some path else none
    | [] => none

def apart (loans : Loans) (i : Nat) : Loans :=
  loans.filter fun path => path.head? ≠ some i

def lend (loans : Loans) (i : Nat) : Loans :=
  [i] :: loans.apart i

def replace (loans : Loans) (id : MemberId) (inner : Loans) : Loans :=
  match id with
  | none => loans
  | some i => loans.apart i ++ inner.map (i :: ·)

theorem replace_nil (id : MemberId) : replace [] id [] = [] := by
  cases id <;> rfl

/-- A component that was the only one on loan is returned with nothing on loan below it. -/
theorem replace_lend (i : Nat) : ((lend [] i).replace (some i) []) = [] := by
  simp [lend, replace, apart]

end Loans

/-- `loan_value`: the component, what is on loan below it, and what is on loan in the object while
the component is out. -/
def loanValue (data : DdsData) (loans : Loans) (id : MemberId) :
    Trace Failure Fault (Option (DdsData × Loans × Loans)) :=
  match id, data.loanValue id with
  | some i, some c =>
      if [i] ∈ loans then do
        Trace.report .nullPointer
        return none
      else return some (c, loans.below i, loans.lend i)
  | _, _ => do
      Trace.report .nullPointer
      return none

theorem loanValue_of_component {data c : DdsData} {i : Nat} (h : data.component (some i) = some c) :
    loanValue data [] (some i) = pure (some (c, [], Loans.lend [] i)) := by
  unfold loanValue
  rw [DdsData.loanValue_of_component (Option.some_ne_none i) h]
  rfl

theorem loanValue_of_null {data : DdsData} {id : MemberId} (h : data.loanValue id = none)
    (loans : Loans) :
    loanValue data loans id = (do
      Trace.report .nullPointer
      return none) := by
  unfold loanValue
  rw [h]
  cases id <;> rfl

variable [Xtypes] [Dds]

/-! ## To DDS data -/

namespace XtypesToFastdds

namespace Traced

variable (refusals : Refusals)

def setLeaf (l : LeafType) (v : Value) (p : Place) : Trace Failure Fault DdsData :=
  match v with
  | .leaf content =>
      match l.valueAs (l.readAs p.position) content with
      | some x => do
          Trace.reportUnless p.isFound .refused
          match refusals.setValue p.data (l.setter p.position) x p.id with
          | some output => return output
          | none => do
              Trace.report .refused
              return p.data
      | none => throw .exception
  | _ => throw .exception

def setDiscriminator (discriminator : DynamicType) (d : Int) (output : DdsData) :
    Trace Failure Fault DdsData := do
  Trace.reportUnless discriminator.isDiscriminator .unsupported
  -- the discriminator can be set in a union only
  Trace.reportUnless (decide (output.type.kind = .union)) .refused
  return XtypesToFastdds.setDiscriminator discriminator d output

def setNested (p : Place) (loans : Loans) (builder : Option DdsType)
    (convert : DdsData → Loans → Trace Failure Fault (DdsData × Loans)) :
    Trace Failure Fault (DdsData × Loans) :=
  match p with
  | .whole output => convert output loans
  | .member output id _ | .entry output id => do
      match ← loanValue output loans id with
      | some (loaned, inner, loans) => do
          let (loaned, inner) ← convert loaned inner
          return (output.returnLoanedValue id loaned, loans.replace id inner)
      -- no call site looks at the pointer
      | none => throw .nullPointer
  | .key output | .arrayElement output _ | .sequenceElement output _ =>
      match builder with
      | some type => do
          let (created, inner) ← convert type.createData []
          Trace.reportUnless p.id.isSome .refused
          return (output.setComplexValue created p.id, loans.replace p.id inner)
      | none => throw .nullPointer

def setArrayData
    (setElement : Value → DdsData → Loans → List Nat → Trace Failure Fault (DdsData × Loans))
    (indexes : List Nat) :
    List Value → Nat → DdsData → Loans → Trace Failure Fault (DdsData × Loans)
  | [], _, output, loans => return (output, loans)
  | v :: vs, idx, output, loans => do
      let (output, loans) ← setElement v output loans (indexes ++ [idx])
      setArrayData setElement indexes vs (idx + 1) output loans

def setSequenceData
    (setElement : Value → DdsData → Loans → MemberId → Trace Failure Fault (DdsData × Loans)) :
    List Value → DdsData → Loans → Trace Failure Fault (DdsData × Loans)
  | [], output, loans => return (output, loans)
  | v :: vs, output, loans => do
      let inserted := refusals.insertSequenceData output
      Trace.reportUnless inserted.2.isSome .refused
      let (output, loans) ← setElement v inserted.1 loans inserted.2
      setSequenceData setElement vs output loans

/-- What is on loan after `insert_map_data`: an entry that is not refused comes with its own. -/
def insertedLoans (output inserted : DdsData) (loans keyLoans valueLoans : Loans) : Loans :=
  let id := output.components.length
  if inserted.components.length = id then loans
  else (loans.replace (some id) keyLoans).replace (some (id + 1)) valueLoans

omit [Xtypes] [Dds] in
theorem insertedLoans_nil (output inserted : DdsData) :
    insertedLoans output inserted [] [] [] = [] := by
  unfold insertedLoans
  dsimp only
  split <;> rfl

def setMapData (setKey setEntry : Value → DdsData → Loans → Trace Failure Fault (DdsData × Loans))
    (keyBuilder valueBuilder : Option DdsType) :
    List (Value × Value) → DdsData → Loans → Trace Failure Fault (DdsData × Loans)
  | [], output, loans => return (output, loans)
  | (k, v) :: es, output, loans =>
      match keyBuilder with
      | none => throw .nullPointer
      | some key => do
          let (keyData, keyLoans) ← setKey k key.createData []
          match valueBuilder with
          | none => throw .nullPointer
          | some value => do
              let (valueData, valueLoans) ← setEntry v value.createData []
              let inserted := refusals.insertMapData output keyData valueData
              Trace.reportUnless
                (decide (inserted.components.length ≠ output.components.length)) .refused
              setMapData setKey setEntry keyBuilder valueBuilder es inserted
                (insertedLoans output inserted loans keyLoans valueLoans)

mutual

def encode : DynamicType → Value → Place → Loans → Trace Failure Fault (DdsData × Loans)
  | .leafType _ l, v, p, loans => do
      let output ← setLeaf refusals l v p
      return (output, loans)
  | .bitsetType _, _, p, loans => do
      Trace.report .unsupported
      return (p.data, loans)
  | .aliasType _ t, v, p, loans => encode t v p loans
  | .arrayType n t d, v, p, loans =>
      match v with
      | .list vs =>
          match p with
          | .arrayElement output indexes =>
              setArrayData
                (fun v output loans indexes => encode t v (.arrayElement output indexes) loans)
                indexes vs 0 output loans
          | p =>
              setNested p loans (DynamicType.arrayType n t d).getBuilder fun output loans =>
                setArrayData
                  (fun v output loans indexes => encode t v (.arrayElement output indexes) loans)
                  [] vs 0 output loans
      | _ => throw .exception
  | .sequenceType n t b, v, p, loans =>
      match v with
      | .list vs =>
          setNested p loans (DynamicType.sequenceType n t b).getBuilder fun output loans =>
            setSequenceData refusals
              (fun v output loans id => encode t v (.sequenceElement output id) loans) vs
              -- `clear_all_values` does not touch the ids that are on loan
              output.clearAllValues loans
      | _ => throw .exception
  | .mapType n k t b, v, p, loans =>
      match v with
      | .map es =>
          setNested p loans (DynamicType.mapType n k t b).getBuilder fun output loans =>
            setMapData refusals (fun v output loans => encode k v (.key output) loans)
              (fun v output loans => encode t v (.whole output) loans) k.getBuilder t.getBuilder es
              output.clearAllValues loans
      | _ => throw .exception
  | .structType n ms, v, p, loans =>
      setNested p loans (DynamicType.structType n ms).getBuilder fun output loans =>
        setStructData ms v output loans
  | .unionType n d ms cs, v, p, loans =>
      match v with
      | .union x c w =>
          setNested p loans (DynamicType.unionType n d ms cs).getBuilder fun output loans => do
            let output ← setDiscriminator d x output
            setUnionData ms c w output loans
      | _ => throw .exception

def setStructData :
    List (String × DynamicType) → Value → DdsData → Loans → Trace Failure Fault (DdsData × Loans)
  | [], _, output, loans => return (output, loans)
  | (m, t) :: ms, v, output, loans =>
      match v.field t m with
      | some w => do
          let (output, loans) ←
            encode t w (.member output (output.getMemberIdByName m) false) loans
          setStructData ms v output loans
      | none => throw .exception

def setUnionData :
    List (String × DynamicType) → String → Value → DdsData → Loans →
      Trace Failure Fault (DdsData × Loans)
  | [], _, _, _, _ => throw .exception
  | (m, t) :: ms, c, w, output, loans =>
      if m = c then encode t w (.member output (output.getMemberIdByName c) true) loans
      else setUnionData ms c w output loans

end

end Traced

end XtypesToFastdds

/-! ## From DDS data -/

namespace FastddsToXtypes

namespace Traced

abbrev Read (α : Type) := α × DdsData × Loans

def read (data : DdsData) (accessor : Accessor) (id : MemberId) : Trace Failure Fault CppValue := do
  Trace.reportUnless (data.getValue accessor id).isSome .refused
  return FastddsToXtypes.read data accessor id

def setLeaf (l : LeafType) (p : Place) (current : Value) : Trace Failure Fault (Option Value) :=
  match p with
  | .member input id inUnion =>
      match input.memberDescriptor id with
      | some (_, .leaf d) =>
          match l.writtenAs d inUnion with
          | some T => do
              let x ← read input d.getter id
              liftM (store l T x)
          | none => do
              Trace.report .unsupported
              return some current
      | _ => throw .exception
  | p => do
      Trace.reportUnless p.isFound .refused
      let x ← read p.data l.getter p.id
      liftM (store l l.getter.cppType x)

def mismatched (p : Place) (current : Value) : Trace Failure Fault (Option Value) := do
  Trace.report .unsupported
  liftM (FastddsToXtypes.mismatched p current)

/-- The conversion of a nested component: of the data itself, or of the component on loan, which is
then returned.  `none` is a null pointer. -/
def onNested {α : Type} (p : Place) (loans : Loans)
    (convert : DdsData → Loans → Trace Failure Fault (Read α)) :
    Trace Failure Fault (Option (Read α)) :=
  match p with
  | .whole input | .key input => do
      let r ← convert input loans
      return some r
  | p => do
      match ← loanValue p.data loans p.id with
      | some (loaned, inner, loans) => do
          let (a, loaned, inner) ← convert loaned inner
          return some (a, p.data.returnLoanedValue p.id loaned, loans.replace p.id inner)
      | none => return none

def setArrayData
    (getElement : DdsData → Loans → List Nat → Trace Failure Fault (Read (Option Value)))
    (indexes : List Nat) :
    List Value → Nat → DdsData → Loans → Trace Failure Fault (Read (List Value))
  | [], _, input, loans => return ([], input, loans)
  | v :: output, idx, input, loans => do
      let (w, input, loans) ← getElement input loans (indexes ++ [idx])
      let (rest, input, loans) ← setArrayData getElement indexes output (idx + 1) input loans
      return (w.getD v :: rest, input, loans)

def setSequenceData
    (getElement : DdsData → Loans → MemberId → Trace Failure Fault (Read (Option Value))) :
    List Nat → List Value → DdsData → Loans → Trace Failure Fault (Read (List Value))
  | [], output, input, loans => return (output, input, loans)
  | idx :: rest, output, input, loans => do
      let (w, input, loans) ← getElement input loans (some idx)
      setSequenceData getElement rest (output ++ w.toList) input loans

def setMapData
    (getKey getEntry : DdsData → Loans → MemberId → Trace Failure Fault (Read (Option Value)))
    (defaults : Value × Value) :
    List Nat → List (Value × Value) → DdsData → Loans →
      Trace Failure Fault (Read (List (Value × Value)))
  | [], output, input, loans => return (output, input, loans)
  | idx :: rest, output, input, loans => do
      let (k, input, loans) ← getKey input loans (some (idx * 2))
      let (v, input, loans) ← getEntry input loans (some (idx * 2 + 1))
      setMapData getKey getEntry defaults rest
        (setEntry (k.getD defaults.1) (v.getD defaults.2) output) input loans

def setStructData (setMember : String → Place → Loans → Value → Trace Failure Fault (Read Value)) :
    Nat → Nat → Value → DdsData → Loans → Trace Failure Fault (Read Value)
  | 0, _, _, _, _ => throw .outOfFuel
  | fuel + 1, i, output, input, loans =>
      match input.getMemberIdAtIndex i with
      | none => return (output, input, loans)
      | some id =>
          match input.getDescriptor (some id) with
          | none => do
              Trace.report .refused
              setStructData setMember fuel i output input loans
          | some (name, _) => do
              let (output, input, loans) ←
                setMember name (.member input (some id) false) loans output
              setStructData setMember fuel (i + 1) output input loans

def setUnionData (setMember : String → Place → Loans → Value → Trace Failure Fault (Read Value))
    (output : Value) (input : DdsData) (loans : Loans) : Trace Failure Fault (Read Value) :=
  match input.getDescriptor input.getUnionId with
  | none => do
      Trace.report .refused
      return (output, input, loans)
  | some (name, _) => setMember name (.member input input.getUnionId true) loans output

/-- What becomes of the outcome for a nested structure or union: a null pointer is looked for at a
member only. -/
def checked (p : Place) (loans : Loans) (r : Option (Read Value)) :
    Trace Failure Fault (Read (Option Value)) :=
  match r, p with
  | some (w, input, loans), _ => return (some w, input, loans)
  | none, .member _ _ _ => return (none, p.data, loans)
  | none, _ => throw .nullPointer

def setAggregation (fuel : Nat)
    (setMember : String → Place → Loans → Value → Trace Failure Fault (Read Value)) (p : Place)
    (loans : Loans) (kind : TypeKind) (output : Value) :
    Trace Failure Fault (Read (Option Value)) :=
  match branch p kind with
  | some .struct => do
      let r ← onNested p loans (setStructData setMember fuel 0 output)
      checked p loans r
  | some .union => do
      let r ← onNested p loans (setUnionData setMember output)
      checked p loans r
  | _ => do
      let r ← mismatched p output
      return (r, p.data, loans)

def setCollection (p : Place) (loans : Loans) (kind : TypeKind) (current : Value)
    (convert : DdsData → Loans → Trace Failure Fault (Read Value)) :
    Trace Failure Fault (Read (Option Value)) :=
  if branch p kind = some kind then do
    match ← onNested p loans convert with
    | some (w, input, loans) => return (some w, input, loans)
    | none => throw .nullPointer
  else do
    let r ← mismatched p current
    return (r, p.data, loans)

mutual

def decode (fuel : Nat) :
    DynamicType → Place → Loans → Value → Trace Failure Fault (Read (Option Value))
  | .leafType _ l, p, loans, current => do
      let r ← setLeaf l p current
      return (r, p.data, loans)
  | .bitsetType _, p, loans, current =>
      match p with
      | .member _ _ _ => do
          let r ← mismatched p current
          return (r, p.data, loans)
      | _ => do
          Trace.report .unsupported
          return (none, p.data, loans)
  | .aliasType _ t, p, loans, current => decode fuel t p loans current
  | .arrayType _ t _, p, loans, current =>
      match current with
      | .list output =>
          match p with
          | .arrayElement input indexes => do
              let (vs, input, loans) ← setArrayData
                (fun input loans indexes => decode fuel t (.arrayElement input indexes) loans
                  t.default) indexes output 0 input loans
              return (some (.list vs), input, loans)
          | p => setCollection p loans .array current fun input loans => do
              let (vs, input, loans) ← setArrayData
                (fun input loans indexes => decode fuel t (.arrayElement input indexes) loans
                  t.default) [] output 0 input loans
              return (.list vs, input, loans)
      | _ => throw .exception
  | .sequenceType _ t _, p, loans, current =>
      match current with
      | .list output =>
          setCollection p loans .sequence current fun input loans => do
            let (vs, input, loans) ← setSequenceData
              (fun input loans id => decode fuel t (.sequenceElement input id) loans t.default)
              (List.range input.getItemCount) output input loans
            return (.list vs, input, loans)
      | _ => throw .exception
  | .mapType _ k t _, p, loans, current =>
      match current with
      | .map output =>
          setCollection p loans .map current fun input loans => do
            let (es, input, loans) ← setMapData
              (fun input loans id => decode fuel k (.entry input id) loans k.default)
              (fun input loans id => decode fuel t (.entry input id) loans t.default)
              (k.default, t.default) (List.range input.getItemCount) output input loans
            return (.map es, input, loans)
      | _ => throw .exception
  | .structType n ms, p, loans, current =>
      setAggregation fuel (setMember fuel (.structType n ms) ms) p loans .struct current
  | .unionType n d ms cs, p, loans, current =>
      setAggregation fuel (setMember fuel (.unionType n d ms cs) ms) p loans .union current

def setMember (fuel : Nat) (t : DynamicType) :
    List (String × DynamicType) → String → Place → Loans → Value → Trace Failure Fault (Read Value)
  | [], _, _, _, _ => throw .exception
  | (m, mt) :: ms, name, p, loans, output =>
      if m = name then
        match output.field mt name with
        | some current => do
            let (w, input, loans) ← decode fuel mt p loans current
            match w with
            | some w => return (output.withField t name w, input, loans)
            | none => return (output, input, loans)
        | none => throw .exception
      else setMember fuel t ms name p loans output

end

theorem setMember_of_lookup {fuel : Nat} {t mt : DynamicType}
    {ms : List (String × DynamicType)} {m : String} (h : ms.lookup m = some mt) (p : Place)
    (loans : Loans) {output current : Value} (hcurrent : output.field mt m = some current) :
    setMember fuel t ms m p loans output = (do
      let (w, input, loans) ← decode fuel mt p loans current
      return (w.elim output (output.withField t m), input, loans)) := by
  induction ms with
  | nil => cases h
  | cons head ms ih =>
    obtain ⟨n, u⟩ := head
    rw [setMember]
    by_cases hn : n = m
    · rw [hn, List.lookup_cons_self] at h
      cases h
      rw [if_pos hn, hcurrent]
      dsimp only
      congr 1
      funext r
      obtain ⟨w, input, loans⟩ := r
      cases w <;> rfl
    · rw [if_neg hn]
      rw [lookup_cons_ne (Ne.symm hn)] at h
      exact ih h

end Traced

end FastddsToXtypes

/-! ## Conversions of one object -/

/-- `xtypes_to_fastdds` on an object: the flag, the object, and what is on loan. -/
def xtypesToFastddsTraced (refusals : Refusals) (t : DynamicType) (input : Value)
    (output : DdsData) (loans : Loans) : Trace Failure Fault (Bool × DdsData × Loans) :=
  match t.resolve with
  | .structType _ _ | .unionType _ _ _ _ => do
      let (output, loans) ← XtypesToFastdds.Traced.encode refusals t input (.whole output) loans
      return (true, output, loans)
  | _ => return (false, output, loans)

/-- `fastdds_to_xtypes` on an object: the flag, the output, the object, and what is on loan. -/
def fastddsToXtypesTraced (fuel : Nat) (input : DdsData) (loans : Loans) (t : DynamicType)
    (output : Value) : Trace Failure Fault ((Bool × Value) × DdsData × Loans) :=
  match t.resolve with
  | .structType _ _ | .unionType _ _ _ _ => do
      let (r, input, loans) ← FastddsToXtypes.Traced.decode fuel t (.whole input) loans output
      return ((true, r.getD output), input, loans)
  | _ => return ((false, output), input, loans)

/-- A conversion of a value of one type into an object, or of the object into a value, whose loops
are followed for `fuel` turns. -/
inductive Use where
  | toFastdds (input : Value)
  | toXtypes (fuel : Nat) (output : Value)
  deriving Repr

/-- The object and what is on loan after a conversion, of which the library refuses nothing. -/
def Use.perform (t : DynamicType) (object : DdsData × Loans) :
    Use → Trace Failure Fault (DdsData × Loans)
  | toFastdds input => do
      let (_, object) ← xtypesToFastddsTraced .none t input object.1 object.2
      return object
  | toXtypes fuel output => do
      let (_, object) ← fastddsToXtypesTraced fuel object.1 object.2 t output
      return object

def performAll (t : DynamicType) :
    List Use → DdsData × Loans → Trace Failure Fault (DdsData × Loans)
  | [], object => return object
  | use :: uses, object => do
      let object ← use.perform t object
      performAll t uses object

end FastDdsSh
