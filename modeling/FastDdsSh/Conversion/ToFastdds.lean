import FastDdsSh.Conversion.Leaves

/-!
# From xtypes data to DDS data

`xtypes_to_fastdds` and the functions `set_..._data` it goes through.  They are mutually recursive
over the type; each loop is here a function of what it does with one element, and `encode` is the
switch over the kind of that element.
-/

namespace FastDdsSh

variable [Xtypes] [Dds]

namespace XtypesToFastdds

/-! ## One component -/

/-- A leaf: `set_primitive_data` and the corresponding branches at the other positions.  The result
code of the setter is not looked at. -/
def setLeaf (l : LeafType) (v : Value) (p : Place) : Except Fault DdsData :=
  match v with
  | .leaf content =>
      match l.valueAs (l.readAs p.position) content with
      | some x => .ok ((p.data.setValue (l.setter p.position) x p.id).getD p.data)
      | none => .error .exception
  | _ => .error .exception

/-- A nested component: converted into the data itself, into the component on loan, or into new data
that then replaces the component. -/
def setNested (p : Place) (builder : Option DdsType) (convert : DdsData → Except Fault DdsData) :
    Except Fault DdsData :=
  match p with
  -- the root, an entry of a map that is built, or what is on loan already
  | .whole output => convert output
  | .member output id _ | .entry output id =>
      match output.loanValue id with
      | some loaned => do
          let loaned ← convert loaned
          .ok (output.returnLoanedValue id loaned)
      -- `loan_value` gives null for an id that is not there
      | none => .error .nullPointer
  -- new data for the component, which replaces the one that is there
  | .key output | .arrayElement output _ | .sequenceElement output _ =>
      match builder with
      | some type => do
          let created ← convert type.createData
          .ok (output.setComplexValue created p.id)
      | none => .error .nullPointer

/-! ## The loops -/

def setArrayData (setElement : Value → DdsData → List Nat → Except Fault DdsData)
    (indexes : List Nat) : List Value → Nat → DdsData → Except Fault DdsData
  | [], _, output => .ok output
  | v :: vs, idx, output => do
      let output ← setElement v output (indexes ++ [idx])
      setArrayData setElement indexes vs (idx + 1) output

def setSequenceData (setElement : Value → DdsData → MemberId → Except Fault DdsData) :
    List Value → DdsData → Except Fault DdsData
  | [], output => .ok output
  | v :: vs, output => do
      -- the new element is at the end, and is written through its id
      let inserted := output.insertSequenceData
      let output ← setElement v inserted.1 inserted.2
      setSequenceData setElement vs output

def setMapData (setKey setEntry : Value → DdsData → Except Fault DdsData)
    (keyBuilder valueBuilder : Option DdsType) :
    List (Value × Value) → DdsData → Except Fault DdsData
  | [], output => .ok output
  | (k, v) :: es, output =>
      match keyBuilder with
      | none => .error .nullPointer
      | some key => do
          let keyData ← setKey k key.createData
          match valueBuilder with
          | none => .error .nullPointer
          | some value => do
              let valueData ← setEntry v value.createData
              setMapData setKey setEntry keyBuilder valueBuilder es
                -- a key that is there already is refused, and the entry is lost
                (output.insertMapData keyData valueData)

def setDiscriminator (discriminator : DynamicType) (d : Int) (output : DdsData) : DdsData :=
  match discriminator.resolve with
  | .leafType _ l =>
      -- the cases of the switch are the integral kinds
      if l.cppType.bounds.isSome then output.setDiscriminatorValue (d % 2 ^ 64).toNat else output
  | _ => output

/-! ## All components -/

mutual

/-- The switch over the kind of a component, with what is done for each kind.  For a type without a
branch there is an error message and nothing is written. -/
def encode : DynamicType → Value → Place → Except Fault DdsData
  | .leafType _ l, v, p => setLeaf l v p
  -- no branch: an error message
  | .bitsetType _, _, p => .ok p.data
  | .aliasType _ t, v, p => encode t v p
  | .arrayType n t d, v, p =>
      match v with
      | .list vs =>
          match p with
          | .arrayElement output indexes =>
              -- an array in an array has no data of its own
              setArrayData (fun v output indexes => encode t v (.arrayElement output indexes))
                indexes vs 0 output
          | p =>
              setNested p (DynamicType.arrayType n t d).getBuilder fun output =>
                setArrayData (fun v output indexes => encode t v (.arrayElement output indexes))
                  [] vs 0 output
      | _ => .error .exception
  | .sequenceType n t b, v, p =>
      match v with
      | .list vs =>
          setNested p (DynamicType.sequenceType n t b).getBuilder fun output =>
            setSequenceData (fun v output id => encode t v (.sequenceElement output id)) vs
              -- what was there before is removed
              output.clearAllValues
      | _ => .error .exception
  | .mapType n k t b, v, p =>
      match v with
      | .map es =>
          setNested p (DynamicType.mapType n k t b).getBuilder fun output =>
            setMapData (fun v output => encode k v (.key output))
              (fun v output => encode t v (.whole output)) k.getBuilder t.getBuilder es
              output.clearAllValues
      | _ => .error .exception
  | .structType n ms, v, p =>
      setNested p (DynamicType.structType n ms).getBuilder fun output => setStructData ms v output
  | .unionType n d ms cs, v, p =>
      match v with
      | .union x c w =>
          setNested p (DynamicType.unionType n d ms cs).getBuilder fun output =>
            setUnionData ms c w (setDiscriminator d x output)
      | _ => .error .exception

def setStructData : List (String × DynamicType) → Value → DdsData → Except Fault DdsData
  | [], _, output => .ok output
  | (m, t) :: ms, v, output =>
      match v.field t m with
      | some w => do
          -- an unknown name is looked up as an invalid id
          let output ← encode t w (.member output (output.getMemberIdByName m) false)
          setStructData ms v output
      | none => .error .exception

def setUnionData : List (String × DynamicType) → String → Value → DdsData → Except Fault DdsData
  | [], _, _, _ => .error .exception
  | (m, t) :: ms, c, w, output =>
      if m = c then encode t w (.member output (output.getMemberIdByName c) true)
      else setUnionData ms c w output

end

end XtypesToFastdds

/-- `xtypes_to_fastdds`: the flag it returns and the output. -/
def xtypesToFastdds (t : DynamicType) (input : Value) (output : DdsData) :
    Except Fault (Bool × DdsData) :=
  match t.resolve with
  | .structType _ _ | .unionType _ _ _ _ => do
      let output ← XtypesToFastdds.encode t input (.whole output)
      .ok (true, output)
  | _ => .ok (false, output)

theorem xtypesToFastdds_of_isAggregation {t : DynamicType} (h : t.resolve.isAggregation = true)
    (v : Value) (output : DdsData) :
    xtypesToFastdds t v output =
      (XtypesToFastdds.encode t v (.whole output) >>= fun r => .ok (true, r)) := by
  unfold xtypesToFastdds
  cases ht : t.resolve with
  | structType | unionType => rfl
  | leafType | bitsetType | aliasType | arrayType | sequenceType | mapType =>
    rw [ht] at h
    cases h

theorem xtypesToFastdds_of_not_isAggregation {t : DynamicType} (h : t.resolve.isAggregation = false)
    (v : Value) (output : DdsData) : xtypesToFastdds t v output = .ok (false, output) := by
  unfold xtypesToFastdds
  cases ht : t.resolve with
  | structType | unionType =>
    rw [ht] at h
    cases h
  | leafType | bitsetType | aliasType | arrayType | sequenceType | mapType => rfl

end FastDdsSh
