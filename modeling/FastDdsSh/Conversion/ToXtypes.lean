import FastDdsSh.Conversion.Leaves

/-!
# From DDS data to xtypes data

`fastdds_to_xtypes` and the functions `set_..._data` it goes through.  For a member the branch is
taken by the kind of the DDS member, for an element or an entry of a map by the kind of the xtypes
type.  A component is converted together with the content that is there before; `none` is the
outcome of a branch that writes nothing.
-/

namespace FastDdsSh

variable [Xtypes] [Dds]

namespace FastddsToXtypes

/-! ## One component -/

def read (data : DdsData) (accessor : Accessor) (id : MemberId) : CppValue :=
  (data.getValue accessor id).getD (Dds.indeterminate accessor.cppType)

def store (l : LeafType) (T : CppType) (x : CppValue) : Except Fault (Option Value) :=
  match l.storedAs T x with
  | some content => .ok (some (.leaf content))
  | none => .error .exception

def setLeaf (l : LeafType) (p : Place) (current : Value) : Except Fault (Option Value) :=
  match p with
  | .member input id inUnion =>
      -- the branch is that of the DDS kind
      match input.memberDescriptor id with
      | some (_, .leaf d) =>
          match l.writtenAs d inUnion with
          | some T => store l T (read input d.getter id)
          -- the switch has no case for the xtypes kind, and the member stays as it is
          | none => .ok (some current)
      | _ => .error .exception
  | p => store l l.getter.cppType (read p.data l.getter p.id)

def branch (p : Place) (kind : TypeKind) : Option TypeKind :=
  match p with
  -- members go by their descriptor, the rest by the xtypes type
  | .member input id _ => (input.memberDescriptor id).map fun m => m.2.kind
  | _ => some kind

/-- The outcome for a member whose DDS kind is not one for its xtypes type.  Only the switch of
`TK_BYTE` in a structure looks at the type and leaves the member as it is. -/
def mismatched (p : Place) (current : Value) : Except Fault (Option Value) :=
  match p with
  | .member input id false =>
      match input.memberDescriptor id with
      | some (_, .leaf (.primitive .byte)) => .ok (some current)
      | _ => .error .exception
  | _ => .error .exception

def nestedData (p : Place) : Option DdsData :=
  match p with
  | .whole input | .key input => some input
  | p => p.data.loanValue p.id

/-! ## The loops -/

def setArrayData (getElement : List Nat → Except Fault (Option Value)) (indexes : List Nat) :
    List Value → Nat → Except Fault (List Value)
  | [], _ => .ok []
  | v :: output, idx => do
      -- an element that is not written keeps its value
      let w ← getElement (indexes ++ [idx])
      let rest ← setArrayData getElement indexes output (idx + 1)
      .ok (w.getD v :: rest)

def setSequenceData (getElement : MemberId → Except Fault (Option Value)) :
    List Nat → List Value → Except Fault (List Value)
  | [], output => .ok output
  | idx :: rest, output => do
      let w ← getElement (some idx)
      -- an element that is not written is not pushed either
      setSequenceData getElement rest (output ++ w.toList)

def setEntry (key value : Value) : List (Value × Value) → List (Value × Value)
  | [] => [(key, value)]
  | (k, v) :: es => if k = key then (k, value) :: es else (k, v) :: setEntry key value es

/-- The loop of `set_map_data` over the given indexes; `defaults` are a fresh key and a fresh value.
-/
def setMapData (getKey getEntry : MemberId → Except Fault (Option Value))
    (defaults : Value × Value) :
    List Nat → List (Value × Value) → Except Fault (List (Value × Value))
  | [], output => .ok output
  | idx :: rest, output => do
      -- keys and values take turns among the ids
      let k ← getKey (some (idx * 2))
      let v ← getEntry (some (idx * 2 + 1))
      setMapData getKey getEntry defaults rest
        (setEntry (k.getD defaults.1) (v.getD defaults.2) output)

/-- The loop of `set_struct_data`, from the member with index `i` on and for at most `fuel` turns.
When there is no descriptor the same index is tried again. -/
def setStructData (setMember : String → Place → Value → Except Fault Value) (input : DdsData) :
    Nat → Nat → Value → Except Fault Value
  | 0, _, _ => .error .outOfFuel
  | fuel + 1, i, output =>
      match input.getMemberIdAtIndex i with
      -- `MEMBER_ID_INVALID` ends the loop
      | none => .ok output
      | some id =>
          match input.getDescriptor (some id) with
          -- `continue` without the increment
          | none => setStructData setMember input fuel i output
          | some (name, _) => do
              let output ← setMember name (.member input (some id) false) output
              setStructData setMember input fuel (i + 1) output

/-- `set_union_data`: the discriminator is left to `operator[]`. -/
def setUnionData (setMember : String → Place → Value → Except Fault Value) (input : DdsData)
    (output : Value) : Except Fault Value :=
  match input.getDescriptor input.getUnionId with
  -- no member is active
  | none => .ok output
  | some (name, _) => setMember name (.member input input.getUnionId true) output

/-- A structure or a union.  A null loan of a member is passed over, other loans are not checked. -/
def setAggregation (fuel : Nat) (setMember : String → Place → Value → Except Fault Value)
    (p : Place) (kind : TypeKind) (output : Value) : Except Fault (Option Value) :=
  match branch p kind, nestedData p, p with
  | some .struct, some input, _ => (setStructData setMember input fuel 0 output).map some
  | some .union, some input, _ => (setUnionData setMember input output).map some
  | some .struct, none, .member _ _ _ | some .union, none, .member _ _ _ => .ok none
  | some .struct, none, _ | some .union, none, _ => .error .nullPointer
  | _, _, _ => mismatched p output

def setCollection (p : Place) (kind : TypeKind) (current : Value)
    (convert : DdsData → Except Fault Value) : Except Fault (Option Value) :=
  if branch p kind = some kind then
    match nestedData p with
    | some input => (convert input).map some
    | none => .error .nullPointer
  else mismatched p current

/-! ## All components -/

mutual

def decode (fuel : Nat) : DynamicType → Place → Value → Except Fault (Option Value)
  | .leafType _ l, p, current => setLeaf l p current
  | .bitsetType _, p, current =>
      match p with
      | .member _ _ _ => mismatched p current
      | _ => .ok none
  | .aliasType _ t, p, current => decode fuel t p current
  | .arrayType _ t _, p, current =>
      match current with
      | .list output =>
          match p with
          | .arrayElement input indexes => do
              let vs ← setArrayData (fun indexes => decode fuel t (.arrayElement input indexes)
                t.default) indexes output 0
              .ok (some (.list vs))
          | p => setCollection p .array current fun input => do
              let vs ← setArrayData (fun indexes => decode fuel t (.arrayElement input indexes)
                t.default) [] output 0
              .ok (.list vs)
      | _ => .error .exception
  | .sequenceType _ t _, p, current =>
      match current with
      | .list output =>
          setCollection p .sequence current fun input => do
            let vs ← setSequenceData (fun id => decode fuel t (.sequenceElement input id) t.default)
              (List.range input.getItemCount) output
            .ok (.list vs)
      | _ => .error .exception
  | .mapType _ k t _, p, current =>
      match current with
      | .map output =>
          setCollection p .map current fun input => do
            let es ← setMapData (fun id => decode fuel k (.entry input id) k.default)
              (fun id => decode fuel t (.entry input id) t.default) (k.default, t.default)
              (List.range input.getItemCount) output
            .ok (.map es)
      | _ => .error .exception
  | .structType n ms, p, current =>
      setAggregation fuel (setMember fuel (.structType n ms) ms) p .struct current
  | .unionType n d ms cs, p, current =>
      setAggregation fuel (setMember fuel (.unionType n d ms cs) ms) p .union current

/-- `output[name]` receives what is at the place; `ms` are members of `output`, which is of type
`t`. -/
def setMember (fuel : Nat) (t : DynamicType) :
    List (String × DynamicType) → String → Place → Value → Except Fault Value
  | [], _, _, _ => .error .exception
  | (m, mt) :: ms, name, p, output =>
      if m = name then
        match output.field mt name with
        | some current => do
            match ← decode fuel mt p current with
            | some w => .ok (output.withField t name w)
            -- the branch has written nothing
            | none => .ok output
        | none => .error .exception
      else setMember fuel t ms name p output

end

end FastddsToXtypes

/-- `fastdds_to_xtypes`: the flag it returns and the output; loops are followed for `fuel` turns. -/
def fastddsToXtypes (fuel : Nat) (input : DdsData) (t : DynamicType) (output : Value) :
    Except Fault (Bool × Value) :=
  match t.resolve with
  | .structType _ _ | .unionType _ _ _ _ => do
      let result ← FastddsToXtypes.decode fuel t (.whole input) output
      .ok (true, result.getD output)
  | _ => .ok (false, output)

theorem fastddsToXtypes_of_isAggregation {t : DynamicType} (h : t.resolve.isAggregation = true)
    (fuel : Nat) (input : DdsData) (output : Value) :
    fastddsToXtypes fuel input t output =
      (FastddsToXtypes.decode fuel t (.whole input) output >>= fun r =>
        .ok (true, r.getD output)) := by
  unfold fastddsToXtypes
  cases ht : t.resolve with
  | structType | unionType => rfl
  | leafType | bitsetType | aliasType | arrayType | sequenceType | mapType =>
    rw [ht] at h
    cases h

theorem fastddsToXtypes_of_not_isAggregation {t : DynamicType}
    (h : t.resolve.isAggregation = false) (fuel : Nat) (input : DdsData) (output : Value) :
    fastddsToXtypes fuel input t output = .ok (false, output) := by
  unfold fastddsToXtypes
  cases ht : t.resolve with
  | structType | unionType =>
    rw [ht] at h
    cases h
  | leafType | bitsetType | aliasType | arrayType | sequenceType | mapType => rfl

end FastDdsSh
