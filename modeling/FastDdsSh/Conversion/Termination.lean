import FastDdsSh.Conversion.Aggregations
import FastDdsSh.Conversion.Collections

/-!
# How long the decoding takes

The loop of `set_struct_data` goes on to the next member only when `get_descriptor` succeeds.
Decoding ends for every type and every output if there is a descriptor for every member of the
structures and unions of the data, and only then: where one is missing, some type leads to it.
-/

namespace FastDdsSh

/-! ## The data within data -/

namespace DdsData

inductive Within : DdsData → DdsData → Prop
  | refl (d : DdsData) : Within d d
  | component {d c e : DdsData} : c ∈ d.components → Within c e → Within d e

theorem Within.trans {d c e : DdsData} (h : Within d c) (h' : Within c e) : Within d e := by
  induction h with
  | refl d => exact h'
  | component hc _ ih => exact .component hc (ih h')

theorem within_of_loanValue {d c : DdsData} {id : MemberId} (h : d.loanValue id = some c) :
    Within d c := by
  unfold loanValue at h
  cases id with
  | none => cases h
  | some i =>
    rw [if_neg (Option.some_ne_none i)] at h
    exact .component (List.mem_of_getElem? h) (.refl c)

theorem within_of_holds {d c : DdsData} {id : MemberId} {inUnion : Bool} {T : DdsType}
    (h : (Place.member d id inUnion).Holds T c) : Within d c :=
  within_of_loanValue (loanValue_of_component h.1 h.2.1)

theorem getMemberIdAtIndex_eq_some_iff {d : DdsData} {i id : Nat} :
    d.getMemberIdAtIndex i = some id ↔ i < d.type.members.length ∧ i = id := by
  unfold getMemberIdAtIndex
  split
  · rename_i h
    rw [Option.some.injEq, and_iff_right h]
  · rename_i h
    simp [h]

/-- The names of the members are distinct, as `add_member` sees to, and there is a component for
each of them, also in the data within.  Nothing is asked of the components' types, so getters may
fail. -/
def IsComplete (d : DdsData) : Prop :=
  ∀ c, d.Within c →
    (c.type.members.map Prod.fst).Nodup ∧ c.type.members.length ≤ c.components.length

/-- `get_descriptor` succeeds for every id that `get_member_id_at_index` returns, also on the data
within. -/
def IsDescribed [Dds] (d : DdsData) : Prop :=
  ∀ c, d.Within c → ∀ i id, c.getMemberIdAtIndex i = some id →
    (c.getDescriptor (some id)).isSome = true

mutual

def turns : DdsData → Nat
  | leaf _ _ => 1
  | composite t cs | union t _ _ cs => max (t.members.length + 1) (turnsAll cs)

def turnsAll : List DdsData → Nat
  | [] => 0
  | c :: cs => max c.turns (turnsAll cs)

end

theorem turns_le_of_mem {cs : List DdsData} {c : DdsData} (h : c ∈ cs) :
    c.turns ≤ turnsAll cs := by
  induction cs with
  | nil => cases h
  | cons d cs ih =>
    rw [turnsAll]
    rcases List.mem_cons.mp h with rfl | h
    · exact le_max_left _ _
    · exact le_trans (ih h) (le_max_right _ _)

theorem turnsAll_components_le (d : DdsData) : turnsAll d.components ≤ d.turns := by
  cases d with
  | leaf l v => exact Nat.zero_le _
  | composite t cs => exact le_max_right _ _
  | union t n a cs => exact le_max_right _ _

theorem length_members_lt_turns (d : DdsData) : d.type.members.length < d.turns := by
  cases d with
  | leaf l v => exact Nat.zero_lt_one
  | composite t cs => exact lt_of_lt_of_le (Nat.lt_succ_self _) (le_max_left _ _)
  | union t n a cs => exact lt_of_lt_of_le (Nat.lt_succ_self _) (le_max_left _ _)

theorem Within.turns_le {d c : DdsData} (h : Within d c) : c.turns ≤ d.turns := by
  induction h with
  | refl d => exact le_refl _
  | @component d c e hc _ ih =>
    exact le_trans ih (le_trans (turns_le_of_mem hc) (turnsAll_components_le d))

end DdsData

namespace FastddsToXtypes

open Except

/-! ## The loops raise what their parts raise -/

variable {E : Fault → Prop}

theorem setArrayData_raisesOnly {getElement : List Nat → Except Fault (Option Value)}
    (h : ∀ indexes, RaisesOnly E (getElement indexes)) (indexes : List Nat) (output : List Value)
    (idx : Nat) : RaisesOnly E (setArrayData getElement indexes output idx) := by
  induction output generalizing idx with
  | nil => exact .ok _
  | cons v output ih =>
    rw [setArrayData]
    exact (h _).bind fun _ _ => (ih _).bind fun _ _ => .ok _

theorem setSequenceData_raisesOnly {getElement : MemberId → Except Fault (Option Value)}
    (h : ∀ id, RaisesOnly E (getElement id)) (idxs : List Nat) (output : List Value) :
    RaisesOnly E (setSequenceData getElement idxs output) := by
  induction idxs generalizing output with
  | nil => exact .ok _
  | cons idx idxs ih =>
    rw [setSequenceData]
    exact (h _).bind fun _ _ => ih _

theorem setMapData_raisesOnly {getKey getEntry : MemberId → Except Fault (Option Value)}
    (hkey : ∀ id, RaisesOnly E (getKey id)) (hentry : ∀ id, RaisesOnly E (getEntry id))
    (defaults : Value × Value) (idxs : List Nat) (output : List (Value × Value)) :
    RaisesOnly E (setMapData getKey getEntry defaults idxs output) := by
  induction idxs generalizing output with
  | nil => exact .ok _
  | cons idx idxs ih =>
    rw [setMapData]
    exact (hkey _).bind fun _ _ => (hentry _).bind fun _ _ => ih _

theorem mismatched_raisesOnly (hexception : E .exception) (p : Place) (current : Value) :
    RaisesOnly E (mismatched p current) := by
  unfold mismatched
  split
  · split
    · exact .ok _
    · exact .error hexception
  · exact .error hexception

theorem within_of_nestedData {p : Place} {c : DdsData} (h : nestedData p = some c) :
    p.data.Within c := by
  unfold nestedData at h
  split at h
  · cases h
    exact .refl c
  · cases h
    exact .refl c
  · exact DdsData.within_of_loanValue h

theorem setCollection_raisesOnly (hexception : E .exception) (hnull : E .nullPointer) {p : Place}
    (kind : TypeKind) (current : Value) {convert : DdsData → Except Fault Value}
    (h : ∀ c, nestedData p = some c → RaisesOnly E (convert c)) :
    RaisesOnly E (setCollection p kind current convert) := by
  unfold setCollection
  split
  · split
    · exact (h _ ‹_›).map _
    · exact .error hnull
  · exact mismatched_raisesOnly hexception _ _

variable [Dds]

/-- The structure loop, with a descriptor for every member and a turn for each of them. -/
theorem setStructData_raisesOnly {setMember : String → Place → Value → Except Fault Value}
    {input : DdsData}
    (hmember : ∀ name id output, RaisesOnly E (setMember name (.member input id false) output))
    (hdescribed : ∀ i id, input.getMemberIdAtIndex i = some id →
      (input.getDescriptor (some id)).isSome = true) {fuel i : Nat}
    (hfuel : input.type.members.length < fuel + i) (hi : i ≤ input.type.members.length)
    (output : Value) : RaisesOnly E (setStructData setMember input fuel i output) := by
  -- on the fuel, of which each turn takes one and gets one member on
  induction fuel generalizing i output with
  | zero => omega
  | succ fuel ih =>
    rw [setStructData]
    cases hid : input.getMemberIdAtIndex i with
    | none => exact .ok _
    | some id =>
      obtain ⟨m, hm⟩ := Option.isSome_iff_exists.mp (hdescribed i id hid)
      have hlt := (DdsData.getMemberIdAtIndex_eq_some_iff.mp hid).1
      dsimp only
      rw [hm]
      exact (hmember _ _ _).bind fun output _ => ih (by omega) hlt output

theorem setAggregation_raisesOnly (hexception : E .exception) (hnull : E .nullPointer)
    {fuel : Nat} {setMember : String → Place → Value → Except Fault Value} {p : Place}
    (hmember : ∀ c, nestedData p = some c → ∀ name id inUnion output,
      RaisesOnly E (setMember name (.member c id inUnion) output))
    (hdescribed : p.data.IsDescribed) (hfuel : p.data.turns ≤ fuel) (kind : TypeKind)
    (output : Value) : RaisesOnly E (setAggregation fuel setMember p kind output) := by
  unfold setAggregation
  split
  · rename_i input _ hnested
    have hwithin := within_of_nestedData hnested
    -- the fuel is more than the members of any data within
    have hlt := lt_of_lt_of_le input.length_members_lt_turns (le_trans hwithin.turns_le hfuel)
    exact (setStructData_raisesOnly (fun name id => hmember input hnested name id false)
      (hdescribed input hwithin) hlt (Nat.zero_le _) output).map _
  · rename_i input _ hnested
    refine RaisesOnly.map ?_ _
    unfold setUnionData
    split
    · exact .ok _
    · exact hmember input hnested _ _ true output
  · exact .ok _
  · exact .ok _
  · exact .error hnull
  · exact .error hnull
  · exact mismatched_raisesOnly hexception _ _

variable [Xtypes]

theorem setMember_raisesOnly {fuel : Nat} {t : DynamicType} {ms : List (String × DynamicType)}
    {p : Place} (hexception : E .exception)
    (h : ∀ m ∈ ms, ∀ current, RaisesOnly E (decode fuel m.2 p current)) (name : String)
    (output : Value) : RaisesOnly E (setMember fuel t ms name p output) := by
  induction ms with
  | nil => exact .error hexception
  | cons head ms ih =>
    rw [setMember]
    by_cases hname : head.1 = name
    · rw [if_pos hname]
      cases output.field head.2 name with
      | none => exact .error hexception
      | some current =>
        refine (h head List.mem_cons_self current).bind fun r _ => ?_
        cases r with
        | none => exact .ok _
        | some w => exact .ok _
    · rw [if_neg hname]
      exact ih fun m hm => h m (List.mem_cons_of_mem _ hm)

theorem setLeaf_raisesOnly (hexception : E .exception) (l : LeafType) (p : Place)
    (current : Value) : RaisesOnly E (setLeaf l p current) := by
  have hstore : ∀ T x, RaisesOnly E (store l T x) := by
    intro T x
    unfold store
    split
    · exact .ok _
    · exact .error hexception
  unfold setLeaf
  split
  · split
    · split
      · exact hstore _ _
      · exact .ok _
    · exact .error hexception
  · exact hstore _ _

/-- No loop goes on for longer than the data is large, whatever the type and the output are. -/
theorem decode_raisesOnly {fuel : Nat} (hexception : E .exception) (hnull : E .nullPointer)
    (t : DynamicType) {p : Place} (hdescribed : p.data.IsDescribed) (hfuel : p.data.turns ≤ fuel)
    (current : Value) : RaisesOnly E (decode fuel t p current) := by
  -- what is converted next lies within what is converted now
  have hin : ∀ {p : Place} {c : DdsData}, p.data.IsDescribed → p.data.turns ≤ fuel →
      nestedData p = some c → c.IsDescribed ∧ c.turns ≤ fuel := by
    intro p c hdescribed hfuel hc
    have hwithin := within_of_nestedData hc
    exact ⟨fun e he => hdescribed e (hwithin.trans he), le_trans hwithin.turns_le hfuel⟩
  -- on the type; only `set_struct_data` takes fuel
  induction t using DynamicType.inductionOn generalizing p current with
  | leafType n l =>
    rw [decode]
    exact setLeaf_raisesOnly hexception l p current
  | bitsetType n =>
    unfold decode
    split
    · exact mismatched_raisesOnly hexception _ _
    · exact .ok _
  | aliasType n t ih =>
    rw [decode]
    exact ih hdescribed hfuel current
  | arrayType n t d ih =>
    unfold decode
    split
    · split
      · rename_i input _
        exact (setArrayData_raisesOnly
          (fun is => ih (p := .arrayElement input is) hdescribed hfuel _) _ _ _).bind fun _ _ =>
            .ok _
      · refine setCollection_raisesOnly hexception hnull _ _ fun c hc => ?_
        obtain ⟨hcdescribed, hcfuel⟩ := hin hdescribed hfuel hc
        exact (setArrayData_raisesOnly
          (fun is => ih (p := .arrayElement c is) hcdescribed hcfuel _) _ _ _).bind fun _ _ => .ok _
    · exact .error hexception
  | sequenceType n t b ih =>
    unfold decode
    split
    · refine setCollection_raisesOnly hexception hnull _ _ fun c hc => ?_
      obtain ⟨hcdescribed, hcfuel⟩ := hin hdescribed hfuel hc
      exact (setSequenceData_raisesOnly
        (fun id => ih (p := .sequenceElement c id) hcdescribed hcfuel _) _ _).bind fun _ _ => .ok _
    · exact .error hexception
  | mapType n k t b ihk iht =>
    unfold decode
    split
    · refine setCollection_raisesOnly hexception hnull _ _ fun c hc => ?_
      obtain ⟨hcdescribed, hcfuel⟩ := hin hdescribed hfuel hc
      exact (setMapData_raisesOnly (fun id => ihk (p := .entry c id) hcdescribed hcfuel _)
        (fun id => iht (p := .entry c id) hcdescribed hcfuel _) _ _ _).bind fun _ _ => .ok _
    · exact .error hexception
  | structType n ms ih =>
    rw [decode]
    refine setAggregation_raisesOnly hexception hnull (fun c hc name id inUnion output => ?_)
      hdescribed hfuel _ _
    obtain ⟨hcdescribed, hcfuel⟩ := hin hdescribed hfuel hc
    exact setMember_raisesOnly hexception
      (fun m hm current => ih m hm (p := .member c id inUnion) hcdescribed hcfuel current)
      name output
  | unionType n d ms cs ihd ih =>
    rw [decode]
    refine setAggregation_raisesOnly hexception hnull (fun c hc name id inUnion output => ?_)
      hdescribed hfuel _ _
    obtain ⟨hcdescribed, hcfuel⟩ := hin hdescribed hfuel hc
    exact setMember_raisesOnly hexception
      (fun m hm current => ih m hm (p := .member c id inUnion) hcdescribed hcfuel current)
      name output

/-! ## Types that lead to every member -/

end FastddsToXtypes

def DdsLeaf.reader : DdsLeaf → LeafType
  | .primitive .boolean => .boolean
  | .primitive .byte => .uint8
  | .primitive .int16 => .int16
  | .primitive .uint16 => .uint16
  | .primitive .int32 => .int32
  | .primitive .uint32 => .uint32
  | .primitive .int64 => .int64
  | .primitive .uint64 => .uint64
  | .primitive .float32 => .float32
  | .primitive .float64 => .float64
  | .primitive .float128 => .float128
  | .primitive .char8 => .char8
  | .primitive .char16 => .wideChar
  | .string8 b => .string b
  | .string16 b => .wstring b
  | .enum _ es => .enumeration es

theorem DdsLeaf.writtenAs_reader (l : DdsLeaf) (inUnion : Bool) :
    l.reader.writtenAs l inUnion = some l.reader.cppType := by
  cases l with
  | primitive kind => cases kind <;> cases inUnion <;> rfl
  | string8 | string16 | enum => rfl

namespace DdsData

mutual

/-- A type that a component of a declared type can be read as; of collections nothing is read. -/
def reader (d : DdsData) (declared : DdsType) : DynamicType :=
  let members := match d with
    | leaf _ _ => []
    | composite t cs | union t _ _ cs => memberReaders t.members cs
  match declared with
  | .leaf l => .leafType "" l.reader
  | .array _ _ => .arrayType "" (.bitsetType "") 0
  | .sequence _ _ => .sequenceType "" (.bitsetType "") 0
  | .map _ _ _ => .mapType "" (.bitsetType "") (.bitsetType "") 0
  | .struct _ => .structType "" members
  | .union _ _ _ => .unionType "" (.bitsetType "") members []

def memberReaders : List (String × DdsType) → List DdsData → List (String × DynamicType)
  | m :: ms, c :: cs => (m.1, c.reader m.2) :: memberReaders ms cs
  | _, _ => []

end

def readers (d : DdsData) : List (String × DynamicType) :=
  memberReaders d.type.members d.components

theorem reader_struct (d : DdsData) (ms : List (String × DdsType)) :
    d.reader (.struct ms) = .structType "" d.readers := by
  cases d <;> rfl

theorem reader_union (d : DdsData) (u : DdsType) (ms : List (String × DdsType))
    (cs : List (List Nat × Bool)) :
    d.reader (.union u ms cs) = .unionType "" (.bitsetType "") d.readers [] := by
  cases d <;> rfl

theorem lookup_memberReaders {ms : List (String × DdsType)} {cs : List DdsData}
    (hnames : (ms.map Prod.fst).Nodup) {i : Nat} {name : String} {T : DdsType} {c : DdsData}
    (hm : ms[i]? = some (name, T)) (hc : cs[i]? = some c) :
    (memberReaders ms cs).lookup name = some (c.reader T) := by
  induction ms generalizing cs i with
  | nil => cases hm
  | cons head ms ih =>
    cases cs with
    | nil => cases hc
    | cons d cs =>
      rw [memberReaders]
      cases i with
      | zero =>
        cases hm
        cases hc
        exact List.lookup_cons_self
      | succ i =>
        rw [List.map_cons, List.nodup_cons] at hnames
        -- names are different, so the lookup comes to the member at this position
        have hne : name ≠ head.1 := by
          rintro rfl
          exact hnames.1 (List.mem_map.mpr ⟨_, List.mem_of_getElem? hm, rfl⟩)
        rw [List.lookup_cons, beq_false_of_ne hne]
        exact ih hnames.2 hm hc

theorem lookup_readers {d : DdsData} (hnames : (d.type.members.map Prod.fst).Nodup) {i : Nat}
    {name : String} {T : DdsType} {c : DdsData} (hm : d.type.members[i]? = some (name, T))
    (hc : d.components[i]? = some c) : d.readers.lookup name = some (c.reader T) :=
  lookup_memberReaders hnames hm hc

theorem name_ne_of_lt {ms : List (String × DdsType)} (hnames : (ms.map Prod.fst).Nodup)
    {i j : Nat} (hij : i < j) {m m' : String × DdsType} (hm : ms[i]? = some m)
    (hm' : ms[j]? = some m') : m'.1 ≠ m.1 := by
  intro heq
  have hi : (ms.map Prod.fst)[i]? = some m.1 := by rw [List.getElem?_map, hm]; rfl
  have hj : (ms.map Prod.fst)[j]? = some m.1 := by rw [List.getElem?_map, hm', ← heq]; rfl
  have hlt := (List.getElem?_eq_some_iff.mp hi).1
  have heq := (List.getElem?_inj hlt hnames).mp (hi.trans hj.symm)
  omega

theorem memberDescriptor_of_getDescriptor [Dds] {d : DdsData} {id : MemberId}
    {m : String × DdsType} (h : d.getDescriptor id = some m) : d.memberDescriptor id = some m := by
  unfold getDescriptor at h
  split at h
  · exact h
  · cases h

end DdsData

namespace FastddsToXtypes

open Except

/-- The structure loop returns only after it had a descriptor for every member. -/
theorem descriptor_of_setStructData [Dds]
    {setMember : String → Place → Value → Except Fault Value} {input : DdsData} {fuel i : Nat}
    {output r : Value} (h : setStructData setMember input fuel i output = .ok r) {j id : Nat}
    (hij : i ≤ j) (hid : input.getMemberIdAtIndex j = some id) :
    (input.getDescriptor (some id)).isSome = true := by
  induction fuel generalizing i output with
  | zero => cases h
  | succ fuel ih =>
    rw [setStructData] at h
    cases hfirst : input.getMemberIdAtIndex i with
    | none =>
      have hlt := (DdsData.getMemberIdAtIndex_eq_some_iff.mp hid).1
      have hi : input.getMemberIdAtIndex i = some i :=
        DdsData.getMemberIdAtIndex_eq_some_iff.mpr ⟨by omega, rfl⟩
      rw [hi] at hfirst
      cases hfirst
    | some first =>
      rw [hfirst] at h
      cases hdescriptor : input.getDescriptor (some first) with
      | none =>
        simp only [hdescriptor] at h
        -- without a descriptor the loop is at the same member in its next turn
        exact ih h hij
      | some m =>
        simp only [hdescriptor] at h
        obtain ⟨next, -, h⟩ := bind_eq_ok_iff.mp h
        rcases Nat.eq_or_lt_of_le hij with rfl | hlt
        · rw [hfirst] at hid
          cases hid
          rw [hdescriptor]
          rfl
        · exact ih h hlt

variable [Xtypes] [Dds]

/-- With readers for the members the structure loop either returns or stays at a member. -/
theorem setStructData_readers {fuel : Nat} {d : DdsData}
    (hnames : (d.type.members.map Prod.fst).Nodup)
    (hlength : d.type.members.length ≤ d.components.length)
    (hmember : ∀ {id inUnion T c}, (Place.member d id inUnion).Holds T c →
      RaisesOnly (· = .outOfFuel)
        (decode fuel (c.reader T) (.member d id inUnion) (c.reader T).default))
    {turns i : Nat} {fields : List (String × Value)}
    (hfields : ∀ j name T c, i ≤ j → d.type.members[j]? = some (name, T) →
      d.components[j]? = some c → fields.lookup name = some (c.reader T).default) :
    RaisesOnly (· = .outOfFuel)
      (setStructData (setMember fuel (.structType "" d.readers) d.readers) d turns i
        (.struct fields)) := by
  induction turns generalizing i fields with
  | zero => exact .error rfl
  | succ turns ih =>
    rw [setStructData]
    cases hid : d.getMemberIdAtIndex i with
    | none => exact .ok _
    | some id =>
      obtain ⟨hlt, rfl⟩ := DdsData.getMemberIdAtIndex_eq_some_iff.mp hid
      dsimp only
      cases hdescriptor : d.getDescriptor (some i) with
      -- `continue` without the increment: the loop stays here until the fuel is out
      | none => exact ih hfields
      | some m =>
        obtain ⟨name, T⟩ := m
        have hm := DdsData.memberDescriptor_of_getDescriptor hdescriptor
        obtain ⟨c, hc⟩ : ∃ c, d.components[i]? = some c :=
          ⟨_, List.getElem?_eq_getElem (lt_of_lt_of_le hlt hlength)⟩
        have hcurrent : (Value.struct fields).field (c.reader T) name = some (c.reader T).default :=
          hfields i name T c (le_refl i) hm hc
        -- what is written to this member does not touch the members after it
        have hrest : ∀ w j name' T' c', i + 1 ≤ j → d.type.members[j]? = some (name', T') →
            d.components[j]? = some c' →
            (Value.setField fields name w).lookup name' = some (c'.reader T').default := by
          intro w j name' T' c' hj hm' hc'
          rw [Value.lookup_setField_ne _ _ (DdsData.name_ne_of_lt hnames hj hm hm')]
          exact hfields j name' T' c' (by omega) hm' hc'
        show RaisesOnly _ (setMember _ _ _ _ _ _ >>= _)
        rw [setMember_of_lookup (DdsData.lookup_readers hnames hm hc) _ hcurrent]
        have hplace : (Place.member d (some i) false).Holds T c :=
          ⟨Option.some_ne_none i, hc, name, hm⟩
        have hdecode := hmember hplace
        generalize decode fuel (c.reader T) _ _ = r at hdecode ⊢
        cases r with
        | error e => exact .error (hdecode e rfl)
        | ok w =>
          cases w with
          | none => exact ih fun j name' T' c' hj => hfields j name' T' c' (by omega)
          | some w => exact ih (hrest w)

/-- The active member of a union, read by its reader. -/
theorem setUnionData_readers {fuel : Nat} {d : DdsData}
    (hnames : (d.type.members.map Prod.fst).Nodup)
    (hlength : d.type.members.length ≤ d.components.length)
    (hmember : ∀ {id inUnion T c}, (Place.member d id inUnion).Holds T c →
      RaisesOnly (· = .outOfFuel)
        (decode fuel (c.reader T) (.member d id inUnion) (c.reader T).default))
    {t : DynamicType} (ht : t.members = d.readers) :
    RaisesOnly (· = .outOfFuel) (setUnionData (setMember fuel t d.readers) d t.default) := by
  unfold setUnionData
  split
  -- no case is active, and nothing is converted
  · exact .ok _
  · rename_i name T hdescriptor
    have hm := DdsData.memberDescriptor_of_getDescriptor hdescriptor
    obtain ⟨i, hi, hm⟩ := Option.bind_eq_some_iff.mp hm
    obtain ⟨c, hc⟩ : ∃ c, d.components[i]? = some c :=
      ⟨_, List.getElem?_eq_getElem
        (lt_of_lt_of_le (List.getElem?_eq_some_iff.mp hm).1 hlength)⟩
    have hlookup := DdsData.lookup_readers hnames hm hc
    have hcurrent : t.default.field (c.reader T) name = some (c.reader T).default := by
      apply DynamicType.field_default
      rw [DynamicType.member, ht, hlookup]
    rw [setMember_of_lookup hlookup _ hcurrent, hi]
    exact (hmember ⟨Option.some_ne_none i, hc, name, hm⟩).map _

/-- A member that is read by its reader is converted, or the conversion stays at a member within. -/
theorem decode_reader {fuel : Nat} {c : DdsData} (hcomplete : c.IsComplete) {d : DdsData}
    {id : MemberId} {inUnion : Bool} {T : DdsType} (hp : (Place.member d id inUnion).Holds T c) :
    RaisesOnly (· = .outOfFuel)
      (decode fuel (c.reader T) (.member d id inUnion) (c.reader T).default) := by
  -- on the data, whose components are converted by their own readers
  induction c using DdsData.inductionOn generalizing d id inUnion T with
  | data c ih =>
    obtain ⟨hnames, hlength⟩ := hcomplete c (.refl c)
    have hmember : ∀ {id inUnion T e}, (Place.member c id inUnion).Holds T e →
        RaisesOnly (· = .outOfFuel)
          (decode fuel (e.reader T) (.member c id inUnion) (e.reader T).default) := by
      intro id inUnion T e he
      obtain ⟨i, rfl⟩ := Option.ne_none_iff_exists'.mp he.1
      have hmem := List.mem_of_getElem? he.2.1
      exact ih e hmem (fun f hf => hcomplete f (.component hmem hf)) he
    -- the type of the component as it is declared, by which the reader is made
    cases T with
    | leaf l =>
      have hreader : c.reader (.leaf l) = .leafType "" l.reader := by cases c <;> rfl
      obtain ⟨-, -, name, hname⟩ := hp
      rw [hreader, decode, setLeaf, hname]
      dsimp only
      rw [DdsLeaf.writtenAs_reader]
      show RaisesOnly _ (store _ _ _)
      rw [store, LeafType.storedAs, if_pos (by simp [LeafType.accessibleAs])]
      exact .ok _
    | array e bounds =>
      have hreader : c.reader (.array e bounds) = .arrayType "" (.bitsetType "") 0 := by
        cases c <;> rfl
      rw [hreader]
      show RaisesOnly _ (setCollection _ (DdsType.array e bounds).kind _ _)
      rw [setCollection_of_holds hp]
      exact .ok _
    | sequence e b =>
      have hreader : c.reader (.sequence e b) = .sequenceType "" (.bitsetType "") 0 := by
        cases c <;> rfl
      rw [hreader]
      show RaisesOnly _ (setCollection _ (DdsType.sequence e b).kind _ _)
      rw [setCollection_of_holds hp]
      exact ((setSequenceData_raisesOnly (fun _ => .ok _) _ _).bind fun _ _ => .ok _).map _
    | map k t b =>
      have hreader : c.reader (.map k t b) =
          .mapType "" (.bitsetType "") (.bitsetType "") 0 := by
        cases c <;> rfl
      rw [hreader]
      show RaisesOnly _ (setCollection _ (DdsType.map k t b).kind _ _)
      rw [setCollection_of_holds hp]
      exact ((setMapData_raisesOnly (fun _ => .ok _) (fun _ => .ok _) _ _ _).bind
        fun _ _ => .ok _).map _
    | struct ms =>
      rw [DdsData.reader_struct, decode, setAggregation_structure hp rfl, DynamicType.default]
      refine RaisesOnly.map (setStructData_readers hnames hlength hmember ?_) _
      intro j name T e _ hm hc
      exact DynamicType.lookup_defaultMembers (DdsData.lookup_readers hnames hm hc)
    | union u ms cases =>
      rw [DdsData.reader_union, decode, setAggregation_union hp rfl]
      exact (setUnionData_readers hnames hlength hmember rfl).map _

end FastddsToXtypes

/-! ## When decoding ends -/

variable [Xtypes] [Dds]

def DecodingEnds (input : DdsData) : Prop :=
  ∀ t output, ∃ fuel, fastddsToXtypes fuel input t output ≠ .error .outOfFuel

/-- With a descriptor for every member decoding ends, whatever the getters return. -/
theorem decodingEnds_of_isDescribed {input : DdsData} (h : input.IsDescribed) :
    DecodingEnds input := by
  intro t output
  refine ⟨input.turns, fun hresult => ?_⟩
  have hends : Except.RaisesOnly (· ≠ .outOfFuel)
      (fastddsToXtypes input.turns input t output) := by
    cases ht : t.resolve.isAggregation with
    | true =>
      rw [fastddsToXtypes_of_isAggregation ht]
      have hdecode : Except.RaisesOnly (· ≠ .outOfFuel)
          (FastddsToXtypes.decode input.turns t (.whole input) output) := by
        apply FastddsToXtypes.decode_raisesOnly
        · show Fault.exception ≠ .outOfFuel
          decide
        · show Fault.nullPointer ≠ .outOfFuel
          decide
        · exact h
        · exact le_refl _
      exact hdecode.bind fun _ _ => .ok _
    | false =>
      rw [fastddsToXtypes_of_not_isAggregation ht]
      exact .ok _
  exact hends _ hresult rfl

/-- Where a descriptor is missing, decoding into a structure with all the members does not end. -/
theorem isSome_getDescriptor_of_decodingEnds {d : DdsData} (hcomplete : d.IsComplete)
    (h : DecodingEnds d) {i id : Nat} (hid : d.getMemberIdAtIndex i = some id) :
    (d.getDescriptor (some id)).isSome = true := by
  obtain ⟨fuel, hfuel⟩ :=
    h (.structType "" d.readers) (.struct (DynamicType.defaultMembers d.readers))
  obtain ⟨hnames, hlength⟩ := hcomplete d (.refl d)
  -- the conversion into this type has no other way not to end
  have hloop : Except.RaisesOnly (· = .outOfFuel)
      (FastddsToXtypes.setStructData
        (FastddsToXtypes.setMember fuel (.structType "" d.readers) d.readers) d fuel 0
        (.struct (DynamicType.defaultMembers d.readers))) := by
    refine FastddsToXtypes.setStructData_readers hnames hlength (fun he => ?_) ?_
    · have hwithin := DdsData.within_of_holds he
      exact FastddsToXtypes.decode_reader (fun e hc => hcomplete e (hwithin.trans hc)) he
    · intro j name T e _ hm hc
      exact DynamicType.lookup_defaultMembers (DdsData.lookup_readers hnames hm hc)
  rw [fastddsToXtypes_of_isAggregation rfl, FastddsToXtypes.decode] at hfuel
  change (Except.map _ (FastddsToXtypes.setStructData _ d fuel 0 _) >>= _) ≠ _ at hfuel
  cases hresult : FastddsToXtypes.setStructData
      (FastddsToXtypes.setMember fuel (.structType "" d.readers) d.readers) d fuel 0
      (.struct (DynamicType.defaultMembers d.readers)) with
  | error e =>
    rw [hresult, hloop e hresult] at hfuel
    exact absurd rfl hfuel
  | ok r => exact FastddsToXtypes.descriptor_of_setStructData hresult (Nat.zero_le i) hid

/-- All the data in `input` is decoded in finitely many steps exactly if there is a descriptor for
every member in it. -/
theorem decodingEnds_iff {input : DdsData} (hcomplete : input.IsComplete) :
    (∀ d, input.Within d → DecodingEnds d) ↔ input.IsDescribed := by
  constructor
  · intro h d hd i id hid
    exact isSome_getDescriptor_of_decodingEnds (fun c hc => hcomplete c (hd.trans hc)) (h d hd) hid
  · intro h d hd
    exact decodingEnds_of_isDescribed fun c hc => h c (hd.trans hc)

omit [Xtypes] [Dds]

def numbered : DdsData :=
  .composite (.struct [("number", .leaf (.primitive .int32))])
    [.leaf (.primitive .int32) (.integral 7)]

theorem isComplete_numbered : numbered.IsComplete := by
  intro c hc
  cases hc with
  | refl => decide
  | component hmem hc =>
    cases List.mem_singleton.mp hmem
    cases hc with
    | refl => decide
    | component hmem => cases hmem

theorem decodingEnds_numbered : @DecodingEnds firstLabelXtypes zeroDds numbered := by
  refine (@decodingEnds_iff firstLabelXtypes zeroDds numbered isComplete_numbered).mpr ?_ _
    (.refl numbered)
  intro c hc i id hid
  obtain ⟨hlt, rfl⟩ := DdsData.getMemberIdAtIndex_eq_some_iff.mp hid
  have hm := List.getElem?_eq_getElem hlt
  show (if (c.type.members[i]?).isSome = true then c.type.members[i]? else none).isSome = true
  rw [hm]
  rfl

/-- The library has no descriptor for the number. -/
theorem not_decodingEnds_numbered :
    ¬ ∀ (X : Xtypes) (D : Dds) (input : DdsData), @DecodingEnds X D input := by
  intro h
  have hdescriptor := @isSome_getDescriptor_of_decodingEnds firstLabelXtypes
    { zeroDds with describes := fun _ _ => false } numbered isComplete_numbered (h _ _ _) 0 0 rfl
  cases hdescriptor

end FastDdsSh
