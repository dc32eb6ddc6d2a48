import FastDdsSh.Conversion.Reading
import FastDdsSh.Conversion.Received
import FastDdsSh.Conversion.Termination
import FastDdsSh.Conversion.Traced
import FastDdsSh.Conversion.Typing

/-!
# Values that DDS data provide

Data that hold a value give it to the conversion if the getters act on the leaves that are there.
For one component: its conversion succeeds exactly if the value is provided, and the output is then
what it becomes when the value is written to it.
-/

namespace FastDdsSh

open Lookup Trace

/-! ## The condition -/

/-- A member is read by the getter of the DDS leaf, which has a branch for the leaf; anything else
is read by the getter of the leaf, which acts on the DDS leaf. -/
def LeafType.provided (l : LeafType) (p : Position) (d : DdsLeaf) : Bool :=
  match p with
  | .member => (l.writtenAs d false).isSome
  | .unionMember => (l.writtenAs d true).isSome
  | .arrayElement | .sequenceElement | .entry => l.getter.actsOn d

namespace DynamicType

variable [Dds]

mutual

/-- The data give every leaf of the value that they hold, and there is a descriptor for every member
on the way. -/
def provided : DynamicType → Position → DdsData → Bool
  | leafType _ l, p, data =>
      match data with
      | .leaf d _ => l.provided p d
      | _ => false
  | bitsetType _, _, _ => false
  | aliasType _ t, p, data => provided t p data
  | arrayType _ t n, _, data =>
      match data with
      | .composite (.array E (_ :: bounds)) cs =>
          (List.range n).all fun i =>
            (DdsData.element E bounds cs i).any (provided t .arrayElement)
      | _ => false
  | sequenceType _ t _, _, data => data.components.all (provided t .sequenceElement)
  | mapType _ k t _, _, data =>
      (DdsData.entries data.components).all fun e => provided k .entry e.1 && provided t .entry e.2
  | structType _ ms, _, data => providedMembers ms data
  | unionType _ _ ms _, _, data =>
      (data.getDescriptor data.getUnionId).any fun M =>
        (data.component data.getUnionId).any (providedCase ms M.1)

def providedMembers : List (String × DynamicType) → DdsData → Bool
  | [], _ => true
  | (m, t) :: ms, data =>
      ((data.getDescriptor (data.getMemberIdByName m)).isSome &&
        (data.member m).any (provided t .member)) && providedMembers ms data

def providedCase : List (String × DynamicType) → String → DdsData → Bool
  | [], _, _ => false
  | (m, t) :: ms, c, data => if m = c then provided t .unionMember data else providedCase ms c data

end

end DynamicType

/-! ## Places -/

/-- The data keep to their types: every member, at any depth, is of the type declared for it. -/
def DdsData.IsTypedWithin (data : DdsData) : Prop :=
  ∀ c, data.Within c → c.IsTyped

theorem DdsData.IsTypedWithin.component {data c : DdsData} (h : data.IsTypedWithin)
    (hc : c ∈ data.components) : c.IsTypedWithin :=
  fun e he => h e (.component hc he)

/-- The place holds the component, and returning it as it is changes nothing. -/
structure Place.Shows (p : Place) (c : DdsData) : Prop where
  holds : p.Holds c.type c
  unchanged : p.data.withComponent p.id c = p.data

namespace FastddsToXtypes

/-! ## Leaves -/

theorem getter_actsOn (d : DdsLeaf) : d.getter.actsOn d = true := by
  cases d with
  | primitive kind => exact decide_eq_true rfl
  | string8 | string16 | enum => rfl

variable [Xtypes]

variable [Dds]

end FastddsToXtypes

end FastDdsSh
