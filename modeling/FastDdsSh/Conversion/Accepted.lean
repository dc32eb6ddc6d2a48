import FastDdsSh.Conversion.Image
import FastDdsSh.Conversion.Reading
import FastDdsSh.Conversion.Traced

/-!
# Values that DDS data accept

Whether a value can be written to DDS data in full is told from the value, the type of the data and
what the library refuses.  For one component: the conversion into its place succeeds and leaves it
holding the value exactly if the value is accepted there.
-/

namespace FastDdsSh

open Lookup Trace

namespace DynamicType

/-- The type of the data that an element is converted into: the element itself if it is a leaf, new
data otherwise. -/
def elementTarget (t : DynamicType) (E : DdsType) : DdsType :=
  if t.isLeaf then E else t.ddsType

/-- The type of the data that an element of an array is converted into: an array in an array takes
up the dimensions that remain. -/
def arrayTarget (t : DynamicType) : DdsType → DdsType
  | .array E (_ :: bounds) => if t.isArray then .array E bounds else t.elementTarget E
  | T => T

end DynamicType

/-- The type of the data that a component of type `t` is converted into, where there is one of type
`T`. -/
def Place.target (p : Place) (t : DynamicType) (T : DdsType) : DdsType :=
  match p with
  | arrayElement _ _ | sequenceElement _ _ => t.elementTarget T
  | _ => T

/-! ## The condition -/

/-- The setter acts on the leaf that is there, and the value is not refused. -/
def LeafType.accepted (refusals : Refusals) (l : LeafType) (p : Position) (v : Value)
    (T : DdsType) : Bool :=
  match v, T with
  | .leaf content, .leaf d =>
      (l.setter p).actsOn d && !refusals.value d (l.stored p content)
  | _, _ => false

variable [Xtypes]

namespace DynamicType

mutual

/-- A value of the type can be written, component by component, to data of type `T`: the setter for
each leaf acts on the leaf that is there, members and dimensions are those of `T`, keys are leaves,
everything on the way is of a kind with a branch, and the library refuses nothing. -/
def accepted (refusals : Refusals) : DynamicType → Position → Value → DdsType → Bool
  | leafType _ l, p, v, T => l.accepted refusals p v T
  | bitsetType _, _, _, _ => false
  | aliasType _ t, p, v, T => accepted refusals t p v T
  | arrayType _ t n, _, v, T =>
      match v with
      | .list vs =>
          t.fitsArray true n T &&
            vs.all fun w => accepted refusals t .arrayElement w (t.arrayTarget T)
      | _ => false
  | sequenceType _ t _, _, v, T =>
      match v, T with
      | .list vs, .sequence E b =>
          vs.zipIdx.all fun w =>
            !refusals.element (.sequence E b) w.2 &&
              accepted refusals t .sequenceElement w.1 (t.elementTarget E)
      | _, _ => false
  | mapType _ k t _, _, v, T =>
      match v, T with
      | .map es, .map K V b =>
          es.zipIdx.all fun e =>
            (k.isLeaf && accepted refusals k .entry e.1.1 k.ddsType) &&
              (accepted refusals t .entry e.1.2 t.ddsType && !refusals.entry (.map K V b) e.2)
      | _, _ => false
  | structType _ ms, _, v, T =>
      match T with
      | .struct Ms => decide (Ms.length = ms.length) && acceptedMembers refusals ms v Ms
      | _ => false
  | unionType _ d ms _, _, v, T =>
      match v, T with
      | .union x c w, .union _ Ms _ =>
          d.admitsDiscriminator x && acceptedCase refusals ms c w Ms
      | _, _ => false

def acceptedMembers (refusals : Refusals) :
    List (String × DynamicType) → Value → List (String × DdsType) → Bool
  | [], _, _ => true
  | (m, t) :: ms, v, Ms =>
      ((v.field t m).any fun w => (Ms.lookup m).any fun T => accepted refusals t .member w T) &&
        acceptedMembers refusals ms v Ms

def acceptedCase (refusals : Refusals) :
    List (String × DynamicType) → String → Value → List (String × DdsType) → Bool
  | [], _, _, _ => false
  | (m, t) :: ms, c, w, Ms =>
      if m = c then (Ms.lookup c).any fun T => accepted refusals t .unionMember w T
      else acceptedCase refusals ms c w Ms

end

end DynamicType

omit [Xtypes]

/-! ## One component -/

namespace Place

end Place

namespace XtypesToFastdds

variable {refusals : Refusals}

section Leaf

variable [Xtypes]

end Leaf

/-! ## Nested components -/

/-- What a conversion into the place leaves: nothing on loan, and a component there. -/
def Settled (p : Place) (t : DynamicType) (T : DdsType) (s : DdsData × Loans) : Prop :=
  s.2 = [] ∧ ∃ c, s.1 = p.put c ∧ (t.isLeaf = true → T.Admits c)

variable [Dds]

end XtypesToFastdds

end FastDdsSh
