import FastDdsSh.Conversion.Content
import FastDdsSh.DataAccess

/-!
# The value that DDS data hold

What an object of the DDS library stands for as a value of an xtypes type, told from the data alone
and without the accessors: a conversion is right if the one side of it is what the other side holds.
-/

namespace FastDdsSh

open Lookup

namespace DdsData

/-- The element of an array after `i` others, where `bounds` are the dimensions that remain: with
none left it is a component, otherwise an array of them. -/
def element (E : DdsType) (bounds : List Nat) (cs : List DdsData) (i : Nat) : Option DdsData :=
  if bounds = [] then cs[i]?
  else some (.composite (.array E bounds) (RowMajor.block bounds.prod cs i))

def entries : List DdsData → List (DdsData × DdsData)
  | k :: v :: rest => (k, v) :: entries rest
  | _ => []

def member (data : DdsData) (name : String) : Option DdsData :=
  (data.getMemberIdByName name).bind fun i => data.components[i]?

end DdsData

def LeafType.reading (l : LeafType) (d : DdsLeaf) (x : CppValue) : Option Value :=
  let content := l.cppType.cast x
  if l.cppType.admits content && decide (d.cppType.cast content = x) then some (.leaf content)
  else none

namespace DynamicType

def readingDiscriminator (d : DynamicType) (n : Nat) : Option Int :=
  match d.resolve with
  | leafType _ l =>
      match l.cppType.cast (.integral n) with
      | .integral x =>
          if l.cppType.bounds.isSome && decide ((x % 2 ^ 64).toNat = n) then some x else none
      | _ => none
  | _ => none

/-- The type of an array's data whose elements are of type `t`: an array of `n` elements, or of at
least as many unless `whole`.  The array has further dimensions if the elements are arrays. -/
def fitsArray (t : DynamicType) (whole : Bool) (n : Nat) : DdsType → Bool
  | .array _ (b :: bounds) =>
      (decide (n = b) || !whole && decide (n ≤ b)) && (t.isArray == !bounds.isEmpty)
  | _ => false

mutual

/-- The value of the type that the data hold: data of the corresponding kinds, with the members and
the entries of the value and no others, and not more elements than the value either if `whole`. -/
def reading (whole : Bool) : DynamicType → DdsData → Option Value
  | leafType _ l, data =>
      match data with
      | .leaf d x => l.reading d x
      | _ => none
  -- there is no DDS type for it
  | bitsetType _, _ => none
  | aliasType _ t, data => reading whole t data
  | arrayType _ t n, data =>
      match data with
      | .composite (.array E (b :: bounds)) cs =>
          if t.fitsArray whole n (.array E (b :: bounds)) && decide (cs.length = (b :: bounds).prod)
          then
            ((List.range n).mapM fun i =>
              (DdsData.element E bounds cs i).bind (reading whole t)).map .list
          else none
      | _ => none
  | sequenceType _ t _, data =>
      match data with
      | .composite (.sequence _ _) cs => (cs.mapM (reading whole t)).map .list
      | _ => none
  | mapType _ k t _, data =>
      match data with
      | .composite (.map _ _ _) cs =>
          ((DdsData.entries cs).mapM fun e =>
            (reading whole k e.1).bind fun key => (reading whole t e.2).map fun v => (key, v)).bind
              fun es => if Value.keysDistinct es then some (.map es) else none
      | _ => none
  | structType _ ms, data =>
      match data with
      | .composite (.struct Ms) cs =>
          if Ms.length = ms.length then
            (readingMembers whole ms (.composite (.struct Ms) cs)).map .struct
          else none
      | _ => none
  | unionType _ d ms _, data =>
      match data with
      | .union (.union _ Ms _) n (some i) cs =>
          (Ms[i]?).bind fun M => (cs[i]?).bind fun c => (d.readingDiscriminator n).bind fun x =>
            (readingCase whole ms M.1 c).map fun v => .union x M.1 v
      | _ => none

def readingMembers (whole : Bool) :
    List (String × DynamicType) → DdsData → Option (List (String × Value))
  | [], _ => some []
  | (m, t) :: ms, data =>
      ((data.member m).bind (reading whole t)).bind fun v =>
        (readingMembers whole ms data).map fun rest => (m, v) :: rest

def readingCase (whole : Bool) : List (String × DynamicType) → String → DdsData → Option Value
  | [], _, _ => none
  | (m, t) :: ms, c, data => if m = c then reading whole t data else readingCase whole ms c data

end

end DynamicType

/-! ## Leaves -/

namespace LeafType

end LeafType

/-! ## Discriminators -/

namespace DynamicType

/-- The discriminator is a value of the type, which is one of the integral types. -/
def admitsDiscriminator (d : DynamicType) (x : Int) : Bool :=
  match d.resolve with
  | leafType _ l => l.cppType.admits (.integral x)
  | _ => false

end DynamicType

end FastDdsSh
