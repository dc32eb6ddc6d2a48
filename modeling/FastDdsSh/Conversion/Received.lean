import FastDdsSh.Conversion.Aggregations
import FastDdsSh.Conversion.Content

/-!
# What becomes of the output of `fastdds_to_xtypes`

A value that is written to the output is not all that the output holds afterwards: sequences and
maps keep what they had, and the discriminator of a union is left to `operator[]`.
-/

namespace FastDdsSh

open Lookup

open FastddsToXtypes (setEntry)

variable [Xtypes]

namespace DynamicType

/-! ## Outputs -/

/-- What a conversion may be given to write to: an instance, or fresh data. -/
def Writable (t : DynamicType) (v : Value) : Prop :=
  t.admits v = true ∨ v = t.default

theorem length_of_writable {n : String} {t : DynamicType} {d : Nat} {vs : List Value}
    (h : (arrayType n t d).Writable (.list vs)) : vs.length = d := by
  rcases h with h | h
  · rw [admits, Bool.and_eq_true, decide_eq_true_eq] at h
    exact h.1
  · rw [default] at h
    cases h
    exact List.length_replicate

theorem field_of_writable {t mt : DynamicType} {m : String} {v : Value}
    (hm : t.member m = some mt) (h : t.Writable v) :
    ∃ w, v.field mt m = some w ∧ mt.Writable w := by
  rcases h with h | rfl
  · exact field_of_admits hm h
  · exact ⟨mt.default, field_default hm, .inr rfl⟩

mutual

def received : DynamicType → Value → Value → Value
  | leafType _ _, _, v | bitsetType _, _, v => v
  | aliasType _ t, current, v => received t current v
  -- elements, keys and values are written to fresh data
  | arrayType _ t _, _, v =>
      match v with
      | .list vs => .list (vs.map (received t t.default))
      | v => v
  | sequenceType _ t _, current, v =>
      match current, v with
      | .list output, .list vs => .list (output ++ vs.map (received t t.default))
      | _, v => v
  | mapType _ k t _, current, v =>
      match current, v with
      | .map output, .map es =>
          .map (es.foldl (fun output e =>
            setEntry (received k k.default e.1) (received t t.default e.2) output) output)
      | _, v => v
  | structType _ ms, current, v =>
      match current, v with
      | .struct fields, .struct values => .struct (receivedMembers ms fields values)
      | _, v => v
  | unionType n d ms cs, current, v =>
      match v with
      | .union _ c w => current.withField (unionType n d ms cs) c (receivedCase ms c current w)
      | v => v

def receivedMembers : List (String × DynamicType) → List (String × Value) →
    List (String × Value) → List (String × Value)
  | (_, t) :: ms, (m, current) :: fields, (_, v) :: values =>
      (m, received t current v) :: receivedMembers ms fields values
  | _, fields, _ => fields

def receivedCase : List (String × DynamicType) → String → Value → Value → Value
  | [], _, _, w => w
  | (m, t) :: ms, c, current, w =>
      if m = c then received t ((current.field t c).getD t.default) w
      else receivedCase ms c current w

end

mutual

/-- The output holds the value after it has been written: a sequence was empty, a map has the
entries of the value once these have been entered, and the discriminator of a union is the one that
`operator[]` leaves or sets for the case. -/
def takes : DynamicType → Value → Value → Bool
  | leafType _ _, _, _ | bitsetType _, _, _ => true
  | aliasType _ t, current, v => takes t current v
  | arrayType _ t _, _, v =>
      match v with
      | .list vs => vs.all (takes t t.default)
      | _ => false
  | sequenceType _ t _, current, v =>
      match current, v with
      | .list output, .list vs => output.isEmpty && vs.all (takes t t.default)
      | _, _ => false
  | mapType _ k t _, current, v =>
      match current, v with
      | .map output, .map es =>
          decide (es.foldl (fun output e =>
            setEntry (k.received k.default e.1) (t.received t.default e.2) output) output = es)
      | _, _ => false
  | structType _ ms, current, v =>
      match current, v with
      | .struct fields, .struct values => takesMembers ms fields values
      | _, _ => false
  | unionType n d ms cs, current, v =>
      match current, v with
      | .union x c u, .union y m w =>
          decide ((if c = m then x else Xtypes.selectLabel (unionType n d ms cs) m) = y) &&
            takesCase ms m (.union x c u) w
      | _, _ => false

def takesMembers : List (String × DynamicType) → List (String × Value) →
    List (String × Value) → Bool
  | (_, t) :: ms, (_, current) :: fields, (_, v) :: values =>
      takes t current v && takesMembers ms fields values
  | _, _, _ => true

def takesCase : List (String × DynamicType) → String → Value → Value → Bool
  | [], _, _, _ => true
  | (m, t) :: ms, c, current, w =>
      if m = c then takes t ((current.field t c).getD t.default) w else takesCase ms c current w

end

end DynamicType

end FastDdsSh
