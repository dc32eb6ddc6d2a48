import FastDdsSh.Conversion.Accepted

/-!
# Accepted arrays

An array of arrays is one list of components, and an element that is an array takes up the block of
them that its indexes lead to.  What is written for one element leaves the other blocks as they are.
-/

namespace FastDdsSh

open Lookup Trace

namespace XtypesToFastdds

/-! ## Data of an array -/

/-- Data of an array have as many components as the dimensions say, which are leaves of the type if
they are to be written as such. -/
def Arrayed (leaves : Bool) (x : DdsData) : Prop :=
  ∀ E bounds, x.type = .array E bounds → ∃ cs, x = .composite (.array E bounds) cs ∧
    cs.length = bounds.prod ∧ (leaves = true → ∀ c ∈ cs, E.Admits c)

structure Kept (leaves : Bool) (x : DdsData) (indexes : List Nat) (s : DdsData × Loans) : Prop where
  loans : s.2 = []
  type : s.1.type = x.type
  arrayed : Arrayed leaves s.1
  others (i : Nat) (h : ∀ more, x.getArrayIndex (indexes ++ more) ≠ some i) :
    s.1.components[i]? = x.components[i]?

theorem getArrayIndex_of_type {x y : DdsData} (h : y.type = x.type) (indexes : List Nat) :
    y.getArrayIndex indexes = x.getArrayIndex indexes := by
  unfold DdsData.getArrayIndex
  rw [h]

theorem Kept.refl {leaves : Bool} {x : DdsData} (hx : Arrayed leaves x) (indexes : List Nat) :
    Kept leaves x indexes (x, []) :=
  ⟨rfl, rfl, hx, fun _ _ => rfl⟩

/-- The elements with more indexes are among those that the first ones lead to. -/
theorem Kept.trans {leaves : Bool} {x : DdsData} {indexes more : List Nat} {s s' : DdsData × Loans}
    (h : Kept leaves x (indexes ++ more) s) (h' : Kept leaves s.1 indexes s') :
    Kept leaves x indexes s' := by
  refine ⟨h'.loans, h'.type.trans h.type, h'.arrayed, fun i hi => ?_⟩
  rw [h'.others i fun rest => ?_, h.others i fun rest => ?_]
  · rw [List.append_assoc]
    exact hi _
  · rw [getArrayIndex_of_type h.type]
    exact hi rest

variable [Xtypes] [Dds] {refusals : Refusals}

end XtypesToFastdds

end FastDdsSh
