import Mathlib.Data.List.Nodup
import Mathlib.Data.List.Perm.Subperm
import FastDdsSh.Conversion.Provided

/-!
# Provided structures and unions

The members are read in the order of the DDS data, each into the member of the same name; of a union
only the active member is read, and it is selected in the output.
-/

namespace FastDdsSh

open Lookup Trace

variable [Xtypes]

namespace DynamicType

/-! ## The members of the output -/

end DynamicType

/-! ## The members of the data -/

variable [Dds]

namespace FastddsToXtypes

variable {fuel : Nat}

/-! ## Structures -/

structure Filled (Ms : List (String × DdsType)) (fields final : List (String × Value)) (i : Nat)
    (output : List (String × Value)) : Prop where
  names : output.map Prod.fst = final.map Prod.fst
  lookup (m : String) : output.lookup m =
    if m ∈ (Ms.drop i).map Prod.fst then fields.lookup m else final.lookup m

omit [Xtypes] [Dds] in
theorem Filled.setField {Ms : List (String × DdsType)} {fields final : List (String × Value)}
    {i : Nat} {output : List (String × Value)} (h : Filled Ms fields final i output)
    (hnames : (Ms.map Prod.fst).Nodup) {M : String × DdsType} (hM : Ms[i]? = some M) {w w' : Value}
    (hw : fields.lookup M.1 = some w) (hw' : final.lookup M.1 = some w') :
    Filled Ms fields final (i + 1) (Value.setField output M.1 w') := by
  obtain ⟨hlt, rfl⟩ := List.getElem?_eq_some_iff.mp hM
  have hdrop := List.drop_eq_getElem_cons hlt
  have hfirst : Ms[i].1 ∉ (Ms.drop (i + 1)).map Prod.fst := by
    have hrest : ((Ms.drop i).map Prod.fst).Nodup := by
      rw [List.map_drop]
      exact hnames.sublist (List.drop_sublist i _)
    rw [hdrop, List.map_cons, List.nodup_cons] at hrest
    exact hrest.1
  have hlookup := h.lookup
  simp only [hdrop, List.map_cons, List.mem_cons] at hlookup
  refine ⟨(Value.map_fst_setField _ _ _).trans h.names, fun m => ?_⟩
  by_cases hm : m = Ms[i].1
  · have hcurrent := hlookup Ms[i].1
    rw [if_pos (.inl rfl), hw] at hcurrent
    rw [hm, if_neg hfirst, hw', Value.lookup_setField w' hcurrent]
  · rw [Value.lookup_setField_ne _ _ hm, hlookup m]
    simp only [hm, false_or]

end FastddsToXtypes

end FastDdsSh
