import FastDdsSh.Lib.Container
import Mathlib.Data.Ordering.Lemmas
import Mathlib.Tactic

/-!
# Ordered maps

A map container that keeps its keys in the order of a strict comparison takes two keys for the same
if neither is before the other.  If the comparison is a strict total order these are equal keys, and
then the container is a lawful one: what it finds does not depend on the order.
-/

structure OrderedMap {K : Type} (r : K → K → Prop) [DecidableRel r] (V : Type) where
  tree : Std.TreeMap K V (cmpUsing r)

namespace OrderedMap

open Container

variable {K V : Type} {r : K → K → Prop} [DecidableRel r]

instance : Container (OrderedMap r) K where
  find m k := m.tree[k]?
  set m k v := ⟨m.tree.insert k v⟩
  erase m k := ⟨m.tree.erase k⟩

variable [IsStrictTotalOrder K r]

theorem cmpUsing_eq_iff {a b : K} : cmpUsing r a b = .eq ↔ a = b := by
  rw [cmpUsing_eq_eq]
  constructor
  · rintro ⟨hab, hba⟩
    rcases trichotomous_of r a b with h | h | h
    · exact absurd h hab
    · exact h
    · exact absurd h hba
  · rintro rfl
    exact ⟨irrefl_of r a, irrefl_of r a⟩

instance transCmp_cmpUsing : Std.TransCmp (cmpUsing r) where
  eq_swap {a b} := by
    rcases trichotomous_of r a b with h | rfl | h
    · rw [show cmpUsing r a b = .lt from (cmpUsing_eq_lt a b).mpr h, (cmpUsing_eq_gt b a).mpr h]
      rfl
    · rw [cmpUsing_eq_iff.mpr rfl]
      rfl
    · rw [show cmpUsing r b a = .lt from (cmpUsing_eq_lt b a).mpr h, (cmpUsing_eq_gt a b).mpr h]
      rfl
  isLE_trans {a b c} hab hbc := by
    -- neither comparison goes down, so the one of the ends does not
    have hle {a b : K} : (cmpUsing r a b).isLE = true ↔ ¬ r b a := by
      have hgt : cmpUsing r a b = .gt ↔ r b a := cmpUsing_eq_gt a b
      rw [← hgt]
      cases cmpUsing r a b <;> decide
    rw [hle] at hab hbc ⊢
    intro hca
    rcases trichotomous_of r a b with h | rfl | h
    · exact hbc (trans_of r hca h)
    · exact hbc hca
    · exact hab h

instance lawfulEqCmp_cmpUsing : Std.LawfulEqCmp (cmpUsing r) where
  compare_self := cmpUsing_eq_iff.mpr rfl
  eq_of_compare := cmpUsing_eq_iff.mp

theorem store_of_isEmpty {m : OrderedMap r V} (h : m.tree.isEmpty = true) :
    store m = KeyedStore.empty := by
  funext k
  exact Std.TreeMap.getElem?_of_isEmpty h

variable [DecidableEq K]

instance : LawfulContainer (OrderedMap r) where
  store_set m k v := by
    funext k'
    show (m.tree.insert k v)[k']? = _
    rw [Std.TreeMap.getElem?_insert]
    by_cases h : k' = k
    · rw [if_pos (cmpUsing_eq_iff.mpr h.symm), h, KeyedStore.set_self]
    · rw [if_neg (fun heq => h (cmpUsing_eq_iff.mp heq).symm), KeyedStore.set_ne _ _ h]
      rfl
  store_erase m k := by
    funext k'
    show (m.tree.erase k)[k']? = _
    rw [Std.TreeMap.getElem?_erase]
    by_cases h : k' = k
    · rw [if_pos (cmpUsing_eq_iff.mpr h.symm), h, KeyedStore.erase_self]
    · rw [if_neg (fun heq => h (cmpUsing_eq_iff.mp heq).symm), KeyedStore.erase_ne _ h]
      rfl

end OrderedMap
