import FastDdsSh.Lib.Lookup
import Mathlib.Order.Basic
import Mathlib.Data.List.Sort

/-!
# Ordered entries

The entries of an ordered map container as a list in the order of their keys, with the one operation
that inserts an entry or changes the one that is there.
-/

namespace Entries

open Lookup

variable {K V : Type*} [LinearOrder K] [BEq K] [LawfulBEq K]

def Ordered (entries : List (K × V)) : Prop :=
  (entries.map Prod.fst).Pairwise (· < ·)

omit [BEq K] [LawfulBEq K] in
theorem ordered_cons {k : K} {v : V} {entries : List (K × V)} :
    Ordered ((k, v) :: entries) ↔ (∀ e ∈ entries, k < e.1) ∧ Ordered entries := by
  unfold Ordered
  rw [List.map_cons, List.pairwise_cons, List.forall_mem_map]

/-- The value at a key after a change, with `new` inserted first if there is none. -/
def update (k : K) (new : V) (f : V → V) : List (K × V) → List (K × V)
  | [] => [(k, f new)]
  | (k', v) :: entries =>
      if k < k' then (k, f new) :: (k', v) :: entries
      else if k = k' then (k', f v) :: entries
      else (k', v) :: update k new f entries

omit [BEq K] [LawfulBEq K] in
theorem nodup_of_ordered {entries : List (K × V)} (h : Ordered entries) :
    (entries.map Prod.fst).Nodup :=
  h.imp fun hlt => hlt.ne

/-- A key that comes before all others is not one of them. -/
theorem lookup_eq_none_of_lt {k : K} {entries : List (K × V)} (h : ∀ e ∈ entries, k < e.1) :
    entries.lookup k = none := by
  cases hlookup : entries.lookup k with
  | none => rfl
  | some v => exact absurd (h _ (mem_of_lookup hlookup)) (lt_irrefl k)

theorem lookup_update_self (k : K) (new : V) (f : V → V) {entries : List (K × V)}
    (h : Ordered entries) :
    (update k new f entries).lookup k = some (f ((entries.lookup k).getD new)) := by
  induction entries with
  | nil => exact List.lookup_cons_self
  | cons head entries ih =>
    obtain ⟨k', v⟩ := head
    rw [update]
    split
    · rename_i hlt
      -- the key is not in the list, which is in order
      have hnone : ((k', v) :: entries).lookup k = none := by
        apply lookup_eq_none_of_lt
        intro e he
        rcases List.mem_cons.mp he with rfl | he
        · exact hlt
        · exact lt_trans hlt ((ordered_cons.mp h).1 e he)
      rw [List.lookup_cons_self, hnone]
      rfl
    · split
      · rename_i heq
        subst heq
        rw [List.lookup_cons_self, List.lookup_cons_self]
        rfl
      · rename_i hne
        rw [lookup_cons_ne hne, lookup_cons_ne hne]
        exact ih (ordered_cons.mp h).2

theorem lookup_update_ne {k k' : K} (new : V) (f : V → V) (entries : List (K × V))
    (h : k' ≠ k) : (update k new f entries).lookup k' = entries.lookup k' := by
  induction entries with
  | nil => rw [update, lookup_cons_ne h]
  | cons head entries ih =>
    obtain ⟨n, v⟩ := head
    rw [update]
    split
    · rw [lookup_cons_ne h]
    · split
      · rename_i heq
        subst heq
        rw [lookup_cons_ne h, lookup_cons_ne h]
      · rw [List.lookup_cons, List.lookup_cons, ih]

omit [BEq K] [LawfulBEq K] in
theorem mem_update {k : K} {new : V} {f : V → V} {entries : List (K × V)} {e : K × V}
    (h : e ∈ update k new f entries) : e.1 = k ∨ e ∈ entries := by
  induction entries with
  | nil =>
    rw [update, List.mem_singleton] at h
    exact .inl (congrArg Prod.fst h)
  | cons head entries ih =>
    obtain ⟨n, v⟩ := head
    rw [update] at h
    split at h
    · rcases List.mem_cons.mp h with rfl | h
      · exact .inl rfl
      · exact .inr h
    · split at h
      · rename_i heq
        rcases List.mem_cons.mp h with rfl | h
        · exact .inl heq.symm
        · exact .inr (List.mem_cons_of_mem _ h)
      · rcases List.mem_cons.mp h with rfl | h
        · exact .inr List.mem_cons_self
        · exact (ih h).imp id (List.mem_cons_of_mem _)

omit [BEq K] [LawfulBEq K] in
theorem ordered_update (k : K) (new : V) (f : V → V) {entries : List (K × V)}
    (h : Ordered entries) : Ordered (update k new f entries) := by
  induction entries with
  | nil => exact List.pairwise_singleton _ k
  | cons head entries ih =>
    obtain ⟨n, v⟩ := head
    rw [update]
    rw [ordered_cons] at h
    split
    · rename_i hlt
      refine ordered_cons.mpr ⟨?_, ordered_cons.mpr h⟩
      intro e he
      rcases List.mem_cons.mp he with rfl | he
      · exact hlt
      · exact lt_trans hlt (h.1 e he)
    · split
      · exact ordered_cons.mpr h
      · rename_i hnlt hne
        refine ordered_cons.mpr ⟨?_, ih h.2⟩
        intro e he
        rcases mem_update he with heq | he
        · rw [heq]
          exact lt_of_le_of_ne (not_lt.mp hnlt) (Ne.symm hne)
        · exact h.1 e he

theorem mem_keys_iff {k : K} {entries : List (K × V)} (h : Ordered entries) :
    k ∈ entries.map Prod.fst ↔ (entries.lookup k).isSome = true := by
  rw [Option.isSome_iff_exists, List.mem_map]
  constructor
  · rintro ⟨e, he, hk⟩
    rw [← hk]
    exact ⟨e.2, lookup_of_mem (nodup_of_ordered h) he⟩
  · rintro ⟨v, hv⟩
    exact ⟨(k, v), mem_of_lookup hv, rfl⟩

/-- The same keys are in the same order. -/
theorem keys_eq {W : Type*} {entries : List (K × V)} {entries' : List (K × W)}
    (h : Ordered entries) (h' : Ordered entries')
    (heq : ∀ k, (entries.lookup k).isSome = (entries'.lookup k).isSome) :
    entries.map Prod.fst = entries'.map Prod.fst := by
  apply h.eq_of_mem_iff h'
  intro k
  rw [mem_keys_iff h, mem_keys_iff h', heq k]

/-- Entries in order are determined by what is found at each key. -/
theorem eq_of_lookup {entries entries' : List (K × V)} (h : Ordered entries)
    (h' : Ordered entries') (heq : ∀ k, entries.lookup k = entries'.lookup k) :
    entries = entries' := by
  induction entries generalizing entries' with
  | nil =>
    cases entries' with
    | nil => rfl
    | cons head' rest' =>
      have hfound := heq head'.1
      rw [List.lookup_cons_self] at hfound
      cases hfound
  | cons head rest ih =>
    cases entries' with
    | nil =>
      have hfound := heq head.1
      rw [List.lookup_cons_self] at hfound
      cases hfound
    | cons head' rest' =>
      obtain ⟨k, v⟩ := head
      obtain ⟨k', v'⟩ := head'
      have hk := heq k
      have hk' := heq k'
      rw [List.lookup_cons_self] at hk hk'
      rw [ordered_cons] at h h'
      -- the least key of the one list is the least key of the other
      have hsame : k = k' := by
        by_contra hne
        have hmem : (k, v) ∈ rest' := by
          rw [lookup_cons_ne hne] at hk
          exact mem_of_lookup hk.symm
        have hmem' : (k', v') ∈ rest := by
          rw [lookup_cons_ne (Ne.symm hne)] at hk'
          exact mem_of_lookup hk'
        exact lt_asymm (h.1 _ hmem') (h'.1 _ hmem)
      subst hsame
      rw [List.lookup_cons_self] at hk
      cases hk
      have hrest : rest = rest' := by
        apply ih h.2 h'.2
        intro n
        by_cases hn : n = k
        · subst hn
          rw [lookup_eq_none_of_lt h.1, lookup_eq_none_of_lt h'.1]
        · have hfound := heq n
          rw [lookup_cons_ne hn, lookup_cons_ne hn] at hfound
          exact hfound
      rw [hrest]

end Entries
