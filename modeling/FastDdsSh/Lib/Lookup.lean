import Mathlib.Data.List.Basic
import Mathlib.Data.List.Nodup

/-!
# Entries by name

Lists of entries that are searched for a key, where the first one with the key counts, and the
functions that go through such a list until they come to a key.
-/

namespace Lookup

variable {K V W : Type*}

section BEq

variable [BEq K] [LawfulBEq K]

theorem lookup_cons_ne {k k' : K} (h : k ≠ k') (v : V) (entries : List (K × V)) :
    ((k', v) :: entries).lookup k = entries.lookup k := by
  have hne : (k == k') = false := beq_false_of_ne h
  rw [List.lookup_cons, hne]

theorem mem_of_lookup {k : K} {v : V} {entries : List (K × V)} (h : entries.lookup k = some v) :
    (k, v) ∈ entries := by
  obtain ⟨before, after, heq, -⟩ := List.lookup_eq_some_iff.mp h
  rw [heq]
  exact List.mem_append_right before List.mem_cons_self

theorem lookup_append_of_not_mem {k : K} {before after : List (K × V)}
    (h : k ∉ before.map Prod.fst) : (before ++ after).lookup k = after.lookup k := by
  induction before with
  | nil => rfl
  | cons head before ih =>
    rw [List.map_cons, List.mem_cons, not_or] at h
    rw [List.cons_append, lookup_cons_ne h.1]
    exact ih h.2

/-- Where no key is there twice, every entry is found at its key. -/
theorem lookup_of_mem {entries : List (K × V)} (hkeys : (entries.map Prod.fst).Nodup) {e : K × V}
    (h : e ∈ entries) : entries.lookup e.1 = some e.2 := by
  obtain ⟨before, after, rfl⟩ := List.append_of_mem h
  rw [List.map_append, List.nodup_append] at hkeys
  rw [lookup_append_of_not_mem, List.lookup_cons_self]
  intro hmem
  exact hkeys.2.2 _ hmem _ (List.mem_map_of_mem List.mem_cons_self) rfl

end BEq

/-- A check that goes through the entries one by one holds of the value of each. -/
theorem forall_of_check {F : List (K × V) → Bool} {P : V → Bool}
    (hF : ∀ k v entries, F ((k, v) :: entries) = (P v && F entries)) {entries : List (K × V)}
    (h : F entries = true) {e : K × V} (he : e ∈ entries) : P e.2 = true := by
  induction entries with
  | nil => cases he
  | cons head entries ih =>
    rw [hF, Bool.and_eq_true] at h
    rcases List.mem_cons.mp he with rfl | he
    · exact h.1
    · exact ih h.2 he

/-! ## Values in step with the entries -/

section Forall₂

variable {R : V → W → Prop} {l : List V} {l' : List W}

/-- A relation that goes through the entries one by one relates each to its value. -/
theorem iff_forall₂ {P : List V → List W → Prop} (hnil : ∀ l', P [] l' ↔ l' = [])
    (hcons : ∀ a l l', P (a :: l) l' ↔ ∃ b rest, l' = b :: rest ∧ R a b ∧ P l rest) :
    P l l' ↔ List.Forall₂ R l l' := by
  induction l generalizing l' with
  | nil => rw [hnil, List.forall₂_nil_left_iff]
  | cons a l ih =>
    rw [hcons, List.forall₂_cons_left_iff]
    simp only [ih]
    constructor
    · rintro ⟨b, rest, rfl, hb, hrest⟩
      exact ⟨b, rest, hb, hrest, rfl⟩
    · rintro ⟨b, rest, hb, hrest, rfl⟩
      exact ⟨b, rest, rfl, hb, hrest⟩

/-- Each entry has its value at the same position. -/
theorem forall₂_getElem? (h : List.Forall₂ R l l') {i : Nat} {a : V} (ha : l[i]? = some a) :
    ∃ b, l'[i]? = some b ∧ R a b := by
  induction h generalizing i with
  | nil => cases ha
  | cons hhead _ ih =>
    cases i with
    | zero =>
      cases ha
      exact ⟨_, rfl, hhead⟩
    | succ i => exact ih ha

/-- The value of an entry can be replaced. -/
theorem forall₂_set (h : List.Forall₂ R l l') {i : Nat} {a : V} (ha : l[i]? = some a) {b : W}
    (hb : R a b) : List.Forall₂ R l (l'.set i b) := by
  induction h generalizing i with
  | nil => cases ha
  | cons hhead hrest ih =>
    cases i with
    | zero =>
      cases ha
      exact .cons hb hrest
    | succ i => exact .cons hhead (ih ha)

end Forall₂

variable [DecidableEq K]

/-! ## Searches -/

section Search

variable {F : List (K × V) → W} {k : K} {g : V → W}

/-- A function that stops at the first entry with the key gives what it has for the value there. -/
theorem eq_of_lookup
    (hF : ∀ k' v entries, F ((k', v) :: entries) = if k' = k then g v else F entries)
    {entries : List (K × V)} {v : V} (h : entries.lookup k = some v) : F entries = g v := by
  induction entries with
  | nil => cases h
  | cons head entries ih =>
    obtain ⟨k', w⟩ := head
    rw [hF]
    by_cases hk : k' = k
    · rw [hk, List.lookup_cons_self] at h
      cases h
      rw [if_pos hk]
    · rw [lookup_cons_ne (Ne.symm hk)] at h
      rw [if_neg hk]
      exact ih h

/-- Without such an entry it goes through the whole list. -/
theorem eq_of_lookup_none
    (hF : ∀ k' v entries, F ((k', v) :: entries) = if k' = k then g v else F entries)
    {entries : List (K × V)} (h : entries.lookup k = none) : F entries = F [] := by
  induction entries with
  | nil => rfl
  | cons head entries ih =>
    obtain ⟨k', w⟩ := head
    rw [hF]
    by_cases hk : k' = k
    · rw [hk, List.lookup_cons_self] at h
      cases h
    · rw [lookup_cons_ne (Ne.symm hk)] at h
      rw [if_neg hk]
      exact ih h

end Search

/-- In an ordered list the first element with a property is the least one. -/
theorem find?_eq_some_iff_least {α : Type*} {r : α → α → Prop} {p : α → Bool} {l : List α}
    (h : l.Pairwise r) (hr : ∀ x y, r x y → ¬ r y x) (a : α) :
    l.find? p = some a ↔ a ∈ l ∧ p a = true ∧ ∀ b ∈ l, p b = true → ¬ r b a := by
  induction l with
  | nil => simp
  | cons x l ih =>
    rw [List.pairwise_cons] at h
    rw [List.find?_cons]
    by_cases hx : p x = true
    · rw [hx]
      constructor
      · intro heq
        obtain rfl : x = a := by simpa using heq
        refine ⟨List.mem_cons_self, hx, ?_⟩
        intro b hb _ hba
        rcases List.mem_cons.mp hb with rfl | hb
        · exact hr _ _ hba hba
        · exact hr _ _ (h.1 b hb) hba
      · rintro ⟨ha, -, hleast⟩
        rcases List.mem_cons.mp ha with rfl | ha
        · rfl
        · exact absurd (h.1 a ha) (hleast x List.mem_cons_self hx)
    · have hx : p x = false := by simpa using hx
      rw [hx, ih h.2]
      constructor
      · rintro ⟨ha, hpa, hleast⟩
        refine ⟨List.mem_cons_of_mem _ ha, hpa, ?_⟩
        intro b hb hpb
        rcases List.mem_cons.mp hb with rfl | hb
        · rw [hx] at hpb
          cases hpb
        · exact hleast b hb hpb
      · rintro ⟨ha, hpa, hleast⟩
        rcases List.mem_cons.mp ha with rfl | ha
        · rw [hx] at hpa
          cases hpa
        · exact ⟨ha, hpa, fun b hb => hleast b (List.mem_cons_of_mem _ hb)⟩

/-! ## Positions -/

theorem findIdx?_append_of_not_mem {k : K} {before after : List (K × V)}
    (h : k ∉ before.map Prod.fst) (v : V) :
    (before ++ (k, v) :: after).findIdx? (fun e => e.1 = k) = some before.length := by
  induction before with
  | nil => simp [List.findIdx?_cons]
  | cons head before ih =>
    rw [List.map_cons, List.mem_cons, not_or] at h
    have hne : ¬ head.1 = k := fun heq => h.1 heq.symm
    rw [List.cons_append, List.findIdx?_cons, ih h.2]
    simp [hne]

end Lookup
