import Mathlib.Data.List.Basic
import Mathlib.Algebra.BigOperators.Group.List.Basic

/-!
# Row-major positions

The position of a vector of indexes in an array of several dimensions that is stored as one list,
and the block of the list that the remaining dimensions take up.
-/

namespace RowMajor

/-- The position within the block that starts at `start` blocks of the remaining dimensions. -/
def indexFrom (start : Nat) : List Nat → List Nat → Option Nat
  | [], [] => some start
  | b :: bounds, i :: indexes => if i < b then indexFrom (start * b + i) bounds indexes else none
  | _, _ => none

/-- There is a position only for as many indexes as dimensions, each one within its bound. -/
def index (bounds indexes : List Nat) : Option Nat :=
  indexFrom 0 bounds indexes

/-- The indexes for more dimensions go on from the position of the first ones. -/
theorem indexFrom_append {start q : Nat} {bounds indexes : List Nat}
    (h : indexFrom start bounds indexes = some q) (rest more : List Nat) :
    indexFrom start (bounds ++ rest) (indexes ++ more) = indexFrom q rest more := by
  induction bounds generalizing start indexes with
  | nil =>
    cases indexes with
    | nil =>
      have hq : start = q := Option.some.inj h
      rw [← hq, List.nil_append, List.nil_append]
    | cons j indexes => cases h
  | cons c bounds ih =>
    cases indexes with
    | nil => cases h
    | cons j indexes =>
      rw [indexFrom] at h
      by_cases hj : j < c
      · rw [if_pos hj] at h
        rw [List.cons_append, List.cons_append, indexFrom, if_pos hj]
        exact ih h
      · rw [if_neg hj] at h
        cases h

theorem indexFrom_concat {start q : Nat} {bounds indexes : List Nat}
    (h : indexFrom start bounds indexes = some q) {b i : Nat} (hi : i < b) :
    indexFrom start (bounds ++ [b]) (indexes ++ [i]) = some (q * b + i) := by
  rw [indexFrom_append h, indexFrom, if_pos hi]
  rfl

theorem length_of_indexFrom {start q : Nat} {bounds indexes : List Nat}
    (h : indexFrom start bounds indexes = some q) : indexes.length = bounds.length := by
  induction bounds generalizing start indexes with
  | nil =>
    cases indexes with
    | nil => rfl
    | cons j indexes => cases h
  | cons c bounds ih =>
    cases indexes with
    | nil => cases h
    | cons j indexes =>
      rw [indexFrom] at h
      split at h
      · rw [List.length_cons, List.length_cons, ih h]
      · cases h

/-- There is no position unless there are as many indexes as dimensions. -/
theorem index_eq_none {bounds indexes : List Nat} (h : indexes.length ≠ bounds.length) :
    index bounds indexes = none := by
  cases hindex : index bounds indexes with
  | none => rfl
  | some r => exact absurd (length_of_indexFrom hindex) h

/-- There is no position for more indexes than dimensions. -/
theorem index_append_eq_none {q : Nat} {bounds indexes more : List Nat}
    (h : index bounds indexes = some q) (hmore : more ≠ []) :
    index bounds (indexes ++ more) = none := by
  have hlength := length_of_indexFrom h
  have hpos := List.length_pos_of_ne_nil hmore
  apply index_eq_none
  rw [List.length_append]
  omega

/-- Positions are within the list. -/
theorem indexFrom_lt {start q : Nat} {bounds indexes : List Nat}
    (h : indexFrom start bounds indexes = some q) : q < (start + 1) * bounds.prod := by
  induction bounds generalizing start indexes with
  | nil =>
    cases indexes with
    | nil =>
      have hq : start = q := Option.some.inj h
      rw [List.prod_nil]
      omega
    | cons j indexes => cases h
  | cons b bounds ih =>
    cases indexes with
    | nil => cases h
    | cons i indexes =>
      rw [indexFrom] at h
      split at h
      · rename_i hi
        have hle : start * b + i + 1 ≤ (start + 1) * b := by
          rw [Nat.add_mul]
          omega
        calc q < (start * b + i + 1) * bounds.prod := ih h
          _ ≤ (start + 1) * b * bounds.prod := Nat.mul_le_mul_right _ hle
          _ = (start + 1) * (b :: bounds).prod := by rw [List.prod_cons, Nat.mul_assoc]
      · cases h

theorem index_lt {q : Nat} {bounds indexes : List Nat} (h : index bounds indexes = some q) :
    q < bounds.prod := by
  have hlt := indexFrom_lt h
  omega

/-- One more dimension refines a position into a block of `b` positions. -/
theorem index_concat {q : Nat} {bounds indexes : List Nat}
    (h : index bounds indexes = some q) {b i : Nat} (hi : i < b) :
    index (bounds ++ [b]) (indexes ++ [i]) = some (q * b + i) :=
  indexFrom_concat h hi

/-- Where the block of the remaining dimensions starts, after `i` blocks of the dimension before. -/
theorem block_start (q b i : Nat) (bounds : List Nat) :
    q * (b :: bounds).prod + i * bounds.prod = (q * b + i) * bounds.prod := by
  rw [List.prod_cons, ← Nat.mul_assoc, ← Nat.add_mul]

/-! ## Blocks -/

variable {α : Type*}

def block (n : Nat) (l : List α) (i : Nat) : List α :=
  (l.drop (i * n)).take n

example : index [2, 3] [1, 2] = some 5 ∧ index [2, 3] [1] = none ∧ index [2, 3] [1, 3] = none := by
  decide

end RowMajor
