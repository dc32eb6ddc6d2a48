import Mathlib.Algebra.BigOperators.Group.Finset.Sigma
import Mathlib.Algebra.BigOperators.Fin
import Mathlib.Data.Finset.Card

/-!
# Counting by cells

A family of rows, whose elements have a number of cells each.  A cell is known by its row, the
position of its element there and its number.  What is injective on the cells, or goes injectively
into them, is counted by the sum of the numbers.
-/

namespace Cells

variable {ι α β : Type*}

def sizeAt (row : List α) (size : α → Nat) (i : Nat) : Nat :=
  (row[i]?).elim 0 size

theorem lt_sizeAt_iff {row : List α} {size : α → Nat} {i j : Nat} :
    j < sizeAt row size i ↔ ∃ x, row[i]? = some x ∧ j < size x := by
  unfold sizeAt
  cases row[i]? with
  | none => simp
  | some x => simp

theorem sum_sizeAt (row : List α) (size : α → Nat) :
    ∑ i ∈ Finset.range row.length, sizeAt row size i = (row.map size).sum := by
  induction row using List.reverseRecOn with
  | nil => rfl
  | append_singleton row x ih =>
    have hlast : sizeAt (row ++ [x]) size row.length = size x := by
      rw [sizeAt, List.getElem?_concat_length]
      rfl
    have hrest : ∀ i ∈ Finset.range row.length,
        sizeAt (row ++ [x]) size i = sizeAt row size i := by
      intro i hi
      rw [sizeAt, sizeAt, List.getElem?_append_left (Finset.mem_range.mp hi)]
    rw [List.length_append, List.length_singleton, Finset.sum_range_succ,
      Finset.sum_congr rfl hrest, ih, hlast, List.map_append, List.sum_append]
    simp

variable [Fintype ι] (rows : ι → List α) (size : ι → α → Nat)

def all : Finset (Σ _ : ι, Σ _ : Nat, Nat) :=
  Finset.univ.sigma fun a => (Finset.range (rows a).length).sigma fun i =>
    Finset.range (sizeAt (rows a) (size a) i)

variable {rows size}

theorem mem_all_iff {a : ι} {i j : Nat} :
    (⟨a, i, j⟩ : Σ _ : ι, Σ _ : Nat, Nat) ∈ all rows size ↔
      ∃ x, (rows a)[i]? = some x ∧ j < size a x := by
  rw [all, Finset.mem_sigma, Finset.mem_sigma, Finset.mem_range, Finset.mem_range,
    lt_sizeAt_iff]
  constructor
  · exact fun h => h.2.2
  · rintro ⟨x, hx, hj⟩
    exact ⟨Finset.mem_univ a, (List.getElem?_eq_some_iff.mp hx).1, x, hx, hj⟩

theorem card_all : (all rows size).card = ∑ a, ((rows a).map (size a)).sum := by
  rw [all, Finset.card_sigma]
  refine Finset.sum_congr rfl fun a _ => ?_
  rw [Finset.card_sigma, ← sum_sizeAt]
  exact Finset.sum_congr rfl fun i _ => Finset.card_range _

/-- Things that have a cell each. -/
theorem length_le_sum {l : List β} (hl : l.Nodup) (f : β → Σ _ : ι, Σ _ : Nat, Nat)
    (hf : ∀ b b', f b = f b' → b = b') (hmem : ∀ b ∈ l, f b ∈ all rows size) :
    l.length ≤ ∑ a, ((rows a).map (size a)).sum := by
  classical
  rw [← card_all, ← List.toFinset_card_of_nodup hl]
  exact Finset.card_le_card_of_injOn f
    (fun b hb => hmem b (List.mem_toFinset.mp (Finset.mem_coe.mp hb)))
    fun b _ b' _ heq => hf b b' heq

/-- With one cell at most, the sum is a count. -/
theorem sum_map_toNat (row : List α) (p : α → Bool) :
    (row.map fun x => (p x).toNat).sum = row.countP p := by
  induction row with
  | nil => rfl
  | cons x row ih =>
    rw [List.map_cons, List.sum_cons, ih, List.countP_cons]
    cases p x with
    | false => exact Nat.zero_add _
    | true => exact Nat.add_comm _ _

/-- Cells that have a thing each. -/
theorem sum_le_length {l : List β} (f : (Σ _ : ι, Σ _ : Nat, Nat) → β)
    (hf : ∀ c ∈ all rows size, ∀ c' ∈ all rows size, f c = f c' → c = c')
    (hmem : ∀ c ∈ all rows size, f c ∈ l) :
    ∑ a, ((rows a).map (size a)).sum ≤ l.length := by
  classical
  rw [← card_all]
  refine le_trans ?_ (List.toFinset_card_le l)
  exact Finset.card_le_card_of_injOn f
    (fun c hc => Finset.mem_coe.mpr (List.mem_toFinset.mpr (hmem c (Finset.mem_coe.mp hc))))
    fun c hc c' hc' heq => hf c (Finset.mem_coe.mp hc) c' (Finset.mem_coe.mp hc') heq

end Cells
