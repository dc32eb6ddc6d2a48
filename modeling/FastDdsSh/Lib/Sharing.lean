import Mathlib.Data.List.Basic

/-!
# Resources shared by their users

Users join resources and leave them, in any order.  A user has a resource while it has joined it and
not left it since.  A history is proper if nobody leaves what it has not joined, and nobody leaves
anything twice.
-/

namespace Sharing

inductive Step (R U : Type*) where
  | join (resource : R) (user : U)
  | leave (resource : R) (user : U)
  deriving DecidableEq, Repr

variable {R U : Type*}

def Uses (steps : List (Step R U)) (r : R) (u : U) : Prop :=
  ∃ before after, steps = before ++ .join r u :: after ∧ .leave r u ∉ after

def Proper (steps : List (Step R U)) : Prop :=
  ∀ before after r u, steps = before ++ .leave r u :: after →
    .join r u ∈ before ∧ .leave r u ∉ before

theorem not_uses_nil (r : R) (u : U) : ¬ Uses ([] : List (Step R U)) r u := by
  intro h
  obtain ⟨before, after, heq, -⟩ := h
  exact List.append_ne_nil_of_right_ne_nil before (List.cons_ne_nil _ _) heq.symm

/-- What one more step does. -/
theorem uses_concat_iff {steps : List (Step R U)} {step : Step R U} {r : R} {u : U} :
    Uses (steps ++ [step]) r u ↔ step = .join r u ∨ (Uses steps r u ∧ step ≠ .leave r u) := by
  constructor
  · intro h
    obtain ⟨before, after, heq, hafter⟩ := h
    rcases after.eq_nil_or_concat with rfl | ⟨rest, last, rfl⟩
    · exact .inl (List.singleton_inj.mp (List.append_inj' heq rfl).2)
    · rw [List.concat_eq_append] at heq hafter
      rw [← List.cons_append, ← List.append_assoc] at heq
      obtain ⟨rfl, hlast⟩ := List.append_inj' heq rfl
      rw [List.mem_append, not_or, List.mem_singleton, ← List.singleton_inj.mp hlast] at hafter
      exact .inr ⟨⟨before, rest, rfl, hafter.1⟩, fun hleave => hafter.2 hleave.symm⟩
  · intro h
    rcases h with rfl | ⟨⟨before, after, rfl, hafter⟩, hstep⟩
    · exact ⟨steps, [], rfl, List.not_mem_nil⟩
    · refine ⟨before, after ++ [step], List.append_assoc _ _ _, ?_⟩
      rw [List.mem_append, not_or, List.mem_singleton]
      exact ⟨hafter, fun hleave => hstep hleave.symm⟩

theorem proper_nil : Proper ([] : List (Step R U)) := by
  intro before after r u heq
  exact absurd heq.symm (List.append_ne_nil_of_right_ne_nil before (List.cons_ne_nil _ _))

/-- A proper history stays one with a step that is not out of turn. -/
theorem Proper.concat {steps : List (Step R U)} {step : Step R U} (h : Proper steps)
    (hstep : ∀ r u, step = .leave r u → .join r u ∈ steps ∧ .leave r u ∉ steps) :
    Proper (steps ++ [step]) := by
  intro before after r u heq
  rcases after.eq_nil_or_concat with rfl | ⟨rest, last, rfl⟩
  · obtain ⟨rfl, hlast⟩ := List.append_inj' heq rfl
    exact hstep r u (List.singleton_inj.mp hlast)
  · rw [List.concat_eq_append, ← List.cons_append, ← List.append_assoc] at heq
    obtain ⟨rfl, -⟩ := List.append_inj' heq rfl
    exact h before rest r u rfl

theorem Proper.concat_join {steps : List (Step R U)} (h : Proper steps) (r : R) (u : U) :
    Proper (steps ++ [.join r u]) :=
  h.concat fun _ _ hleave => by cases hleave

theorem Proper.concat_leave {steps : List (Step R U)} {r : R} {u : U} (h : Proper steps)
    (hjoin : .join r u ∈ steps) (hleave : .leave r u ∉ steps) :
    Proper (steps ++ [.leave r u]) :=
  h.concat fun _ _ heq => by
    cases heq
    exact ⟨hjoin, hleave⟩

/-- In a proper history a resource is left by somebody who has it. -/
theorem Proper.uses {steps after : List (Step R U)} {r : R} {u : U}
    (h : Proper (steps ++ .leave r u :: after)) : Uses steps r u := by
  obtain ⟨hjoin, hleave⟩ := h steps after r u rfl
  obtain ⟨before, rest, rfl⟩ := List.append_of_mem hjoin
  exact ⟨before, rest, rfl, fun hmem =>
    hleave (List.mem_append_right _ (List.mem_cons_of_mem _ hmem))⟩

end Sharing
