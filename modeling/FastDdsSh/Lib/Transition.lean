import Mathlib.Logic.Relation
import Mathlib.Tactic

/-!
# Labelled transition systems with executable steps

A machine is a set of initial states and a partial step function on labelled events.  The file holds
the rules the rest of a development works with: invariants over reachable states, invariants over
the runs whose every step meets a condition, and the passage from an executed run to reachability.
-/

namespace Transition

/-- Initial states and a partial step function; `step s a = none` says that `a` is not enabled. -/
structure Machine (σ α : Type*) where
  init : σ → Prop
  step : σ → α → Option σ

variable {σ α : Type*} {S : Machine σ α}

namespace Machine

/-- One step of the machine that meets the condition `C` on the state it leaves and its event. -/
def StepVia (S : Machine σ α) (C : σ → α → Prop) (s s' : σ) : Prop :=
  ∃ a, C s a ∧ S.step s a = some s'

def ReachableVia (S : Machine σ α) (C : σ → α → Prop) (s : σ) : Prop :=
  ∃ s₀, S.init s₀ ∧ Relation.ReflTransGen (S.StepVia C) s₀ s

def Reachable (S : Machine σ α) (s : σ) : Prop :=
  S.ReachableVia (fun _ _ => True) s

/-- Runs the events in order; `none` as soon as one of them is not enabled. -/
def run (S : Machine σ α) : σ → List α → Option σ
  | s, [] => some s
  | s, a :: as => (S.step s a).bind fun s' => S.run s' as

@[simp] theorem run_nil (s : σ) : S.run s [] = some s := rfl

theorem run_cons (s : σ) (a : α) (as : List α) :
    S.run s (a :: as) = (S.step s a).bind fun s' => S.run s' as := rfl

def runVia (S : Machine σ α) (C : σ → α → Prop) [∀ s a, Decidable (C s a)] : σ → List α → Option σ
  | s, [] => some s
  | s, a :: as => if C s a then (S.step s a).bind fun s' => S.runVia C s' as else none

theorem ReachableVia.init {C : σ → α → Prop} {s : σ} (h : S.init s) : S.ReachableVia C s :=
  ⟨s, h, .refl⟩

theorem ReachableVia.step {C : σ → α → Prop} {s s' : σ} {a : α} (h : S.ReachableVia C s)
    (hc : C s a) (hs : S.step s a = some s') : S.ReachableVia C s' := by
  obtain ⟨s₀, h₀, hr⟩ := h
  exact ⟨s₀, h₀, hr.tail ⟨a, hc, hs⟩⟩

/-- The induction behind every safety result: what holds initially and is kept by each step that
meets the condition holds in every state such steps reach. -/
theorem ReachableVia.invariant {C : σ → α → Prop} {I : σ → Prop} {s : σ} (h : S.ReachableVia C s)
    (h₀ : ∀ s, S.init s → I s)
    (hstep : ∀ s a s', I s → C s a → S.step s a = some s' → I s') : I s := by
  obtain ⟨s₀, hi, hr⟩ := h
  induction hr with
  | refl => exact h₀ _ hi
  | tail _ hlast ih =>
    obtain ⟨a, hc, hs⟩ := hlast
    exact hstep _ _ _ ih hc hs

theorem ReachableVia.reachable {C : σ → α → Prop} {s : σ} (h : S.ReachableVia C s) :
    S.Reachable s :=
  h.invariant (fun _ hi => ReachableVia.init hi)
    fun _ _ _ ih _ hs => ReachableVia.step ih trivial hs

theorem Reachable.invariant {I : σ → Prop} {s : σ} (h : S.Reachable s)
    (h₀ : ∀ s, S.init s → I s) (hstep : ∀ s a s', I s → S.step s a = some s' → I s') : I s :=
  ReachableVia.invariant h h₀ fun s a s' ih _ hs => hstep s a s' ih hs

/-- An invariant whose step may use a fact known of every reachable state. -/
theorem ReachableVia.invariant_using {C : σ → α → Prop} {I J : σ → Prop} {s : σ}
    (h : S.ReachableVia C s) (hJ : ∀ s, S.Reachable s → J s) (h₀ : ∀ s, S.init s → I s)
    (hstep : ∀ s a s', J s → I s → C s a → S.step s a = some s' → I s') : I s := by
  have hboth : S.Reachable s ∧ I s := by
    refine h.invariant (I := fun s => S.Reachable s ∧ I s) ?_ ?_
    · exact fun s hi => ⟨ReachableVia.init hi, h₀ s hi⟩
    · exact fun s a s' ih hc hs =>
        ⟨ReachableVia.step ih.1 trivial hs, hstep s a s' (hJ s ih.1) ih.2 hc hs⟩
  exact hboth.2

theorem ReachableVia.of_runVia {C : σ → α → Prop} [∀ s a, Decidable (C s a)] {s s' : σ}
    (h : S.ReachableVia C s) (as : List α) (hrun : S.runVia C s as = some s') :
    S.ReachableVia C s' := by
  induction as generalizing s with
  | nil =>
    obtain rfl : s = s' := by simpa [runVia] using hrun
    exact h
  | cons a as ih =>
    rw [runVia] at hrun
    split at hrun
    · rename_i hc
      obtain ⟨t, ht, hrest⟩ := Option.bind_eq_some_iff.mp hrun
      exact ih (h.step hc ht) hrest
    · cases hrun

theorem ReachableVia.of_run {C : α → Prop} {s s' : σ} (h : S.ReachableVia (fun _ a => C a) s)
    (as : List α) (has : ∀ a ∈ as, C a) (hrun : S.run s as = some s') :
    S.ReachableVia (fun _ a => C a) s' := by
  induction as generalizing s with
  | nil =>
    obtain rfl : s = s' := by simpa using hrun
    exact h
  | cons a as ih =>
    rw [run_cons] at hrun
    obtain ⟨t, ht, hrest⟩ := Option.bind_eq_some_iff.mp hrun
    rw [List.forall_mem_cons] at has
    exact ih (h.step has.1 ht) has.2 hrest

/-- What every step keeps is kept by an executed run. -/
theorem invariant_of_run {I : σ → Prop} {s s' : σ} (h : I s)
    (hstep : ∀ s a s', I s → S.step s a = some s' → I s') (as : List α)
    (hrun : S.run s as = some s') : I s' := by
  induction as generalizing s with
  | nil =>
    obtain rfl : s = s' := by simpa using hrun
    exact h
  | cons a as ih =>
    rw [run_cons] at hrun
    obtain ⟨t, ht, hrest⟩ := Option.bind_eq_some_iff.mp hrun
    exact ih (hstep s a t h ht) hrest

/-- A part of a system runs like a machine of its own if each step of the system is a step of the
part or leaves it alone. -/
theorem Reachable.map {τ β : Type*} {T : Machine τ β} {s : σ} (h : S.Reachable s) (f : σ → τ)
    (h₀ : ∀ s, S.init s → T.init (f s))
    (hstep : ∀ s a s', S.step s a = some s' → f s' = f s ∨ ∃ b, T.step (f s) b = some (f s')) :
    T.Reachable (f s) := by
  refine h.invariant (I := fun s => T.Reachable (f s)) ?_ ?_
  · exact fun s hi => ReachableVia.init (h₀ s hi)
  · intro s a s' ih hs
    rcases hstep s a s' hs with heq | ⟨b, hb⟩
    · rw [heq]
      exact ih
    · exact ReachableVia.step ih trivial hb

/-- Two machines that do the same on what `f` makes of a state run the same. -/
theorem run_map {τ : Type*} {T : Machine τ α} (f : σ → τ)
    (hstep : ∀ s a, T.step (f s) a = (S.step s a).map f) (s : σ) (as : List α) :
    T.run (f s) as = (S.run s as).map f := by
  induction as generalizing s with
  | nil => rfl
  | cons a as ih =>
    rw [run_cons, run_cons, hstep]
    cases S.step s a with
    | none => rfl
    | some s' => exact ih s'

/-- An executed run from a reachable state ends in a reachable state. -/
theorem Reachable.of_run {s s' : σ} (h : S.Reachable s) (as : List α)
    (hrun : S.run s as = some s') : S.Reachable s' :=
  invariant_of_run h (fun _ _ _ ih hs => ReachableVia.step ih trivial hs) as hrun

/-- A goal is within reach when each state short of it has a step that lowers a rank. -/
theorem exists_run_of_rank {β : Type*} [LT β] [WellFoundedLT β] {I G : σ → Prop} (rank : σ → β)
    (hstep : ∀ s, I s → ¬ G s → ∃ a s', S.step s a = some s' ∧ I s' ∧ rank s' < rank s)
    {s : σ} (h : I s) : ∃ as s', S.run s as = some s' ∧ G s' := by
  induction hrank : rank s using WellFoundedLT.induction generalizing s with
  | ind b ih =>
    by_cases hgoal : G s
    · exact ⟨[], s, rfl, hgoal⟩
    · obtain ⟨a, t, hs, ht, hlt⟩ := hstep s h hgoal
      obtain ⟨as, s', hrun, hs'⟩ := ih (rank t) (hrank ▸ hlt) ht rfl
      refine ⟨a :: as, s', ?_, hs'⟩
      rw [run_cons, hs]
      exact hrun

/-! ### What a run records -/

/-- What the events of a run record, in order; `f` tells what an event does, by the state before. -/
def log {β : Type*} (S : Machine σ α) (f : σ → α → List β) : σ → List α → List β
  | _, [] => []
  | s, a :: as =>
      f s a ++ match S.step s a with
        | some s' => S.log f s' as
        | none => []

variable {β : Type*} {f : σ → α → List β}

theorem log_cons {s s' : σ} {a : α} (h : S.step s a = some s') (as : List α) :
    S.log f s (a :: as) = f s a ++ S.log f s' as := by
  rw [log, h]

theorem run_append (s : σ) (as bs : List α) :
    S.run s (as ++ bs) = (S.run s as).bind fun s' => S.run s' bs := by
  induction as generalizing s with
  | nil => rfl
  | cons a as ih =>
    rw [List.cons_append, run_cons, run_cons]
    cases S.step s a with
    | none => rfl
    | some s' => exact ih s'

theorem log_append {s s' : σ} {as : List α} (h : S.run s as = some s') (bs : List α) :
    S.log f s (as ++ bs) = S.log f s as ++ S.log f s' bs := by
  induction as generalizing s with
  | nil =>
    obtain rfl : s = s' := by simpa using h
    rfl
  | cons a as ih =>
    rw [run_cons] at h
    obtain ⟨t, ht, hrest⟩ := Option.bind_eq_some_iff.mp h
    rw [List.cons_append, log_cons ht, log_cons ht, ih hrest, List.append_assoc]

/-- An invariant of the record and the state. -/
theorem log_invariant {I : List β → σ → Prop} {l : List β} {s s' : σ} (h : I l s)
    (hstep : ∀ l s a s', I l s → S.step s a = some s' → I (l ++ f s a) s') (as : List α)
    (hrun : S.run s as = some s') : I (l ++ S.log f s as) s' := by
  induction as generalizing l s with
  | nil =>
    obtain rfl : s = s' := by simpa using hrun
    rw [log, List.append_nil]
    exact h
  | cons a as ih =>
    rw [run_cons] at hrun
    obtain ⟨t, ht, hrest⟩ := Option.bind_eq_some_iff.mp hrun
    rw [log_cons ht, ← List.append_assoc]
    exact ih (hstep l s a t h ht) hrest

/-- A run whose record has only such entries is one by steps that record only such. -/
theorem ReachableVia.of_log {P : β → Prop} {s s' : σ}
    (h : S.ReachableVia (fun s a => ∀ b ∈ f s a, P b) s) (as : List α)
    (hrun : S.run s as = some s') (hlog : ∀ b ∈ S.log f s as, P b) :
    S.ReachableVia (fun s a => ∀ b ∈ f s a, P b) s' := by
  induction as generalizing s with
  | nil =>
    obtain rfl : s = s' := by simpa using hrun
    exact h
  | cons a as ih =>
    rw [run_cons] at hrun
    obtain ⟨t, ht, hrest⟩ := Option.bind_eq_some_iff.mp hrun
    rw [log_cons ht, List.forall_mem_append] at hlog
    exact ih (h.step hlog.1 ht) hrest hlog.2

end Machine

/-! ## Processes by number

A system that starts processes keeps them in a list, in the order in which they were started; a
process is called by its position. -/

section Processes

variable {τ : Type*} {processes : List τ} {p p' q : τ} {id i : Nat}

/-- A process of a list with one more at its end is an old one or the new one. -/
theorem getElem?_concat_cases (h : (processes ++ [q])[i]? = some p) :
    processes[i]? = some p ∨ (i = processes.length ∧ p = q) := by
  rw [List.getElem?_append] at h
  split at h
  · exact .inl h
  · rename_i hlt
    right
    have hi : i - processes.length = 0 := by
      by_contra hcon
      rw [List.getElem?_eq_none (by simp; omega)] at h
      cases h
    rw [hi] at h
    exact ⟨by omega, by simpa using h.symm⟩

theorem getElem?_set_cases (hp : processes[id]? = some p)
    (h : (processes.set id p')[i]? = some q) :
    (i = id ∧ q = p') ∨ (i ≠ id ∧ processes[i]? = some q) := by
  by_cases hi : i = id
  · subst hi
    have hlt : i < processes.length := (List.getElem?_eq_some_iff.mp hp).1
    rw [List.getElem?_set_self hlt] at h
    exact .inl ⟨rfl, by simpa using h.symm⟩
  · rw [List.getElem?_set_ne (Ne.symm hi)] at h
    exact .inr ⟨hi, h⟩

theorem lt_length_of_getElem? (h : processes[id]? = some p) : id < processes.length :=
  (List.getElem?_eq_some_iff.mp h).1

theorem set_concat (processes : List τ) (p q : τ) :
    (processes ++ [p]).set processes.length q = processes ++ [q] := by
  rw [List.set_append_right _ _ (le_refl _), Nat.sub_self]
  rfl

/-- What a process keeps is kept in the list of all. -/
theorem map_set_of_same {ρ : Type*} {f : τ → ρ} (hp : processes[id]? = some p) (hf : f p' = f p) :
    (processes.set id p').map f = processes.map f := by
  apply List.ext_getElem?
  intro i
  rw [List.getElem?_map, List.getElem?_map]
  by_cases hi : i = id
  · rw [hi, List.getElem?_set_self (lt_length_of_getElem? hp), hp, Option.map_some, hf,
      Option.map_some]
  · rw [List.getElem?_set_ne (Ne.symm hi)]

theorem sum_map_set {f : τ → Nat} (hp : processes[id]? = some p) :
    ((processes.set id q).map f).sum + f p = (processes.map f).sum + f q := by
  induction processes generalizing id with
  | nil => cases hp
  | cons a processes ih =>
    cases id with
    | zero =>
      cases hp
      simp only [List.set_cons_zero, List.map_cons, List.sum_cons]
      omega
    | succ id =>
      simp only [List.set_cons_succ, List.map_cons, List.sum_cons]
      have hp : processes[id]? = some p := hp
      have h := ih hp
      omega

/-- A process moves on, and all of them together have less ahead. -/
theorem sum_map_set_lt {f : τ → Nat} (hp : processes[id]? = some p) (hlt : f q < f p) :
    ((processes.set id q).map f).sum < (processes.map f).sum := by
  have h := sum_map_set (q := q) (f := f) hp
  omega

theorem filterMap_sublist_map {α β : Type*} {l : List α} {f : α → β} {g : α → Option β}
    (h : ∀ a b, g a = some b → b = f a) : (l.filterMap g).Sublist (l.map f) := by
  induction l with
  | nil => exact .slnil
  | cons a l ih =>
    rw [List.filterMap_cons, List.map_cons]
    cases hg : g a with
    | none => exact ih.cons _
    | some b =>
      rw [h a b hg]
      exact ih.cons_cons _

/-- What the processes come up with, kept under their numbers: each of them once, in some order. -/
theorem perm_filterMap_of_numbered {β : Type*} {g : τ → Option β} {record : List (Nat × β)}
    (hnodup : (record.map Prod.fst).Nodup)
    (hmem : ∀ id b, (id, b) ∈ record ↔ ∃ p, processes[id]? = some p ∧ g p = some b) :
    (record.map Prod.snd).Perm (processes.filterMap g) := by
  let numbered : List (Nat × β) := processes.zipIdx.filterMap fun e => (g e.1).map fun b => (e.2, b)
  have hids : (numbered.map Prod.fst).Nodup := by
    refine List.Nodup.sublist (?_ : (numbered.map Prod.fst).Sublist (processes.zipIdx.map Prod.snd))
      ?_
    · rw [List.map_filterMap]
      apply filterMap_sublist_map
      intro e id h
      cases hg : g e.1 with
      | none => rw [hg] at h; cases h
      | some b => rw [hg] at h; cases h; rfl
    · rw [List.zipIdx_map_snd]
      exact List.nodup_range'
  have hperm : record.Perm numbered := by
    refine (List.perm_ext_iff_of_nodup (.of_map Prod.fst hnodup) (.of_map Prod.fst hids)).mpr ?_
    rintro ⟨id, b⟩
    rw [hmem, List.mem_filterMap]
    constructor
    · rintro ⟨p, hp, hg⟩
      exact ⟨(p, id), List.mem_zipIdx_iff_getElem?.mpr hp, by rw [hg]; rfl⟩
    · rintro ⟨e, he, heq⟩
      obtain ⟨b', hg, hb⟩ := Option.map_eq_some_iff.mp heq
      cases hb
      exact ⟨e.1, List.mem_zipIdx_iff_getElem?.mp he, hg⟩
  have hsnd : numbered.map Prod.snd = processes.filterMap g := by
    rw [List.map_filterMap]
    have hcomp : (fun e : τ × Nat => Option.map Prod.snd ((g e.1).map fun b => (e.2, b))) =
        g ∘ Prod.fst := by
      funext e
      rw [Function.comp_apply]
      cases g e.1 <;> rfl
    rw [hcomp, ← List.filterMap_map, List.zipIdx_map_fst]
  rw [← hsnd]
  exact hperm.map Prod.snd

end Processes

end Transition
