import FastDdsSh.Lib.KeyedStore

/-!
# Results kept under a part of the argument

A function that keeps what it makes under a key of its argument, and gives what it has kept without
making it again.  Nothing is kept where nothing could be made.  A sequence of calls gives what calls
without memory give exactly if no argument comes after another one with the same key for which
something else was made.
-/

namespace Memo

variable {A K V : Type*} [DecidableEq K] (key : A → K) (make : A → Option V)

def call (kept : KeyedStore K V) (a : A) : Option V × KeyedStore K V :=
  match kept (key a) with
  | some v => (some v, kept)
  | none =>
      match make a with
      | none => (none, kept)
      | some v => (some v, kept.set (key a) v)

def results (kept : KeyedStore K V) : List A → List (Option V)
  | [] => []
  | a :: as => (call key make kept a).1 :: results (call key make kept a).2 as

theorem call_fst (kept : KeyedStore K V) (a : A) :
    (call key make kept a).1 = (kept (key a)).or (make a) := by
  unfold call
  cases hkept : kept (key a) with
  | some v => rfl
  | none =>
    cases hmake : make a with
    | none => rfl
    | some v => rfl

/-- What is kept is what was given. -/
theorem call_snd_self (kept : KeyedStore K V) (a : A) :
    (call key make kept a).2 (key a) = (kept (key a)).or (make a) := by
  unfold call
  cases hkept : kept (key a) with
  | some v => exact hkept
  | none =>
    cases hmake : make a with
    | none => exact hkept
    | some v => exact KeyedStore.set_self _ _ _

theorem call_snd_ne (kept : KeyedStore K V) {a : A} {k : K} (hk : k ≠ key a) :
    (call key make kept a).2 k = kept k := by
  unfold call
  split
  · rfl
  · split
    · rfl
    · exact KeyedStore.set_ne _ _ hk

/-- What is kept under the key of the argument, if anything, is what is made of it. -/
def Agrees (kept : KeyedStore K V) (a : A) : Prop :=
  (kept (key a)).isSome = true → kept (key a) = make a

variable {key make}

omit [DecidableEq K] in
theorem agrees_empty (a : A) : Agrees key make KeyedStore.empty a := by
  intro h
  cases h

/-- A call gives what is made exactly if what is kept agrees with it. -/
theorem call_fst_eq_iff {kept : KeyedStore K V} {a : A} :
    (call key make kept a).1 = make a ↔ Agrees key make kept a := by
  rw [call_fst, Agrees]
  cases kept (key a) with
  | none => simp
  | some v => simp

/-- After a call that gave what is made, the same is kept for every argument with its key. -/
theorem agrees_call_iff {kept : KeyedStore K V} {a b : A} (ha : Agrees key make kept a) :
    Agrees key make (call key make kept a).2 b ↔
      Agrees key make kept b ∧ (key a = key b → (make a).isSome = true → make b = make a) := by
  have hresult := call_fst_eq_iff.mpr ha
  rw [call_fst] at hresult
  unfold Agrees at ha ⊢
  by_cases hkey : key b = key a
  · rw [hkey, call_snd_self, hresult]
    constructor
    · intro h
      refine ⟨fun hkept => ?_, fun _ hmake => (h hmake).symm⟩
      have hmade := ha hkept
      rw [hmade] at hkept ⊢
      exact h hkept
    · intro h hmake
      exact (h.2 rfl hmake).symm
  · rw [call_snd_ne key make kept hkey]
    exact (and_iff_left fun heq => absurd heq.symm hkey).symm

/-- The results are those without memory exactly if they are so for what is kept already, and no
argument comes after one with its key of which something else is made. -/
theorem results_eq_map_iff {kept : KeyedStore K V} {as : List A} :
    results key make kept as = as.map make ↔
      (∀ a ∈ as, Agrees key make kept a) ∧
        as.Pairwise fun a b => key a = key b → (make a).isSome = true → make b = make a := by
  -- on the calls, with what the first one keeps for the others
  induction as generalizing kept with
  | nil => simp [results]
  | cons a as ih =>
    rw [results, List.map_cons, List.cons.injEq, ih, call_fst_eq_iff, List.forall_mem_cons,
      List.pairwise_cons]
    constructor
    · rintro ⟨ha, hkept, hrest⟩
      have hlater := fun b hb => (agrees_call_iff ha).mp (hkept b hb)
      exact ⟨⟨ha, fun b hb => (hlater b hb).1⟩, fun b hb => (hlater b hb).2, hrest⟩
    · rintro ⟨⟨ha, hkept⟩, hsame, hrest⟩
      exact ⟨ha, fun b hb => (agrees_call_iff ha).mpr ⟨hkept b hb, hsame b hb⟩, hrest⟩

/-- From nothing kept. -/
theorem results_empty_eq_map_iff {as : List A} :
    results key make KeyedStore.empty as = as.map make ↔
      as.Pairwise fun a b => key a = key b → (make a).isSome = true → make b = make a :=
  results_eq_map_iff.trans (and_iff_right fun a _ => agrees_empty a)

end Memo
