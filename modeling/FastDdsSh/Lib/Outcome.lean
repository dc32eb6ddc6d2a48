import Mathlib.Data.List.Basic

/-!
# Computations that fail in one way only

`Outcome e b Q r` says exactly how `r` ends: with a value that has `Q` if the test `b` holds, and by
raising `e` otherwise.  A sequence of such computations is again one, whose test is the conjunction
of theirs.  `Except.RaisesOnly E r` says less, that `r` raises none but the errors of `E`, and
`Except.Ensures Q r` that `r` has no value without `Q`.
-/

universe u v

/-- If the test holds there is a value, and it has the property; otherwise `e` is raised. -/
def Outcome {ε : Type u} {α : Type v} (e : ε) (b : Bool) (Q : α → Prop) (r : Except ε α) : Prop :=
  match b with
  | true => ∃ a, r = .ok a ∧ Q a
  | false => r = .error e

namespace Outcome

variable {ε : Type u} {α β : Type v} {e : ε} {b c : Bool}

theorem ok {Q : α → Prop} {a : α} (h : Q a) : Outcome e true Q (.ok a) :=
  ⟨a, rfl, h⟩

theorem imp {Q R : α → Prop} {r : Except ε α} (h : Outcome e b Q r) (himp : ∀ a, Q a → R a) :
    Outcome e b R r := by
  cases b with
  | false => exact h
  | true =>
    obtain ⟨a, hr, ha⟩ := h
    exact ⟨a, hr, himp a ha⟩

/-- The second computation matters only after a value of the first. -/
theorem bind {Q : α → Prop} {R : β → Prop} {r : Except ε α} {f : α → Except ε β}
    (h : Outcome e b Q r) (hf : ∀ a, Q a → Outcome e c R (f a)) :
    Outcome e (b && c) R (r >>= f) := by
  cases b with
  | false =>
    have hr : r = .error e := h
    rw [hr]
    rfl
  | true =>
    obtain ⟨a, hr, ha⟩ := h
    rw [hr, Bool.true_and]
    exact hf a ha

theorem bind_ok {Q : α → Prop} {R : β → Prop} {r : Except ε α} {f : α → β}
    (h : Outcome e b Q r) (hf : ∀ a, Q a → R (f a)) :
    Outcome e b R (r >>= fun a => .ok (f a)) := by
  rw [← Bool.and_true b]
  exact h.bind fun a ha => ok (hf a ha)

theorem map {Q : α → Prop} {R : β → Prop} {r : Except ε α} {f : α → β}
    (h : Outcome e b Q r) (hf : ∀ a, Q a → R (f a)) : Outcome e b R (r.map f) := by
  cases b with
  | false =>
    have hr : r = .error e := h
    rw [hr]
    rfl
  | true =>
    obtain ⟨a, hr, ha⟩ := h
    rw [hr]
    exact ⟨f a, rfl, hf a ha⟩

theorem of_eq_ok {Q : α → Prop} {r : Except ε α} {a : α} (h : Outcome e b Q r) (hr : r = .ok a) :
    b = true ∧ Q a := by
  cases b with
  | false =>
    have herror : r = .error e := h
    rw [hr] at herror
    cases herror
  | true =>
    obtain ⟨a', hr', ha'⟩ := h
    rw [hr] at hr'
    cases hr'
    exact ⟨rfl, ha'⟩

/-- With the value known, the test decides whether it is what comes out. -/
theorem eq_ok_iff {a a' : α} {r : Except ε α} (h : Outcome e b (· = a) r) :
    r = .ok a' ↔ b = true ∧ a = a' := by
  cases b with
  | false =>
    have hr : r = .error e := h
    rw [hr]
    simp
  | true =>
    obtain ⟨x, hr, rfl⟩ := h
    rw [hr]
    simp

end Outcome

namespace Except

variable {ε : Type u} {α β : Type v}

/-- A sequence of two computations has a value if both have. -/
theorem bind_eq_ok_iff {r : Except ε α} {f : α → Except ε β} {b : β} :
    (r >>= f) = .ok b ↔ ∃ a, r = .ok a ∧ f a = .ok b := by
  cases r with
  | error e =>
    constructor
    · intro h
      cases h
    · rintro ⟨a, h, -⟩
      cases h
  | ok a =>
    constructor
    · intro h
      exact ⟨a, rfl, h⟩
    · rintro ⟨a', h, hf⟩
      cases h
      exact hf

def RaisesOnly (E : ε → Prop) (r : Except ε α) : Prop :=
  ∀ e, r = .error e → E e

namespace RaisesOnly

variable {E : ε → Prop}

theorem ok (a : α) : RaisesOnly E (.ok a) := by
  intro e h
  cases h

theorem error {e : ε} (h : E e) : RaisesOnly E (.error e : Except ε α) := by
  intro e' h'
  cases h'
  exact h

theorem bind {r : Except ε α} {f : α → Except ε β} (h : RaisesOnly E r)
    (hf : ∀ a, r = .ok a → RaisesOnly E (f a)) : RaisesOnly E (r >>= f) := by
  cases r with
  | error e => exact error (h e rfl)
  | ok a => exact hf a rfl

theorem map {r : Except ε α} (h : RaisesOnly E r) (f : α → β) : RaisesOnly E (r.map f) := by
  cases r with
  | error e => exact error (h e rfl)
  | ok a => exact ok (f a)

end RaisesOnly

def Ensures (Q : α → Prop) (r : Except ε α) : Prop :=
  ∀ a, r = .ok a → Q a

namespace Ensures

variable {Q : α → Prop} {R : β → Prop} {r : Except ε α}

theorem ok {a : α} (h : Q a) : Ensures Q (.ok a : Except ε α) := by
  intro a' h'
  cases h'
  exact h

theorem error (e : ε) : Ensures Q (.error e : Except ε α) := by
  intro a h
  cases h

theorem bind {f : α → Except ε β} (h : Ensures Q r) (hf : ∀ a, Q a → Ensures R (f a)) :
    Ensures R (r >>= f) := by
  intro b hb
  obtain ⟨a, ha, hb⟩ := bind_eq_ok_iff.mp hb
  exact hf a (h a ha) b hb

theorem map {f : α → β} (h : Ensures Q r) (hf : ∀ a, Q a → R (f a)) : Ensures R (r.map f) := by
  cases r with
  | error e => exact error e
  | ok a => exact ok (hf a (h a rfl))

end Ensures

end Except
