import FastDdsSh.Lib.Outcome

/-!
# Computations that report

A computation that may raise an error and reports events on the way; what it has reported survives
the error.  `Trace.Follows P E R r x` says that `x` does what the computation `r` does, which
reports nothing: it raises the same error, one of `E`, or it has a result that is related by `R`,
and all that it reports has `P`.  `Trace.Decides b F Q x` says when `x` succeeds: whenever it has a
result, it has reported nothing and the result has `Q` if the test `b` holds, and not otherwise.
-/

/-- How a computation ends, and what it has reported until then. -/
structure Trace (ω ε α : Type) where
  outcome : Except ε α
  log : List ω

namespace Trace

variable {ω ε α β γ δ : Type}

instance : Monad (Trace ω ε) where
  pure a := ⟨.ok a, []⟩
  bind x f :=
    match x.outcome with
    | .ok a => ⟨(f a).outcome, x.log ++ (f a).log⟩
    | .error e => ⟨.error e, x.log⟩

instance : MonadExceptOf ε (Trace ω ε) where
  throw e := ⟨.error e, []⟩
  tryCatch x handle :=
    match x.outcome with
    | .ok _ => x
    | .error e => ⟨(handle e).outcome, x.log ++ (handle e).log⟩

instance : MonadLift (Except ε) (Trace ω ε) where
  monadLift r := ⟨r, []⟩

def report (event : ω) : Trace ω ε PUnit :=
  ⟨.ok ⟨⟩, [event]⟩

def reportUnless (b : Bool) (event : ω) : Trace ω ε PUnit :=
  if b then pure ⟨⟩ else report event

theorem outcome_bind {x : Trace ω ε α} {a : α} (h : x.outcome = .ok a) (f : α → Trace ω ε β) :
    (x >>= f).outcome = (f a).outcome := by
  show (match x.outcome with | .ok a => _ | .error e => _ : Trace ω ε β).outcome = _
  rw [h]

theorem log_bind {x : Trace ω ε α} {a : α} (h : x.outcome = .ok a) (f : α → Trace ω ε β) :
    (x >>= f).log = x.log ++ (f a).log := by
  show (match x.outcome with | .ok a => _ | .error e => _ : Trace ω ε β).log = _
  rw [h]

theorem bind_of_error {x : Trace ω ε α} {e : ε} (h : x.outcome = .error e)
    (f : α → Trace ω ε β) : x >>= f = ⟨.error e, x.log⟩ := by
  show (match x.outcome with | .ok a => _ | .error e => _ : Trace ω ε β) = _
  rw [h]

/-- A sequence of computations has a result if each of them has one. -/
theorem outcome_bind_eq_ok_iff {x : Trace ω ε α} {f : α → Trace ω ε β} {b : β} :
    (x >>= f).outcome = .ok b ↔ ∃ a, x.outcome = .ok a ∧ (f a).outcome = .ok b := by
  cases hx : x.outcome with
  | ok a =>
    rw [outcome_bind hx]
    constructor
    · intro h
      exact ⟨a, rfl, h⟩
    · rintro ⟨a', heq, h⟩
      cases heq
      exact h
  | error e =>
    rw [bind_of_error hx]
    constructor
    · intro h
      cases h
    · rintro ⟨a, heq, -⟩
      cases heq

instance : LawfulMonad (Trace ω ε) := LawfulMonad.mk' _
  (by
    intro α x
    obtain ⟨r, log⟩ := x
    cases r with
    | ok a => exact congrArg (Trace.mk _) (List.append_nil log)
    | error e => rfl)
  (fun _ _ => rfl)
  (by
    intro α β γ x f g
    obtain ⟨r, log⟩ := x
    cases r with
    | ok a =>
      show Trace.mk (f a).outcome (log ++ (f a).log) >>= g =
        Trace.mk (f a >>= g).outcome (log ++ (f a >>= g).log)
      generalize f a = y
      obtain ⟨s, log'⟩ := y
      cases s with
      | ok b => exact congrArg (Trace.mk _) (List.append_assoc log log' _)
      | error e => rfl
    | error e => rfl)

/-! ## A computation that reports nothing -/

/-- The computation does what one without a report does, and reports nothing but events with `P`. -/
def Follows (P : ω → Prop) (E : ε → Prop) (R : α → β → Prop) (r : Except ε α)
    (x : Trace ω ε β) : Prop :=
  (∀ event ∈ x.log, P event) ∧
    match r with
    | .ok a => ∃ b, R a b ∧ x.outcome = .ok b
    | .error e => E e ∧ x.outcome = .error e

namespace Follows

variable {P : ω → Prop} {E : ε → Prop} {R : α → β → Prop} {S : γ → δ → Prop}

theorem pure {a : α} {b : β} (h : R a b) :
    Follows P E R (.ok a) (Pure.pure b : Trace ω ε β) :=
  ⟨List.forall_mem_nil _, b, h, rfl⟩

theorem throw {e : ε} (h : E e) :
    Follows P E R (.error e) (MonadExcept.throw e : Trace ω ε β) :=
  ⟨List.forall_mem_nil _, h, rfl⟩

theorem imp {r : Except ε α} {x : Trace ω ε β} {R' : α → β → Prop} (h : Follows P E R r x)
    (himp : ∀ a b, r = .ok a → R a b → R' a b) : Follows P E R' r x := by
  obtain ⟨hlog, h⟩ := h
  cases r with
  | error e => exact ⟨hlog, h⟩
  | ok a =>
    obtain ⟨b, hb, hx⟩ := h
    exact ⟨hlog, b, himp a b rfl hb, hx⟩

/-- What comes after a computation that has a result. -/
theorem bind_ok {r : Except ε γ} {x : Trace ω ε α} {a : α} {g : α → Trace ω ε δ}
    (hx : x.outcome = .ok a) (hlog : ∀ event ∈ x.log, P event) (h : Follows P E S r (g a)) :
    Follows P E S r (x >>= g) := by
  unfold Follows
  rw [outcome_bind hx, log_bind hx]
  refine ⟨fun event hevent => ?_, h.2⟩
  rcases List.mem_append.mp hevent with hevent | hevent
  · exact hlog event hevent
  · exact h.1 event hevent

theorem bind {r : Except ε α} {x : Trace ω ε β} {f : α → Except ε γ} {g : β → Trace ω ε δ}
    (h : Follows P E R r x) (hf : ∀ a b, r = .ok a → R a b → Follows P E S (f a) (g b)) :
    Follows P E S (r >>= f) (x >>= g) := by
  obtain ⟨hlog, h⟩ := h
  cases r with
  | error e =>
    rw [bind_of_error h.2]
    exact ⟨hlog, h.1, rfl⟩
  | ok a =>
    obtain ⟨b, hb, hx⟩ := h
    exact bind_ok hx hlog (hf a b rfl hb)

theorem map {r : Except ε α} {x : Trace ω ε β} {f : α → γ} {T : γ → β → Prop}
    (h : Follows P E R r x) (hf : ∀ a b, r = .ok a → R a b → T (f a) b) :
    Follows P E T (r.map f) x := by
  obtain ⟨hlog, h⟩ := h
  cases r with
  | error e => exact ⟨hlog, h⟩
  | ok a =>
    obtain ⟨b, hb, hx⟩ := h
    exact ⟨hlog, b, hf a b rfl hb, hx⟩

/-- What is done with the result afterwards neither fails nor reports anything. -/
theorem andThen {r : Except ε α} {x : Trace ω ε β} {g : β → Trace ω ε δ} {T : α → δ → Prop}
    (h : Follows P E R r x) (hg : ∀ a b, r = .ok a → R a b → ∃ d, T a d ∧ g b = Pure.pure d) :
    Follows P E T r (x >>= g) := by
  obtain ⟨hlog, h⟩ := h
  cases r with
  | error e =>
    rw [bind_of_error h.2]
    exact ⟨hlog, h.1, rfl⟩
  | ok a =>
    obtain ⟨b, hb, hx⟩ := h
    obtain ⟨d, hd, hgb⟩ := hg a b rfl hb
    apply bind_ok hx hlog
    rw [hgb]
    exact .pure hd

/-- A computation that reports nothing, taken over as it is. -/
theorem lift {r : Except ε α} (h : Except.RaisesOnly E r) :
    Follows P E (fun a b => b = a) r (liftM r : Trace ω ε α) := by
  cases r with
  | error e => exact ⟨List.forall_mem_nil _, h e rfl, rfl⟩
  | ok a => exact ⟨List.forall_mem_nil _, a, rfl, rfl⟩

/-- An event with `P` may be reported first. -/
theorem report_bind {r : Except ε α} {event : ω} (hevent : P event) {g : PUnit → Trace ω ε β}
    (h : Follows P E R r (g ⟨⟩)) : Follows P E R r (report event >>= g) :=
  bind_ok (a := ⟨⟩) rfl (List.forall_mem_singleton.mpr hevent) h

theorem reportUnless_bind {r : Except ε α} {event : ω} (hevent : P event) (b : Bool)
    {g : PUnit → Trace ω ε β} (h : Follows P E R r (g ⟨⟩)) :
    Follows P E R r (reportUnless b event >>= g) := by
  cases b with
  | true => exact h
  | false => exact report_bind hevent h

/-- What is raised is one of the errors, and what is returned is related to a result. -/
theorem of_outcome {r : Except ε α} {x : Trace ω ε β} (h : Follows P E R r x) :
    (∀ e, x.outcome = .error e → E e) ∧
      ∀ b, x.outcome = .ok b → ∃ a, r = .ok a ∧ R a b := by
  obtain ⟨-, h⟩ := h
  cases r with
  | error e =>
    rw [h.2]
    refine ⟨fun e' heq => ?_, fun b heq => (by cases heq)⟩
    cases heq
    exact h.1
  | ok a =>
    obtain ⟨b, hb, hx⟩ := h
    rw [hx]
    refine ⟨fun e heq => (by cases heq), fun b' heq => ?_⟩
    cases heq
    exact ⟨a, rfl, hb⟩

end Follows

/-! ## A computation that always reports something -/

def Reports (x : Trace ω ε α) : Prop :=
  ∀ a, x.outcome = .ok a → x.log ≠ []

theorem reports_report (event : ω) (f : PUnit → Trace ω ε α) : Reports (report event >>= f) :=
  fun _ _ => List.cons_ne_nil _ _

theorem Reports.bind {x : Trace ω ε α} (h : Reports x) (f : α → Trace ω ε β) :
    Reports (x >>= f) := by
  intro b hb
  obtain ⟨a, ha, -⟩ := outcome_bind_eq_ok_iff.mp hb
  rw [log_bind ha]
  exact List.append_ne_nil_of_left_ne_nil (h a ha) _

theorem Reports.after {f : α → Trace ω ε β} (h : ∀ a, Reports (f a)) (x : Trace ω ε α) :
    Reports (x >>= f) := by
  intro b hb
  obtain ⟨a, ha, hb⟩ := outcome_bind_eq_ok_iff.mp hb
  rw [log_bind ha]
  exact List.append_ne_nil_of_right_ne_nil _ (h a b hb)

/-! ## A computation and its test -/

/-- Whenever there is a result: with nothing reported, it has `F`, and it has `Q` if and only if the
test holds; and with the test, nothing is reported. -/
def Decides (b : Bool) (F Q : α → Prop) (x : Trace ω ε α) : Prop :=
  ∀ a, x.outcome = .ok a → (x.log = [] → F a ∧ (Q a ↔ b = true)) ∧ (b = true → x.log = [])

namespace Decides

variable {b c : Bool} {F Q : α → Prop} {x : Trace ω ε α}

theorem pure {a : α} (hF : F a) (hQ : Q a ↔ b = true) :
    Decides b F Q (Pure.pure a : Trace ω ε α) := by
  intro a' ha'
  cases ha'
  exact ⟨fun _ => ⟨hF, hQ⟩, fun _ => rfl⟩

theorem throw (e : ε) : Decides b F Q (MonadExcept.throw e : Trace ω ε α) := by
  intro a ha
  cases ha

/-- Where something is reported whatever the result, the test has to fail. -/
theorem of_reports (h : Reports x) : Decides false F Q x := by
  intro a ha
  exact ⟨fun hlog => absurd hlog (h a ha), fun heq => (by cases heq)⟩

theorem imp {G R : α → Prop} (h : Decides b F Q x)
    (himp : ∀ a, x.outcome = .ok a → F a → G a ∧ (R a ↔ Q a)) : Decides b G R x := by
  intro a ha
  obtain ⟨hclean, htest⟩ := h a ha
  refine ⟨fun hlog => ?_, htest⟩
  obtain ⟨hF, hQ⟩ := hclean hlog
  obtain ⟨hG, hR⟩ := himp a ha hF
  exact ⟨hG, hR.trans hQ⟩

theorem bind {F' Q' : β → Prop} {G R : α → β → Prop} {f : α → Trace ω ε β} (h : Decides b F Q x)
    (hf : ∀ a, F a → Decides c (G a) (R a) (f a))
    (hboth : ∀ a r, F a → G a r → F' r ∧ (Q' r ↔ Q a ∧ R a r)) :
    Decides (b && c) F' Q' (x >>= f) := by
  intro r hr
  obtain ⟨a, ha, hr⟩ := outcome_bind_eq_ok_iff.mp hr
  obtain ⟨hclean, htest⟩ := h a ha
  rw [log_bind ha, List.append_eq_nil_iff, Bool.and_eq_true]
  constructor
  · rintro ⟨hlog, hlog'⟩
    obtain ⟨hF, hQ⟩ := hclean hlog
    obtain ⟨hG, hR⟩ := (hf a hF r hr).1 hlog'
    obtain ⟨hF', hQ'⟩ := hboth a r hF hG
    exact ⟨hF', by rw [hQ', hQ, hR]⟩
  · rintro ⟨hb, hc⟩
    have hlog := htest hb
    exact ⟨hlog, (hf a (hclean hlog).1 r hr).2 hc⟩

/-- A last step that neither fails nor reports anything. -/
theorem andThen {F' Q' : β → Prop} {g : α → Trace ω ε β} {f : α → β} (h : Decides b F Q x)
    (hg : ∀ a, F a → g a = Pure.pure (f a))
    (hboth : ∀ a, F a → F' (f a) ∧ (Q' (f a) ↔ Q a)) : Decides b F' Q' (x >>= g) := by
  intro r hr
  obtain ⟨a, ha, hr⟩ := outcome_bind_eq_ok_iff.mp hr
  obtain ⟨hclean, htest⟩ := h a ha
  rw [log_bind ha, List.append_eq_nil_iff]
  constructor
  · rintro ⟨hlog, -⟩
    obtain ⟨hF, hQ⟩ := hclean hlog
    rw [hg a hF] at hr
    cases hr
    obtain ⟨hF', hQ'⟩ := hboth a hF
    exact ⟨hF', hQ'.trans hQ⟩
  · intro hb
    have hlog := htest hb
    rw [hg a (hclean hlog).1]
    exact ⟨hlog, rfl⟩

/-- A first event that is reported unless a test holds. -/
theorem reportUnless_bind (event : ω) {g : PUnit → Trace ω ε α}
    (h : c = true → Decides b F Q (g ⟨⟩)) : Decides (c && b) F Q (reportUnless c event >>= g) := by
  cases c with
  | true => exact h rfl
  | false => exact of_reports (reports_report event g)

end Decides

/-! ## A computation of one result -/

/-- If there is a result: nothing is reported exactly if the test holds, and then it is `a`. -/
def Yields (b : Bool) (a : α) (x : Trace ω ε α) : Prop :=
  Decides b (fun r => r = a) (fun _ => True) x

namespace Yields

variable {b c : Bool} {a : α} {r : β} {x : Trace ω ε α}

theorem pure (a : α) : Yields true a (Pure.pure a : Trace ω ε α) :=
  Decides.pure rfl (iff_of_true trivial rfl)

theorem throw (e : ε) : Yields b a (MonadExcept.throw e : Trace ω ε α) :=
  Decides.throw e

theorem of_reports (h : Reports x) : Yields false a x :=
  Decides.of_reports h

theorem bind {f : α → Trace ω ε β} (h : Yields b a x) (hf : Yields c r (f a)) :
    Yields (b && c) r (x >>= f) := by
  refine Decides.bind h (c := c) (G := fun _ s => s = r) (R := fun _ _ => True) ?_ ?_
  · rintro _ rfl
    exact hf
  · intro a s _ hs
    exact ⟨hs, (and_self_iff).symm⟩

/-- A last step that neither fails nor reports anything. -/
theorem andThen {f : α → Trace ω ε β} (h : Yields b a x) (hf : f a = Pure.pure r) :
    Yields b r (x >>= f) := by
  rw [← Bool.and_true b]
  refine h.bind ?_
  rw [hf]
  exact .pure r

theorem reportUnless_bind (event : ω) {g : PUnit → Trace ω ε α}
    (h : c = true → Yields b a (g ⟨⟩)) : Yields (c && b) a (reportUnless c event >>= g) :=
  Decides.reportUnless_bind event h

end Yields

end Trace
