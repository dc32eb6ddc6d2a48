import Mathlib.Data.List.Basic

/-!
# Construction and unwinding of objects

The members of an object are initialised in order, and then the body of its constructor runs.  If
the body throws, the members are destroyed in reverse order; the destructor of the object itself
does not run.  The destructor of a member can end the process.
-/

universe u

namespace Construction

variable {σ ε α β : Type u}

/-- What the initialiser of a member and its destructor do; `none` is the end of the process. -/
structure Member (σ : Type u) where
  construct : σ → σ
  destroy : σ → Option σ

def initialise (members : List (Member σ)) (s : σ) : σ :=
  members.foldl (fun s m => m.construct s) s

def unwind : List (Member σ) → σ → Option σ
  | [], s => some s
  | m :: ms, s => (m.destroy s).bind (unwind ms)

def build (members : List (Member σ)) (body : EStateM ε σ α) (s : σ) :
    Option (EStateM.Result ε σ α) :=
  match body (initialise members s) with
  | .ok a s => some (.ok a s)
  | .error e s => (unwind members.reverse s).map (.error e)

/-! ## What a body leaves alone -/

def Keeps (I : σ → Prop) (body : EStateM ε σ α) : Prop :=
  ∀ s, I s → match body s with
    | .ok _ s' => I s'
    | .error _ s' => I s'

variable {I : σ → Prop}

theorem Keeps.pure (a : α) : Keeps I (Pure.pure a : EStateM ε σ α) :=
  fun _ h => h

theorem Keeps.throw (e : ε) : Keeps I (throw e : EStateM ε σ α) :=
  fun _ h => h

theorem Keeps.get : Keeps I (get : EStateM ε σ σ) :=
  fun _ h => h

theorem Keeps.modify {f : σ → σ} (h : ∀ s, I s → I (f s)) :
    Keeps I (modify f : EStateM ε σ PUnit) :=
  fun s hs => h s hs

theorem Keeps.bind {body : EStateM ε σ α} {f : α → EStateM ε σ β} (h : Keeps I body)
    (hf : ∀ a, Keeps I (f a)) : Keeps I (body >>= f) := by
  intro s hs
  have hbody := h s hs
  show match EStateM.bind body f s with | .ok _ s' => I s' | .error _ s' => I s'
  unfold EStateM.bind
  cases hresult : body s with
  | ok a s' =>
    rw [hresult] at hbody
    exact hf a s' hbody
  | error e s' =>
    rw [hresult] at hbody
    exact hbody

theorem Keeps.ite {p : Prop} [Decidable p] {body body' : EStateM ε σ α} (h : Keeps I body)
    (h' : Keeps I body') : Keeps I (if p then body else body') := by
  by_cases hp : p
  · rw [if_pos hp]
    exact h
  · rw [if_neg hp]
    exact h'

/-- A check that throws, before the rest of the body. -/
theorem Keeps.throwIf {p : Prop} [Decidable p] {e : ε} {rest : PUnit → EStateM ε σ α}
    (h : ∀ r, Keeps I (rest r)) :
    Keeps I (if p then (MonadExcept.throw e : EStateM ε σ PUnit) >>= rest else rest ⟨⟩) :=
  Keeps.ite (Keeps.bind (Keeps.throw e) h) (h ⟨⟩)

/-! ## What a body brings about -/

/-- From a state with `P` the computation returns with `Q`, or throws with `E`. -/
def Triple (P : σ → Prop) (body : EStateM ε σ α) (Q : α → σ → Prop) (E : σ → Prop) : Prop :=
  ∀ s, P s → match body s with
    | .ok a s' => Q a s'
    | .error _ s' => E s'

namespace Triple

variable {P P' F : σ → Prop} {Q Q' : α → σ → Prop} {R : β → σ → Prop}

theorem pure {a : α} (h : ∀ s, P s → Q a s) : Triple P (Pure.pure a : EStateM ε σ α) Q F :=
  h

theorem throw {e : ε} (h : ∀ s, P s → F s) :
    Triple P (MonadExcept.throw e : EStateM ε σ α) Q F :=
  h

theorem get {Q : σ → σ → Prop} (h : ∀ s, P s → Q s s) :
    Triple P (MonadState.get : EStateM ε σ σ) Q F :=
  h

theorem modify {f : σ → σ} {Q : PUnit → σ → Prop} (h : ∀ s, P s → Q ⟨⟩ (f s)) :
    Triple P (modify f : EStateM ε σ PUnit) Q F :=
  h

theorem imp {body : EStateM ε σ α} (h : Triple P body Q F) (hpre : ∀ s, P' s → P s)
    (hpost : ∀ a s, Q a s → Q' a s) : Triple P' body Q' F := by
  intro s hs
  have hbody := h s (hpre s hs)
  cases hresult : body s with
  | ok a s' =>
    rw [hresult] at hbody
    exact hpost a s' hbody
  | error e s' =>
    rw [hresult] at hbody
    exact hbody

theorem bind {body : EStateM ε σ α} {f : α → EStateM ε σ β} (h : Triple P body Q F)
    (hf : ∀ a, Triple (Q a) (f a) R F) : Triple P (body >>= f) R F := by
  intro s hs
  have hbody := h s hs
  show match EStateM.bind body f s with | .ok a s' => R a s' | .error _ s' => F s'
  unfold EStateM.bind
  cases hresult : body s with
  | ok a s' =>
    rw [hresult] at hbody
    exact hf a s' hbody
  | error e s' =>
    rw [hresult] at hbody
    exact hbody

theorem ite {p : Prop} [Decidable p] {body body' : EStateM ε σ α} (h : Triple P body Q F)
    (h' : Triple P body' Q F) : Triple P (if p then body else body') Q F := by
  by_cases hp : p
  · rw [if_pos hp]
    exact h
  · rw [if_neg hp]
    exact h'

/-- A fact of the precondition that is not about the state. -/
theorem of_and {p : Prop} {body : EStateM ε σ α} (h : p → Triple P body Q F) :
    Triple (fun s => P s ∧ p) body Q F :=
  fun s hs => h hs.2 s hs.1

theorem throw_bind {e : ε} {f : β → EStateM ε σ α} (h : ∀ s, P s → F s) :
    Triple P ((MonadExcept.throw e : EStateM ε σ β) >>= f) Q F :=
  bind (Q := fun _ _ => False) (throw h) fun _ _ hfalse => hfalse.elim

theorem of_eq_ok {body : EStateM ε σ α} (h : Triple P body Q F) {s s' : σ} {a : α} (hs : P s)
    (hbody : body s = .ok a s') : Q a s' := by
  have hend := h s hs
  rw [hbody] at hend
  exact hend

theorem of_eq_error {body : EStateM ε σ α} (h : Triple P body Q F) {s s' : σ} {e : ε}
    (hs : P s) (hbody : body s = .error e s') : F s' := by
  have hend := h s hs
  rw [hbody] at hend
  exact hend

end Triple

/-! ## Bodies that throw -/

def Raises (E : ε → Prop) (body : EStateM ε σ α) (s : σ) : Prop :=
  ∃ e s', body s = .error e s' ∧ E e

variable {E : ε → Prop} {s s' : σ}

theorem Raises.bind_left {body : EStateM ε σ α} {f : α → EStateM ε σ β} (h : Raises E body s) :
    Raises E (body >>= f) s := by
  obtain ⟨e, s', herror, he⟩ := h
  refine ⟨e, s', ?_, he⟩
  show EStateM.bind body f s = _
  unfold EStateM.bind
  rw [herror]

theorem Raises.bind_right {body : EStateM ε σ α} {f : α → EStateM ε σ β} {a : α}
    (hbody : body s = .ok a s') (h : Raises E (f a) s') : Raises E (body >>= f) s := by
  obtain ⟨e, s'', herror, he⟩ := h
  refine ⟨e, s'', ?_, he⟩
  show EStateM.bind body f s = _
  unfold EStateM.bind
  rw [hbody]
  exact herror

/-! ## A member whose destructor ends the process -/

theorem unwind_eq_none {before after : List (Member σ)} {m : Member σ} {s : σ} (h : I s)
    (hbefore : ∀ m' ∈ before, ∀ s s', I s → m'.destroy s = some s' → I s')
    (hm : ∀ s, I s → m.destroy s = none) : unwind (before ++ m :: after) s = none := by
  induction before generalizing s with
  | nil =>
    rw [List.nil_append, unwind, hm s h]
    rfl
  | cons m' before ih =>
    rw [List.cons_append, unwind]
    cases hdestroy : m'.destroy s with
    | none => rfl
    | some s' =>
      have hs' := hbefore m' List.mem_cons_self s s' h hdestroy
      exact ih hs' fun m'' hm'' => hbefore m'' (List.mem_cons_of_mem _ hm'')

/-- The process ends if the body throws while the destructor of such a member would end it; the
members after it do not matter, nor does what the body was about. -/
theorem build_eq_none {before after : List (Member σ)} {m : Member σ} {body : EStateM ε σ α}
    {s s' : σ} {e : ε} (h : I (initialise (before ++ m :: after) s)) (hbody : Keeps I body)
    (hafter : ∀ m' ∈ after, ∀ s s', I s → m'.destroy s = some s' → I s')
    (hm : ∀ s, I s → m.destroy s = none)
    (hthrow : body (initialise (before ++ m :: after) s) = .error e s') :
    build (before ++ m :: after) body s = none := by
  have hs' : I s' := by
    have hend := hbody _ h
    rw [hthrow] at hend
    exact hend
  unfold build
  simp only [hthrow]
  rw [List.reverse_append, List.reverse_cons, List.append_assoc, List.singleton_append,
    unwind_eq_none hs' (fun m' hm' => hafter m' (List.mem_reverse.mp hm')) hm]
  rfl

end Construction
