import Mathlib.Data.List.Nodup

/-!
# Keyed stores

Maps from keys to values as lookup functions, with the operations of an ordered map container that
do not depend on the order: insertion or replacement, erasure, and the subscript that inserts a
default.  A log of writes leaves at every key the last value written to it.
-/

abbrev KeyedStore (K V : Type*) := K → Option V

namespace KeyedStore

variable {K V : Type*}

def empty : KeyedStore K V := fun _ => none

variable [DecidableEq K]

def set (m : KeyedStore K V) (k : K) (v : V) : KeyedStore K V :=
  fun k' => if k' = k then some v else m k'

def erase (m : KeyedStore K V) (k : K) : KeyedStore K V :=
  fun k' => if k' = k then none else m k'

/-- The value at a key, inserting `d` first if there is none. -/
def subscript (m : KeyedStore K V) (k : K) (d : V) : V × KeyedStore K V :=
  match m k with
  | some v => (v, m)
  | none => (d, m.set k d)

@[simp] theorem set_self (m : KeyedStore K V) (k : K) (v : V) : m.set k v k = some v :=
  if_pos rfl

theorem set_ne (m : KeyedStore K V) {k k' : K} (v : V) (h : k' ≠ k) : m.set k v k' = m k' :=
  if_neg h

/-- What is there stays where a new key is written. -/
theorem set_of_some {m : KeyedStore K V} {k k' : K} {v v' : V} (hk : m k = none)
    (h : m k' = some v) : m.set k v' k' = some v := by
  have hne : k' ≠ k := by
    intro heq
    rw [heq, hk] at h
    cases h
  rw [set_ne m v' hne, h]

theorem isSome_set (m : KeyedStore K V) {k k' : K} (v : V) (h : k' = k ∨ (m k').isSome = true) :
    (m.set k v k').isSome = true := by
  by_cases hk : k' = k
  · rw [hk, set_self]
    rfl
  · rw [set_ne m v hk]
    exact h.resolve_left hk

@[simp] theorem erase_self (m : KeyedStore K V) (k : K) : m.erase k k = none :=
  if_pos rfl

theorem erase_ne (m : KeyedStore K V) {k k' : K} (h : k' ≠ k) : m.erase k k' = m k' :=
  if_neg h

@[simp] theorem subscript_fst (m : KeyedStore K V) (k : K) (d : V) :
    (m.subscript k d).1 = (m k).getD d := by
  unfold subscript
  cases m k <;> rfl

/-- The insertion made by a subscript does not change what a later subscript reads. -/
theorem getD_subscript (m : KeyedStore K V) (k k' : K) (d : V) :
    ((m.subscript k d).2 k').getD d = (m k').getD d := by
  unfold subscript
  split
  · rfl
  · rename_i hnone
    show (m.set k d k').getD d = (m k').getD d
    by_cases h : k' = k
    · rw [h, set_self, hnone]
      rfl
    · rw [set_ne m d h]

theorem subscript_snd_of_some {m : KeyedStore K V} {k : K} {v : V} (h : m k = some v) (d : V) :
    (m.subscript k d).2 = m := by
  unfold subscript
  rw [h]

/-- An insertion changes nothing exactly if the value is there already. -/
theorem set_eq_self_iff {m : KeyedStore K V} {k : K} {v : V} : m.set k v = m ↔ m k = some v := by
  constructor
  · intro h
    rw [← h, set_self]
  · intro h
    funext k'
    by_cases hk : k' = k
    · rw [hk, set_self, h]
    · exact set_ne m v hk

/-- A subscript changes nothing exactly if the key is there. -/
theorem subscript_snd_eq_self_iff {m : KeyedStore K V} {k : K} {d : V} :
    (m.subscript k d).2 = m ↔ (m k).isSome = true := by
  cases h : m k with
  | some v =>
    rw [subscript_snd_of_some h]
    exact iff_of_true rfl rfl
  | none =>
    unfold subscript
    rw [h]
    show m.set k d = m ↔ _
    rw [set_eq_self_iff, h]
    simp

/-! ## Logs of writes -/

def writeAll (m : KeyedStore K V) (log : List (K × V)) : KeyedStore K V :=
  log.foldl (fun m e => m.set e.1 e.2) m

def lastWrite (log : List (K × V)) (k : K) : Option V :=
  match log with
  | [] => none
  | (k', v) :: log => (lastWrite log k).or (if k' = k then some v else none)

theorem writeAll_append (m : KeyedStore K V) (log log' : List (K × V)) :
    m.writeAll (log ++ log') = (m.writeAll log).writeAll log' := by
  unfold writeAll
  rw [List.foldl_append]

theorem writeAll_apply (m : KeyedStore K V) (log : List (K × V)) (k : K) :
    m.writeAll log k = (lastWrite log k).or (m k) := by
  induction log generalizing m with
  | nil => rfl
  | cons e log ih =>
    obtain ⟨k', v⟩ := e
    show (m.set k' v).writeAll log k = _
    rw [ih (m.set k' v), lastWrite]
    by_cases h : k' = k
    · subst h
      rw [set_self, if_pos rfl, Option.or_assoc]
      rfl
    · rw [set_ne m v (Ne.symm h), if_neg h, Option.or_assoc]
      rfl

/-- From an empty store, what a key holds is the last value written to it. -/
theorem writeAll_empty (log : List (K × V)) (k : K) :
    (empty : KeyedStore K V).writeAll log k = lastWrite log k := by
  rw [writeAll_apply, empty, Option.or_none]

theorem mem_of_lastWrite {log : List (K × V)} {k : K} {v : V} (h : lastWrite log k = some v) :
    (k, v) ∈ log := by
  induction log with
  | nil => cases h
  | cons e log ih =>
    obtain ⟨k', v'⟩ := e
    rw [lastWrite] at h
    rcases Option.or_eq_some_iff.mp h with h | ⟨-, h⟩
    · exact List.mem_cons_of_mem _ (ih h)
    · split at h
      · rename_i hk
        cases h
        rw [hk]
        exact List.mem_cons_self
      · cases h

theorem set_comm (m : KeyedStore K V) {k k' : K} (v v' : V) (h : k ≠ k') :
    (m.set k v).set k' v' = (m.set k' v').set k v := by
  funext x
  by_cases hx : x = k
  · rw [hx, set_ne _ _ h, set_self, set_self]
  · rw [set_ne _ _ hx]
    by_cases hx' : x = k'
    · rw [hx', set_self, set_self]
    · rw [set_ne _ _ hx', set_ne _ _ hx', set_ne _ _ hx]

/-- Writes to different keys can be made in any order. -/
theorem writeAll_perm {log log' : List (K × V)} (h : log.Perm log')
    (hkeys : (log.map Prod.fst).Nodup) (m : KeyedStore K V) : m.writeAll log = m.writeAll log' := by
  apply h.foldl_eq'
  intro e he e' he' m'
  by_cases hkey : e.1 = e'.1
  · rw [List.inj_on_of_nodup_map hkeys he he' hkey]
  · exact set_comm m' e.2 e'.2 hkey

theorem lastWrite_append (log log' : List (K × V)) (k : K) :
    lastWrite (log ++ log') k = (lastWrite log' k).or (lastWrite log k) := by
  induction log with
  | nil => exact Option.or_none.symm
  | cons e log ih =>
    obtain ⟨k', v⟩ := e
    rw [List.cons_append, lastWrite, ih, lastWrite, Option.or_assoc]

/-- A key that is written has a last value. -/
theorem lastWrite_of_mem {log : List (K × V)} {k : K} {v : V} (h : (k, v) ∈ log) :
    ∃ v', lastWrite log k = some v' := by
  induction log with
  | nil => cases h
  | cons e log ih =>
    obtain ⟨k', w⟩ := e
    rw [lastWrite]
    rcases List.mem_cons.mp h with heq | h
    · cases heq
      rw [if_pos rfl]
      cases lastWrite log k with
      | none => exact ⟨v, rfl⟩
      | some v' => exact ⟨v', rfl⟩
    · obtain ⟨v', hv'⟩ := ih h
      exact ⟨v', by rw [hv']; rfl⟩

end KeyedStore
