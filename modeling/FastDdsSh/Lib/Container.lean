import FastDdsSh.Lib.KeyedStore

/-!
# Containers

What is done with a map container by a program to which the order of the keys does not matter: to
find a value, to insert or replace one, to erase one.  Such a program cannot tell a lawful container
from the keyed store of what is found in it.
-/

class Container (M : Type → Type) (K : outParam Type) where
  find {V : Type} : M V → K → Option V
  set {V : Type} : M V → K → V → M V
  erase {V : Type} : M V → K → M V

namespace Container

variable {M : Type → Type} {K V : Type}

/-- The value at a key, inserting `d` first if there is none. -/
def subscript [Container M K] (m : M V) (k : K) (d : V) : V × M V :=
  match find m k with
  | some v => (v, m)
  | none => (d, set m k d)

def store [Container M K] (m : M V) : KeyedStore K V := find m

/-! ## Keyed stores are containers -/

variable [DecidableEq K]

instance : Container (KeyedStore K) K where
  find m := m
  set := KeyedStore.set
  erase := KeyedStore.erase

@[simp] theorem find_keyedStore (m : KeyedStore K V) (k : K) : find m k = m k := rfl

@[simp] theorem set_keyedStore (m : KeyedStore K V) (k : K) (v : V) : set m k v = m.set k v := rfl

@[simp] theorem erase_keyedStore (m : KeyedStore K V) (k : K) : erase m k = m.erase k := rfl

@[simp] theorem subscript_keyedStore (m : KeyedStore K V) (k : K) (d : V) :
    subscript m k d = m.subscript k d := rfl

end Container

/-! ## Lawful containers -/

open Container

/-- What is found after a change is what a keyed store would find. -/
class LawfulContainer (M : Type → Type) {K : Type} [DecidableEq K] [Container M K] : Prop where
  store_set {V : Type} (m : M V) (k : K) (v : V) : store (set m k v) = (store m).set k v
  store_erase {V : Type} (m : M V) (k : K) : store (erase m k) = (store m).erase k

namespace LawfulContainer

variable {M : Type → Type} {K V : Type} [DecidableEq K] [Container M K] [LawfulContainer M]

theorem subscript_store (m : M V) (k : K) (d : V) :
    (store m).subscript k d = ((subscript m k d).1, store (subscript m k d).2) := by
  unfold subscript KeyedStore.subscript
  rw [show store m k = find m k from rfl]
  cases find m k with
  | some v => rfl
  | none =>
    show (d, (store m).set k d) = (d, store (set m k d))
    rw [store_set]

end LawfulContainer
