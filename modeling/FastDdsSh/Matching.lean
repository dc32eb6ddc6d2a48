import FastDdsSh.Lib.Transition

/-!
# The gate on the service mutex

`Server` and `Client` lock `mtx_` in their constructors, "until datareader and datawriter have
matched".  `on_publication_matched` and `on_subscription_matched` count the matches of both
endpoints in `pub_sub_matched_` and release `mtx_` each time the count rises to two.  A step is a
match or unmatch with the listener call it makes, which `matched_mtx_` keeps in one piece, or an
entry to or exit from a critical section of `mtx_`.
-/

namespace FastDdsSh.Matching

open Transition

inductive Service where
  | server
  | client
  deriving DecidableEq, Repr

/-- The critical sections of `mtx_`: `call_service`, `receive` before and after the conversion of
the reply, `receive_response`, `receive` of a request. -/
inductive CriticalSection where
  | callService
  | lookupCall
  | deliverReply
  | receiveResponse
  | registerRequest
  deriving DecidableEq, Repr

def CriticalSection.service : CriticalSection → Service
  | callService | lookupCall | deliverReply => .server
  | receiveResponse | registerRequest => .client

/-- Who holds `mtx_`: the constructor until the gate opens, or a thread in a critical section. -/
inductive Holder where
  | constructor
  | thread (id : Nat)
  deriving DecidableEq, Repr

inductive Endpoint where
  | writer
  | reader
  deriving DecidableEq, Repr

/-- A call of `mtx_.unlock()` by a listener: who held the mutex, and how many peers were matched. -/
structure Unlock where
  holder : Option Holder
  writerPeers : Nat
  readerPeers : Nat
  deriving DecidableEq, Repr

/-- The members that take part, the threads in critical sections, the remote peers the DDS library
has matched with each endpoint, and a ghost: the unlocks made by the listeners so far. -/
structure State where
  mtx : Option Holder
  pubSubMatched : UInt8
  inside : List (Nat × CriticalSection)
  writerPeers : List Nat
  readerPeers : List Nat
  unlocks : List Unlock
  deriving DecidableEq

/-- Past `mtx_.lock()`, which comes before the endpoints are created. -/
def State.initial : State where
  mtx := some .constructor
  pubSubMatched := 0
  inside := []
  writerPeers := []
  readerPeers := []
  unlocks := []

inductive Event where
  | matched (endpoint : Endpoint) (peer : Nat)
  | unmatched (endpoint : Endpoint) (peer : Nat)
  | enter (id : Nat) (criticalSection : CriticalSection)
  | leave (id : Nat)
  deriving DecidableEq, Repr

namespace State

/-- `mtx_.unlock()` by a listener, whoever holds the mutex. -/
def unlockMtx (s : State) : State :=
  { s with
    mtx := none
    unlocks := s.unlocks ++ [⟨s.mtx, s.writerPeers.length, s.readerPeers.length⟩] }

end State

def onMatched (s : State) (currentCountChange : Int) : State :=
  if currentCountChange = 1 then
    let s := { s with pubSubMatched := s.pubSubMatched + 1 }
    if s.pubSubMatched = 2 then s.unlockMtx else s
  else if currentCountChange = -1 then
    { s with pubSubMatched := s.pubSubMatched - 1 }
  else s

def onPublicationMatched (s : State) (currentCountChange : Int) : State :=
  onMatched s currentCountChange

def onSubscriptionMatched (s : State) (currentCountChange : Int) : State :=
  onMatched s currentCountChange

/-- The DDS library announces a peer once when it comes and once when it goes. -/
def step (service : Service) (s : State) : Event → Option State
  | .matched .writer peer =>
      if peer ∈ s.writerPeers then none
      else some (onPublicationMatched { s with writerPeers := peer :: s.writerPeers } 1)
  | .matched .reader peer =>
      if peer ∈ s.readerPeers then none
      else some (onSubscriptionMatched { s with readerPeers := peer :: s.readerPeers } 1)
  | .unmatched .writer peer =>
      if peer ∈ s.writerPeers then
        some (onPublicationMatched { s with writerPeers := s.writerPeers.erase peer } (-1))
      else none
  | .unmatched .reader peer =>
      if peer ∈ s.readerPeers then
        some (onSubscriptionMatched { s with readerPeers := s.readerPeers.erase peer } (-1))
      else none
  -- `mtx_` is locked in the critical section
  | .enter id c =>
      if c.service = service ∧ s.mtx = none ∧ id ∉ s.inside.map Prod.fst then
        some { s with mtx := some (.thread id), inside := (id, c) :: s.inside }
      else none
  -- the lock guard unlocks, whoever holds the mutex by now
  | .leave id =>
      if id ∈ s.inside.map Prod.fst then
        some { s with mtx := none, inside := s.inside.filter fun t => t.1 ≠ id }
      else none

def machine (service : Service) : Machine State Event where
  init s := s = .initial
  step := step service

/-! ## What one step does -/

def Endpoint.withMatch : Endpoint → Nat × Nat → Nat × Nat
  | writer, (w, r) => (w + 1, r)
  | reader, (w, r) => (w, r + 1)

def Endpoint.withUnmatch : Endpoint → Nat × Nat → Nat × Nat
  | writer, (w, r) => (w - 1, r)
  | reader, (w, r) => (w, r - 1)

def State.counts (s : State) : Nat × Nat :=
  (s.writerPeers.length, s.readerPeers.length)

def Counted (s : State) : Prop :=
  s.pubSubMatched.toNat = (s.counts.1 + s.counts.2) % 256

theorem counted_initial : Counted .initial := rfl

theorem rises_iff {s : State} (h : Counted s) :
    s.pubSubMatched + 1 = 2 ↔ (s.counts.1 + s.counts.2) % 256 = 1 := by
  -- the count is a byte, so it comes to two again with 257 peers
  rw [← UInt8.toNat_inj, UInt8.toNat_add, h]
  show ((s.counts.1 + s.counts.2) % 256 + 1) % 256 = 2 ↔ _
  omega

variable {service : Service} {s s' : State}

theorem onMatched_one (s : State) :
    onMatched s 1 =
      if s.pubSubMatched + 1 = 2 then
        ({ s with pubSubMatched := s.pubSubMatched + 1 } : State).unlockMtx
      else { s with pubSubMatched := s.pubSubMatched + 1 } := rfl

theorem onMatched_one_counts (s : State) : (onMatched s 1).counts = s.counts := by
  rw [onMatched_one]
  split <;> rfl

theorem onMatched_one_pubSubMatched (s : State) :
    (onMatched s 1).pubSubMatched = s.pubSubMatched + 1 := by
  rw [onMatched_one]
  split <;> rfl

theorem onMatched_one_inside (s : State) : (onMatched s 1).inside = s.inside := by
  rw [onMatched_one]
  split <;> rfl

/-- The listener releases the mutex when the count rises to two, and only then. -/
theorem onMatched_one_of_rises (h : s.pubSubMatched + 1 = 2) :
    (onMatched s 1).mtx = none ∧
      (onMatched s 1).unlocks = s.unlocks ++ [⟨s.mtx, s.counts.1, s.counts.2⟩] := by
  have hunlock : onMatched s 1 =
      ({ s with pubSubMatched := s.pubSubMatched + 1 } : State).unlockMtx := if_pos h
  rw [hunlock]
  exact ⟨rfl, rfl⟩

theorem onMatched_one_of_not_rises (h : s.pubSubMatched + 1 ≠ 2) :
    (onMatched s 1).mtx = s.mtx ∧ (onMatched s 1).unlocks = s.unlocks := by
  have hkeep : onMatched s 1 = { s with pubSubMatched := s.pubSubMatched + 1 } := if_neg h
  rw [hkeep]
  exact ⟨rfl, rfl⟩

/-- A match is a listener call in a state with one more peer. -/
theorem step_matched {e : Endpoint} {peer : Nat}
    (h : step service s (.matched e peer) = some s') :
    ∃ t : State, t.counts = e.withMatch s.counts ∧ t.pubSubMatched = s.pubSubMatched ∧
      t.mtx = s.mtx ∧ t.unlocks = s.unlocks ∧ t.inside = s.inside ∧ s' = onMatched t 1 := by
  cases e with
  | writer =>
    rw [step] at h
    split at h
    · cases h
    · exact ⟨{ s with writerPeers := peer :: s.writerPeers }, rfl, rfl, rfl, rfl,
        rfl, (Option.some.inj h).symm⟩
  | reader =>
    rw [step] at h
    split at h
    · cases h
    · exact ⟨{ s with readerPeers := peer :: s.readerPeers }, rfl, rfl, rfl, rfl,
        rfl, (Option.some.inj h).symm⟩

/-- An unmatch changes the counts only, and there was a peer. -/
theorem step_unmatched {e : Endpoint} {peer : Nat}
    (h : step service s (.unmatched e peer) = some s') :
    s'.counts = e.withUnmatch s.counts ∧ 0 < s.counts.1 + s.counts.2 ∧
      s'.counts.1 + s'.counts.2 + 1 = s.counts.1 + s.counts.2 ∧
      s'.pubSubMatched = s.pubSubMatched - 1 ∧ s'.mtx = s.mtx ∧ s'.unlocks = s.unlocks ∧
      s'.inside = s.inside := by
  cases e with
  | writer =>
    rw [step] at h
    split at h
    · rename_i hpeer
      cases h
      have hlength := List.length_erase_of_mem hpeer
      have hpos := List.length_pos_of_mem hpeer
      refine ⟨?_, ?_, ?_, rfl, rfl, rfl, rfl⟩
      · show ((s.writerPeers.erase peer).length, _) = _
        rw [hlength]
        rfl
      · show 0 < s.writerPeers.length + _
        omega
      · show (s.writerPeers.erase peer).length + s.readerPeers.length + 1 =
          s.writerPeers.length + s.readerPeers.length
        omega
    · cases h
  | reader =>
    rw [step] at h
    split at h
    · rename_i hpeer
      cases h
      have hlength := List.length_erase_of_mem hpeer
      have hpos := List.length_pos_of_mem hpeer
      refine ⟨?_, ?_, ?_, rfl, rfl, rfl, rfl⟩
      · show (_, (s.readerPeers.erase peer).length) = _
        rw [hlength]
        rfl
      · show 0 < _ + s.readerPeers.length
        omega
      · show s.writerPeers.length + (s.readerPeers.erase peer).length + 1 =
          s.writerPeers.length + s.readerPeers.length
        omega
    · cases h

/-- A critical section takes a free mutex, and leaves it free. -/
theorem step_enter {id : Nat} {c : CriticalSection}
    (h : step service s (.enter id c) = some s') :
    s.mtx = none ∧ s'.mtx = some (.thread id) ∧ s'.counts = s.counts ∧
      s'.pubSubMatched = s.pubSubMatched ∧ s'.unlocks = s.unlocks := by
  rw [step] at h
  split at h
  · rename_i hfree
    cases h
    exact ⟨hfree.2.1, rfl, rfl, rfl, rfl⟩
  · cases h

theorem step_leave {id : Nat} (h : step service s (.leave id) = some s') :
    s'.mtx = none ∧ s'.counts = s.counts ∧ s'.pubSubMatched = s.pubSubMatched ∧
      s'.unlocks = s.unlocks ∧ id ∈ s.inside.map Prod.fst := by
  rw [step] at h
  split at h
  · rename_i hin
    cases h
    exact ⟨rfl, rfl, rfl, rfl, hin⟩
  · cases h

theorem Counted.step {a : Event} (h : Counted s) (hstep : step service s a = some s') :
    Counted s' := by
  cases a with
  | matched e peer =>
    obtain ⟨t, hcounts, hmatched, -, -, -, rfl⟩ := step_matched hstep
    unfold Counted
    rw [onMatched_one_counts, onMatched_one_pubSubMatched, hcounts, hmatched, UInt8.toNat_add, h]
    cases e <;> simp only [Endpoint.withMatch] <;> show (_ % 256 + 1) % 256 = _ <;> omega
  | unmatched e peer =>
    obtain ⟨-, hpos, hsum, hmatched, -, -, -⟩ := step_unmatched hstep
    unfold Counted
    -- there was a peer, so the count does not wrap
    rw [hmatched, UInt8.toNat_sub, h]
    show (2 ^ 8 - 1 + (s.counts.1 + s.counts.2) % 256) % 2 ^ 8 = _
    omega
  | enter id c =>
    obtain ⟨-, -, hcounts, hmatched, -⟩ := step_enter hstep
    unfold Counted
    rw [hcounts, hmatched, h]
  | leave id =>
    obtain ⟨-, hcounts, hmatched, -, -⟩ := step_leave hstep
    unfold Counted
    rw [hcounts, hmatched, h]

/-! ## Who unlocks what -/

/-- The listeners' unlocks so far: each one while the constructor's lock was in force, none while
the mutex was free or held by a critical section, and one at most. -/
structure OwnedUnlocks (s : State) : Prop where
  owned : ∀ u ∈ s.unlocks, u.holder = some .constructor
  notFree : ∀ u ∈ s.unlocks, u.holder ≠ none
  notStolen : ∀ u ∈ s.unlocks, ∀ id, u.holder ≠ some (.thread id)
  once : s.unlocks.length ≤ 1

/-- The lock of the constructor is in force until the first unlock, and never again; no thread is in
a critical section before. -/
structure Gate (s : State) : Prop where
  counted : Counted s
  closed : s.unlocks = [] → s.mtx = some .constructor ∧ s.inside = []
  opened : s.unlocks ≠ [] → s.mtx ≠ some .constructor
  first : ∀ u rest, s.unlocks = u :: rest →
    u.holder = some .constructor ∧ ∀ u ∈ rest, u.holder ≠ some .constructor

theorem gate_initial : Gate .initial where
  counted := counted_initial
  closed := fun _ => ⟨rfl, rfl⟩
  opened := fun h => absurd rfl h
  first := fun _ _ h => by cases h

/-- A step without an unlock by a listener; where it changes the mutex the gate is open. -/
theorem Gate.of_same {t : State} (h : Gate s) (hcounted : Counted t)
    (hunlocks : t.unlocks = s.unlocks)
    (hmtx : (t.mtx = s.mtx ∧ t.inside = s.inside) ∨
      (s.unlocks ≠ [] ∧ t.mtx ≠ some .constructor)) : Gate t where
  counted := hcounted
  closed := by
    rw [hunlocks]
    intro hnil
    rcases hmtx with ⟨hmtx, hinside⟩ | ⟨hne, -⟩
    · rw [hmtx, hinside]
      exact h.closed hnil
    · exact absurd hnil hne
  opened := by
    rw [hunlocks]
    intro hne
    rcases hmtx with ⟨hmtx, -⟩ | ⟨-, hmtx⟩
    · rw [hmtx]
      exact h.opened hne
    · exact hmtx
  first := by
    rw [hunlocks]
    exact h.first

/-- One more unlock by a listener. -/
theorem Gate.of_unlock {t : State} {w r : Nat} (h : Gate s) (hcounted : Counted t)
    (hunlocks : t.unlocks = s.unlocks ++ [⟨s.mtx, w, r⟩]) (hmtx : t.mtx = none) : Gate t where
  counted := hcounted
  closed := by
    rw [hunlocks]
    intro hnil
    exact absurd hnil (List.append_ne_nil_of_right_ne_nil _ (List.cons_ne_nil _ _))
  opened := by
    rw [hmtx]
    intro _ hcon
    cases hcon
  first := by
    rw [hunlocks]
    intro u rest heq
    cases hs : s.unlocks with
    | nil =>
      rw [hs] at heq
      cases heq
      -- the first unlock: the constructor's lock was in force until now
      exact ⟨(h.closed hs).1, List.forall_mem_nil _⟩
    | cons u' rest' =>
      rw [hs] at heq
      cases heq
      -- any later one finds the mutex free or in a critical section
      obtain ⟨hfirst, hrest⟩ := h.first u rest' hs
      refine ⟨hfirst, ?_⟩
      intro v hv
      rcases List.mem_append.mp hv with hv | hv
      · exact hrest v hv
      · rw [List.mem_singleton.mp hv]
        exact h.opened (by rw [hs]; exact List.cons_ne_nil _ _)

theorem Gate.step {a : Event} (h : Gate s) (hstep : step service s a = some s') : Gate s' := by
  have hcounted := h.counted.step hstep
  cases a with
  | matched e peer =>
    obtain ⟨t, -, -, hmtx, hunlocks, hinside, rfl⟩ := step_matched hstep
    by_cases hrises : t.pubSubMatched + 1 = 2
    · obtain ⟨hfree, hnew⟩ := onMatched_one_of_rises hrises
      rw [hunlocks, hmtx] at hnew
      exact h.of_unlock hcounted hnew hfree
    · obtain ⟨hkept, hsame⟩ := onMatched_one_of_not_rises hrises
      refine h.of_same hcounted (hsame.trans hunlocks) (.inl ⟨hkept.trans hmtx, ?_⟩)
      rw [onMatched_one_inside, hinside]
  | unmatched e peer =>
    obtain ⟨-, -, -, -, hmtx, hunlocks, hinside⟩ := step_unmatched hstep
    exact h.of_same hcounted hunlocks (.inl ⟨hmtx, hinside⟩)
  | enter id c =>
    obtain ⟨hfree, hmtx, -, -, hunlocks⟩ := step_enter hstep
    -- a critical section can only be entered once the constructor's lock is gone
    have hopen : s.unlocks ≠ [] := by
      intro hnil
      have hclosed := (h.closed hnil).1
      rw [hfree] at hclosed
      cases hclosed
    refine h.of_same hcounted hunlocks (.inr ⟨hopen, ?_⟩)
    rw [hmtx]
    intro hcon
    cases hcon
  | leave id =>
    obtain ⟨hmtx, -, -, hunlocks, hin⟩ := step_leave hstep
    have hopen : s.unlocks ≠ [] := by
      intro hnil
      rw [(h.closed hnil).2] at hin
      cases hin
    refine h.of_same hcounted hunlocks (.inr ⟨hopen, ?_⟩)
    rw [hmtx]
    intro hcon
    cases hcon

/-- One unlock at most is all that is asked: the first one releases the lock of the constructor. -/
theorem Gate.ownedUnlocks_iff (h : Gate s) : OwnedUnlocks s ↔ s.unlocks.length ≤ 1 := by
  constructor
  · exact fun howned => howned.once
  · intro honce
    have howned : ∀ u ∈ s.unlocks, u.holder = some .constructor := by
      cases hs : s.unlocks with
      | nil => exact List.forall_mem_nil _
      | cons u rest =>
        rw [hs, List.length_cons] at honce
        have hrest : rest = [] := List.eq_nil_of_length_eq_zero (by omega)
        rw [hrest, List.forall_mem_singleton]
        exact (h.first u rest hs).1
    refine ⟨howned, ?_, ?_, honce⟩
    · intro u hu hfree
      rw [howned u hu] at hfree
      cases hfree
    · intro u hu id hthread
      rw [howned u hu] at hthread
      cases hthread

/-! ## How often the gate opens -/

/-- How many of the matches arrive while the number of matched peers is one, or one more than a
multiple of 256, if there are `n` matched peers before the events. -/
def rises : Nat → List Event → Nat
  | _, [] => 0
  | n, .matched _ _ :: as => (if n % 256 = 1 then 1 else 0) + rises (n + 1) as
  | n, .unmatched _ _ :: as => rises (n - 1) as
  | n, .enter _ _ :: as | n, .leave _ :: as => rises n as

theorem Endpoint.withMatch_sum (e : Endpoint) (c : Nat × Nat) :
    (e.withMatch c).1 + (e.withMatch c).2 = c.1 + c.2 + 1 := by
  cases e <;> simp only [withMatch] <;> omega

/-- The listeners unlock once for every match that makes the count two. -/
theorem length_unlocks_of_run {as : List Event} (h : Counted s)
    (hrun : (machine service).run s as = some s') :
    s'.unlocks.length = s.unlocks.length + rises (s.counts.1 + s.counts.2) as := by
  -- on the events, with the number of peers that each finds
  induction as generalizing s with
  | nil =>
    obtain rfl : s = s' := by simpa using hrun
    rfl
  | cons a as ih =>
    rw [Machine.run_cons] at hrun
    obtain ⟨t, hstep, hrest⟩ := Option.bind_eq_some_iff.mp hrun
    replace hstep : step service s a = some t := hstep
    have hrec := ih (h.step hstep) hrest
    rw [hrec]
    cases a with
    | matched e peer =>
      obtain ⟨u, hcounts, hmatched, -, hunlocks, -, rfl⟩ := step_matched hstep
      rw [onMatched_one_counts, hcounts, Endpoint.withMatch_sum, rises]
      have hrises := rises_iff h
      rw [← hmatched] at hrises
      -- a match adds an unlock if it is the one that makes the count two
      by_cases hrise : u.pubSubMatched + 1 = 2
      · rw [(onMatched_one_of_rises hrise).2, if_pos (hrises.mp hrise), hunlocks,
          List.length_append, List.length_singleton]
        omega
      · rw [(onMatched_one_of_not_rises hrise).2, if_neg fun hone => hrise (hrises.mpr hone),
          hunlocks]
        omega
    | unmatched e peer =>
      obtain ⟨-, -, hsum, -, -, hunlocks, -⟩ := step_unmatched hstep
      rw [hunlocks, rises, ← hsum, Nat.add_sub_cancel]
    | enter id c =>
      obtain ⟨-, -, hcounts, -, hunlocks⟩ := step_enter hstep
      rw [hcounts, hunlocks, rises]
    | leave id =>
      obtain ⟨-, hcounts, -, hunlocks, -⟩ := step_leave hstep
      rw [hcounts, hunlocks, rises]

theorem Gate.run {as : List Event} (h : Gate s) (hrun : (machine service).run s as = some s') :
    Gate s' :=
  Machine.invariant_of_run h (fun _ _ _ h hstep => h.step hstep) as hrun

/-- The listeners release a lock that they do not own exactly in the runs in which the number of
matched peers, taken modulo 256, rises to two a second time. -/
theorem ownedUnlocks_iff_rises {as : List Event}
    (hrun : (machine service).run .initial as = some s) :
    OwnedUnlocks s ↔ rises 0 as ≤ 1 := by
  have hlength := length_unlocks_of_run counted_initial hrun
  have hzero : rises (State.initial.counts.1 + State.initial.counts.2) as = rises 0 as := rfl
  rw [(gate_initial.run hrun).ownedUnlocks_iff, hlength, hzero]
  show 0 + rises 0 as ≤ 1 ↔ _
  omega

/-- Both endpoints matched, a second match of the reader while a thread is in `call_service`. -/
def rematchRun : List Event :=
  [.matched .writer 1, .matched .reader 1, .enter 0 .callService, .unmatched .reader 1,
    .matched .reader 1]

theorem ownedUnlocks_oneHandshake :
    ∃ s, (machine .server).run .initial [.matched .writer 1, .matched .reader 1] = some s ∧
      OwnedUnlocks s :=
  ⟨_, rfl, (@ownedUnlocks_iff_rises .server _ [.matched .writer 1, .matched .reader 1] rfl).mpr
    (by decide)⟩

/-- A peer that leaves and returns makes the listener release the lock of a critical section. -/
theorem not_ownedUnlocks_rematchRun :
    (∃ s, (machine .server).run .initial rematchRun = some s ∧
      s.unlocks = [⟨some .constructor, 1, 1⟩, ⟨some (.thread 0), 1, 1⟩] ∧ ¬ OwnedUnlocks s) ∧
    ∃ s, (machine .client).run .initial
        [.matched .reader 1, .matched .writer 1, .unmatched .writer 1, .matched .writer 1] =
          some s ∧
      s.unlocks = [⟨some .constructor, 1, 1⟩, ⟨none, 1, 1⟩] ∧ ¬ OwnedUnlocks s := by
  refine ⟨⟨_, rfl, rfl, ?_⟩, ⟨_, rfl, rfl, ?_⟩⟩
  · exact fun h => absurd h.once (by decide)
  · exact fun h => absurd h.once (by decide)

/-! ## Which matches open the gate -/

def OpenedMatched (s : State) : Prop :=
  ∀ u ∈ s.unlocks, u.holder = some .constructor → 1 ≤ u.writerPeers ∧ 1 ≤ u.readerPeers

/-- The first match that arrives while one peer is matched is with the other endpoint than that
peer's; `c` are the numbers of peers before the events. -/
def meets : Nat × Nat → List Event → Bool
  | _, [] => true
  | c, .matched e _ :: as =>
      if c.1 + c.2 = 1 then
        match e with
        | .writer => decide (c.2 = 1)
        | .reader => decide (c.1 = 1)
      else meets (e.withMatch c) as
  | c, .unmatched e _ :: as => meets (e.withUnmatch c) as
  | c, .enter _ _ :: as | c, .leave _ :: as => meets c as

/-- Once the gate is open, whether it was opened well does not change any more. -/
theorem openedMatched_step_iff {a : Event} (h : Gate s) (hopen : s.unlocks ≠ [])
    (hstep : step service s a = some s') :
    s'.unlocks ≠ [] ∧ (OpenedMatched s' ↔ OpenedMatched s) := by
  have hsame {t : State} (hunlocks : t.unlocks = s.unlocks) :
      t.unlocks ≠ [] ∧ (OpenedMatched t ↔ OpenedMatched s) := by
    unfold OpenedMatched
    rw [hunlocks]
    exact ⟨hopen, Iff.rfl⟩
  cases a with
  | matched e peer =>
    obtain ⟨t, -, -, hmtx, hunlocks, -, rfl⟩ := step_matched hstep
    by_cases hrises : t.pubSubMatched + 1 = 2
    · have hnew := (onMatched_one_of_rises hrises).2
      rw [hunlocks, hmtx] at hnew
      unfold OpenedMatched
      rw [hnew]
      refine ⟨List.append_ne_nil_of_right_ne_nil _ (List.cons_ne_nil _ _), ?_⟩
      rw [List.forall_mem_append, List.forall_mem_singleton]
      -- a later unlock does not release the constructor's lock
      exact and_iff_left fun hholder => absurd hholder (h.opened hopen)
    · exact hsame ((onMatched_one_of_not_rises hrises).2.trans hunlocks)
  | unmatched e peer =>
    obtain ⟨-, -, -, -, -, hunlocks, -⟩ := step_unmatched hstep
    exact hsame hunlocks
  | enter id c =>
    obtain ⟨-, -, -, -, hunlocks⟩ := step_enter hstep
    exact hsame hunlocks
  | leave id =>
    obtain ⟨-, -, -, hunlocks, -⟩ := step_leave hstep
    exact hsame hunlocks

theorem openedMatched_run_iff {as : List Event} (h : Gate s) (hopen : s.unlocks ≠ [])
    (hrun : (machine service).run s as = some s') : OpenedMatched s' ↔ OpenedMatched s := by
  have hkeep : Gate s' ∧ s'.unlocks ≠ [] ∧ (OpenedMatched s' ↔ OpenedMatched s) := by
    refine Machine.invariant_of_run
      (I := fun t => Gate t ∧ t.unlocks ≠ [] ∧ (OpenedMatched t ↔ OpenedMatched s))
      ⟨h, hopen, Iff.rfl⟩ ?_ as hrun
    rintro t a t' ⟨ht, hne, hiff⟩ hstep
    obtain ⟨hne', hiff'⟩ := openedMatched_step_iff ht hne hstep
    exact ⟨ht.step hstep, hne', hiff'.trans hiff⟩
  exact hkeep.2.2

/-- From a state with the gate closed. -/
theorem openedMatched_iff_of_closed {as : List Event} (h : Gate s) (hclosed : s.unlocks = [])
    (hpeers : s.counts.1 + s.counts.2 ≤ 1) (hrun : (machine service).run s as = some s') :
    OpenedMatched s' ↔ meets s.counts as = true := by
  -- on the events up to the one that opens the gate, before which there is one peer at most
  induction as generalizing s with
  | nil =>
    obtain rfl : s = s' := by simpa using hrun
    unfold OpenedMatched
    rw [hclosed, meets]
    simp
  | cons a as ih =>
    rw [Machine.run_cons] at hrun
    obtain ⟨t, hstep, hrest⟩ := Option.bind_eq_some_iff.mp hrun
    replace hstep : step service s a = some t := hstep
    have ht := h.step hstep
    cases a with
    | matched e peer =>
      obtain ⟨u, hcounts, hmatched, hmtx, hunlocks, -, rfl⟩ := step_matched hstep
      have hrises := rises_iff h.counted
      rw [← hmatched] at hrises
      show _ ↔ (if s.counts.1 + s.counts.2 = 1 then _ else _) = true
      by_cases hone : s.counts.1 + s.counts.2 = 1
      · -- the count rises to two: this match opens the gate
        have hrise : u.pubSubMatched + 1 = 2 := hrises.mpr (by omega)
        have hnew := (onMatched_one_of_rises hrise).2
        rw [hunlocks, hclosed, hmtx, (h.closed hclosed).1, hcounts, List.nil_append] at hnew
        rw [if_pos hone, openedMatched_run_iff ht (by rw [hnew]; exact List.cons_ne_nil _ _) hrest]
        unfold OpenedMatched
        rw [hnew, List.forall_mem_singleton]
        cases e with
        | writer =>
          show (_ → 1 ≤ s.counts.1 + 1 ∧ 1 ≤ s.counts.2) ↔ decide (s.counts.2 = 1) = true
          rw [decide_eq_true_eq]
          have hholder : (some Holder.constructor = some .constructor) := rfl
          constructor
          · intro hboth
            have := (hboth hholder).2
            omega
          · intro hmeets _
            omega
        | reader =>
          show (_ → 1 ≤ s.counts.1 ∧ 1 ≤ s.counts.2 + 1) ↔ decide (s.counts.1 = 1) = true
          rw [decide_eq_true_eq]
          have hholder : (some Holder.constructor = some .constructor) := rfl
          constructor
          · intro hboth
            have := (hboth hholder).1
            omega
          · intro hmeets _
            omega
      -- there was no peer yet, and the gate stays closed
      · have hrise : u.pubSubMatched + 1 ≠ 2 := fun hrise => hone (by
          have := hrises.mp hrise
          omega)
        have hsum := e.withMatch_sum s.counts
        have hsame := (onMatched_one_of_not_rises hrise).2.trans (hunlocks.trans hclosed)
        have hrec := ih ht hsame (by rw [onMatched_one_counts, hcounts]; omega) hrest
        rw [if_neg hone, hrec, onMatched_one_counts, hcounts]
    | unmatched e peer =>
      obtain ⟨hcounts, -, hsum, -, -, hunlocks, -⟩ := step_unmatched hstep
      rw [ih ht (hunlocks.trans hclosed) (by omega) hrest, hcounts]
      rfl
    | enter id c =>
      obtain ⟨-, -, hcounts, -, hunlocks⟩ := step_enter hstep
      rw [ih ht (hunlocks.trans hclosed) (by rw [hcounts]; exact hpeers) hrest, hcounts]
      rfl
    | leave id =>
      obtain ⟨-, hcounts, -, hunlocks, -⟩ := step_leave hstep
      rw [ih ht (hunlocks.trans hclosed) (by rw [hcounts]; exact hpeers) hrest, hcounts]
      rfl

/-- The gate opens with both endpoints matched exactly in the runs in which the second peer is
matched with the other endpoint than the first. -/
theorem openedMatched_iff_meets {as : List Event}
    (hrun : (machine service).run .initial as = some s) :
    OpenedMatched s ↔ meets (0, 0) as = true :=
  openedMatched_iff_of_closed gate_initial rfl (by decide) hrun

theorem openedMatched_oneHandshake :
    ∃ s, (machine .client).run .initial [.matched .writer 1, .matched .reader 1] = some s ∧
      OpenedMatched s :=
  ⟨_, rfl, (@openedMatched_iff_meets .client _ [.matched .writer 1, .matched .reader 1] rfl).mpr
    (by decide)⟩

/-- Two peers of the data writer open the gate, with no peer of the data reader. -/
theorem not_openedMatched_twoWriterPeers :
    (∃ s, (machine .server).run .initial [.matched .writer 1, .matched .writer 2] = some s ∧
      s.unlocks = [⟨some .constructor, 2, 0⟩] ∧ ¬ OpenedMatched s) ∧
    ∃ s, (machine .client).run .initial [.matched .reader 1, .matched .reader 2] = some s ∧
      s.unlocks = [⟨some .constructor, 0, 2⟩] ∧ ¬ OpenedMatched s := by
  refine ⟨⟨_, rfl, rfl, ?_⟩, ⟨_, rfl, rfl, ?_⟩⟩
  · intro h
    have hreader := (h _ List.mem_cons_self rfl).2
    exact absurd hreader (by decide)
  · intro h
    have hwriter := (h _ List.mem_cons_self rfl).1
    exact absurd hwriter (by decide)

end FastDdsSh.Matching
