import FastDdsSh.Lib.Transition

/-!
# Reception threads, the shared buffer and the cleaner

`Subscriber`, `Client` and `Server` take samples the same way: `on_data_available` locks
`cleaner_mtx_` and then the data mutex, takes the next sample into the one `dynamic_data` buffer and
starts a thread on `receive`, which releases the data mutex once it has converted the buffer.  The
cleaner joins the threads that ended.  The three classes share this model; they differ in `receive`,
and `Receiver` says which one runs.  Every blocking call is a step of its own.
-/

namespace FastDdsSh.Reception

open Transition

inductive Receiver where
  | subscriber
  | client
  | server
  deriving DecidableEq, Repr

/-- Who holds a mutex. -/
inductive Activity where
  | listener
  | thread (id : Nat)
  | cleaner
  | destructor
  deriving DecidableEq, Repr

/-- Program points of `receive`: `lookup` is the first critical section of `Server::receive`. -/
inductive ThreadPc (M : Type) where
  | lookup
  | convert
  | unlock (message : Option M)
  | dispatch (message : Option M)
  | lockCleaner
  | notify
  | leave
  | ended
  deriving DecidableEq, Repr

/-- What `take_next_sample` stored: the data, its info, and whether the instance is alive. -/
structure Taken (C I : Type) where
  data : C
  info : I
  alive : Bool
  deriving DecidableEq, Repr

/-- A reception thread.  `sample` is a ghost: what the `on_data_available` call that created the
thread took.  `info` is the argument the thread got; `reads` is what it saw in the shared buffer. -/
structure Thread (C I M : Type) where
  pc : ThreadPc M
  sample : Taken C I
  info : I
  reads : List C
  deriving DecidableEq, Repr

inductive ListenerPc where
  | idle
  | lockData
  | take
  | leave
  deriving DecidableEq, Repr

/-- Program points of `cleaner_function`.  `scan` is the loop over `finished_threads_`, `prune` the
one over `stopped`, `drain` the final loop; `cleaner_mtx_` is released in `start`, `wait`, `sleep`
and `done` only. -/
inductive CleanerPc where
  | start
  | test
  | waitTest
  | wait
  | scan (rest stopped : List Nat)
  | join (id : Nat) (rest stopped : List Nat)
  | prune (stopped : List Nat)
  | sleep
  | drain (rest : List Nat)
  | drainJoin (id : Nat) (rest : List Nat)
  | done
  deriving DecidableEq, Repr

inductive DestructorPc where
  | idle
  | setStop
  | joinCleaner
  | lockData
  | dispose
  | done
  deriving DecidableEq, Repr

/-- The members of the class that take part, the program points of its activities, and ghosts: how
often the data mutex was locked and unlocked (`strayUnlocks`: while it was not the caller's to
release), the threads joined and deleted, the conversions and the callbacks made so far. -/
structure State (C I M : Type) where
  cleanerMtx : Option Activity
  dataMtx : Option Activity
  stopCleaner : Bool
  receptionThreads : List Nat
  finishedThreads : List Nat
  dynamicData : Option C
  threads : List (Thread C I M)
  listener : ListenerPc
  cleaner : CleanerPc
  destructor : DestructorPc
  locks : Nat
  unlocks : Nat
  strayUnlocks : Nat
  joined : List Nat
  converted : List Nat
  delivered : List (Nat × M × I)
  deriving DecidableEq, Repr

/-- The next step of an activity.  `result` is what `take_next_sample` gives if it is called;
`branch` decides the tests of `receive` on tables that are not part of this model (is the sample
known, is there a callback or a pending call). -/
inductive Event (C I : Type) where
  | listener (result : Option (Taken C I))
  | read (id : Nat)
  | thread (id : Nat) (branch : Bool)
  | cleaner
  | destructor
  deriving DecidableEq, Repr

variable {C I M : Type}

def State.initial : State C I M where
  cleanerMtx := none
  dataMtx := none
  stopCleaner := false
  receptionThreads := []
  finishedThreads := []
  dynamicData := none
  threads := []
  listener := .idle
  cleaner := .start
  destructor := .idle
  locks := 0
  unlocks := 0
  strayUnlocks := 0
  joined := []
  converted := []
  delivered := []

namespace State

/-- Releases the data mutex on behalf of `a`; any thread may do it, whoever locked it. -/
def unlockData (s : State C I M) (a : Activity) : State C I M :=
  if s.dataMtx = some a then { s with dataMtx := none, unlocks := s.unlocks + 1 }
  else { s with dataMtx := none, unlocks := s.unlocks + 1, strayUnlocks := s.strayUnlocks + 1 }

def lockData (s : State C I M) (a : Activity) : State C I M :=
  { s with dataMtx := some a, locks := s.locks + 1 }

def setThread (s : State C I M) (id : Nat) (th : Thread C I M) : State C I M :=
  { s with threads := s.threads.set id th }

def hasEnded (s : State C I M) (id : Nat) : Bool :=
  match s.threads[id]? with
  | some th => match th.pc with | .ended => true | _ => false
  | none => false

end State

def Receiver.entry : Receiver → ThreadPc M
  | .server => .lookup
  | _ => .convert

/-- `on_data_available` past its two locks: takes into the shared buffer and starts the thread,
which inherits the locked data mutex. -/
def takeSample (r : Receiver) (s : State C I M) : Option (Taken C I) → State C I M
  -- no sample could be taken
  | none => s.unlockData .listener
  | some t =>
      let s := { s with dynamicData := some t.data }
      -- the buffer is filled also when the instance is not alive
      if t.alive then
        let id := s.threads.length
        { s with
          threads := s.threads ++ [⟨r.entry, t, t.info, []⟩]
          receptionThreads := s.receptionThreads ++ [id]
          -- `receive` is to release the mutex that is locked here
          dataMtx := s.dataMtx.map fun _ => .thread id }
      else s.unlockData .listener

def stepListener (r : Receiver) (s : State C I M) (result : Option (Taken C I)) :
    Option (State C I M) :=
  match s.listener with
  | .idle =>
      if s.cleanerMtx = none then
        some { s with cleanerMtx := some .listener, listener := .lockData }
      else none
  -- with `cleaner_mtx_` held
  | .lockData =>
      if s.dataMtx = none then some { s.lockData .listener with listener := .take } else none
  | .take =>
      -- `!stop_cleaner_ &&` keeps the data reader from being asked
      if s.stopCleaner then some { s.unlockData .listener with listener := .leave }
      else some { takeSample r s result with listener := .leave }
  | .leave => some { s with cleanerMtx := none, listener := .idle }

/-- A look of `fastdds_to_xtypes` at the shared buffer before the conversion is over. -/
def stepRead (s : State C I M) (id : Nat) : Option (State C I M) :=
  match s.threads[id]?, s.dynamicData with
  | some th, some d =>
      match th.pc with
      | .convert => some (s.setThread id { th with reads := d :: th.reads })
      | _ => none
  | _, _ => none

def stepThread (r : Receiver) (fastddsToXtypes : C → Option M) (s : State C I M) (id : Nat)
    (branch : Bool) : Option (State C I M) :=
  match s.threads[id]? with
  | none => none
  | some th =>
      match th.pc with
      | .lookup =>
          if branch then some (s.setThread id { th with pc := .convert })
          -- "Received reply from unasked request": returns without notifying the cleaner
          else some ((s.setThread id { th with pc := .ended }).unlockData (.thread id))
      | .convert =>
          match s.dynamicData with
          | none => none
          | some d =>
              some { s.setThread id
                  { th with pc := .unlock (fastddsToXtypes d), reads := d :: th.reads } with
                converted := s.converted ++ [id] }
      -- the conversion is over, and the buffer is free for the next sample
      | .unlock message =>
          some ((s.setThread id { th with pc := .dispatch message }).unlockData (.thread id))
      -- the conversion failed
      | .dispatch none => some (s.setThread id { th with pc := .lockCleaner })
      | .dispatch (some message) =>
          let s := s.setThread id { th with pc := .lockCleaner }
          -- `Client` and `Server` call back only what they find in their tables
          if r = .subscriber ∨ branch then
            some { s with delivered := s.delivered ++ [(id, message, th.info)] }
          else some s
      | .lockCleaner =>
          if s.cleanerMtx = none then
            some { s.setThread id { th with pc := .notify } with cleanerMtx := some (.thread id) }
          else none
      | .notify =>
          some { s.setThread id { th with pc := .leave } with
            finishedThreads := s.finishedThreads ++ [id] }
      | .leave =>
          some { s.setThread id { th with pc := .ended } with cleanerMtx := none }
      | .ended => none

def stepCleaner (s : State C I M) : Option (State C I M) :=
  match s.cleaner with
  | .start =>
      if s.cleanerMtx = none then some { s with cleanerMtx := some .cleaner, cleaner := .test }
      else none
  | .test =>
      if s.stopCleaner then some { s with cleaner := .drain s.receptionThreads }
      else some { s with cleaner := .waitTest }
  -- the predicate of `cleaner_cv_.wait`
  | .waitTest =>
      if s.stopCleaner ∨ s.finishedThreads ≠ [] then
        some { s with cleaner := .scan s.finishedThreads [] }
      else some { s with cleanerMtx := none, cleaner := .wait }
  | .wait =>
      if s.cleanerMtx = none then some { s with cleanerMtx := some .cleaner, cleaner := .waitTest }
      else none
  | .scan [] stopped => some { s with cleaner := .prune stopped }
  | .scan (id :: rest) stopped =>
      if id ∈ s.receptionThreads then
        some { s with
          receptionThreads := s.receptionThreads.erase id, cleaner := .join id rest stopped }
      -- Some threads may end too quickly, wait until the next iteration
      else some { s with cleaner := .scan rest stopped }
  -- `join` blocks with `cleaner_mtx_` held
  | .join id rest stopped =>
      if s.hasEnded id then
        some { s with joined := s.joined ++ [id], cleaner := .scan rest (stopped ++ [id]) }
      else none
  | .prune [] => some { s with cleanerMtx := none, cleaner := .sleep }
  | .prune (id :: stopped) =>
      some { s with finishedThreads := s.finishedThreads.erase id, cleaner := .prune stopped }
  | .sleep =>
      if s.cleanerMtx = none then some { s with cleanerMtx := some .cleaner, cleaner := .test }
      else none
  | .drain [] => some { s with cleanerMtx := none, cleaner := .done }
  -- the threads that are left when the destructor has set `stop_cleaner_`
  | .drain (id :: rest) => some { s with cleaner := .drainJoin id rest }
  | .drainJoin id rest =>
      if s.hasEnded id then some { s with joined := s.joined ++ [id], cleaner := .drain rest }
      else none
  | .done => none

def stepDestructor (s : State C I M) : Option (State C I M) :=
  match s.destructor with
  | .idle =>
      if s.cleanerMtx = none then
        some { s with cleanerMtx := some .destructor, destructor := .setStop }
      else none
  | .setStop =>
      some { s with stopCleaner := true, cleanerMtx := none, destructor := .joinCleaner }
  -- `cleaner_thread_.join()`
  | .joinCleaner =>
      if s.cleaner = .done then some { s with destructor := .lockData } else none
  | .lockData =>
      if s.dataMtx = none then some { s.lockData .destructor with destructor := .dispose } else none
  | .dispose =>
      some { ({ s with dynamicData := none } : State C I M).unlockData .destructor with
        destructor := .done }
  | .done => none

def step (r : Receiver) (fastddsToXtypes : C → Option M) (s : State C I M) :
    Event C I → Option (State C I M)
  | .listener result => stepListener r s result
  | .read id => stepRead s id
  | .thread id branch => stepThread r fastddsToXtypes s id branch
  | .cleaner => stepCleaner s
  | .destructor => stepDestructor s

def machine (r : Receiver) (fastddsToXtypes : C → Option M) :
    Machine (State C I M) (Event C I) where
  init s := s = .initial
  step := step r fastddsToXtypes

/-! ## What releasing the data mutex leaves alone -/

theorem unlockData_fields {s : State C I M} (a : Activity) :
    (s.unlockData a).threads = s.threads ∧ (s.unlockData a).converted = s.converted ∧
      (s.unlockData a).delivered = s.delivered ∧ (s.unlockData a).dataMtx = none ∧
      (s.unlockData a).finishedThreads = s.finishedThreads ∧
      (s.unlockData a).cleaner = s.cleaner := by
  unfold State.unlockData
  split <;> exact ⟨rfl, rfl, rfl, rfl, rfl, rfl⟩

end FastDdsSh.Reception
