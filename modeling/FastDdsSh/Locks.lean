import FastDdsSh.Lib.Locking

/-!
# The mutexes of a bridge

Which mutexes the functions of `Publisher`, `Subscriber`, `Client` and `Server` lock, in which order
and for how long, with the calls that they make into each other through the core: a subscriber
publishes, a client calls a service, and a server answers a client.  What a function does besides is
not followed, nor are the waits of the cleaner and of the destructors for the end of other threads.
-/

namespace FastDdsSh.Locks

open Locking Transition

/-- The objects of any number of system handles. -/
inductive Owner where
  | publisher (id : Nat)
  | subscriber (id : Nat)
  | client (id : Nat)
  | server (id : Nat)
  deriving DecidableEq, Repr

/-- The members; `requestDataMtx` and `replyDataMtx` are those of `request_entities_` and
`reply_entities_`. -/
inductive Name where
  | dataMtx
  | requestDataMtx
  | replyDataMtx
  | mtx
  | matchedMtx
  | cleanerMtx
  deriving DecidableEq, Repr

structure Mutex where
  owner : Owner
  name : Name
  deriving DecidableEq, Repr

def critical (m : Mutex) (rest : Program Mutex) : Program Mutex :=
  .lock m <| .unlock m rest

/-! ## What is called by other threads -/

def publish (id : Nat) (rest : Program Mutex) : Program Mutex :=
  critical ⟨.publisher id, .dataMtx⟩ rest

def callService (id : Nat) (converted : Bool) (rest : Program Mutex) : Program Mutex :=
  .lock ⟨.server id, .requestDataMtx⟩ <|
    if converted then
      .lock ⟨.server id, .mtx⟩ <| .unlock ⟨.server id, .requestDataMtx⟩ <|
        .unlock ⟨.server id, .mtx⟩ rest
    else .unlock ⟨.server id, .requestDataMtx⟩ rest

def receiveResponse (id : Nat) (rest : Program Mutex) : Program Mutex :=
  critical ⟨.client id, .mtx⟩ <| critical ⟨.client id, .replyDataMtx⟩ rest

/-! ## Reception -/

def notifyEnd (o : Owner) : Program Mutex :=
  critical ⟨o, .cleanerMtx⟩ .done

/-- `Subscriber::receive`, with the publishers that the core has for a message that converts. -/
def Subscriber.receive (id : Nat) (publishers : List Nat) : Program Mutex :=
  .unlock ⟨.subscriber id, .dataMtx⟩ <| publishers.foldr publish (notifyEnd (.subscriber id))

/-- What a request leads to: does it convert, and which server is called with it; there is none if
the service belongs to another middleware. -/
structure Request where
  converted : Bool
  service : Option (Nat × Bool)
  deriving DecidableEq, Repr

def Client.receive (id : Nat) (r : Request) : Program Mutex :=
  .unlock ⟨.client id, .requestDataMtx⟩ <|
    if r.converted then
      critical ⟨.client id, .mtx⟩ <|
        match r.service with
        | some (server, converted) => callService server converted (notifyEnd (.client id))
        | none => notifyEnd (.client id)
    else notifyEnd (.client id)

/-- What a reply leads to: is it known, does it convert, and which client is it for; there is none
if the call is not there any more, or the client belongs to another middleware. -/
structure Reply where
  known : Bool
  converted : Bool
  client : Option Nat
  deriving DecidableEq, Repr

/-- `Server::receive`; the client is told while `mtx_` is locked. -/
def Server.receive (id : Nat) (r : Reply) : Program Mutex :=
  .lock ⟨.server id, .mtx⟩ <|
    if r.known = false then
      -- `return` out of the block
      .unlock ⟨.server id, .replyDataMtx⟩ <| .unlock ⟨.server id, .mtx⟩ .done
    else
      .unlock ⟨.server id, .mtx⟩ <| .unlock ⟨.server id, .replyDataMtx⟩ <|
        if r.converted then
          let rest := .unlock ⟨.server id, .mtx⟩ (notifyEnd (.server id))
          .lock ⟨.server id, .mtx⟩ <|
            match r.client with
            | some client => receiveResponse client rest
            | none => rest
        else notifyEnd (.server id)

/-- `on_data_available`: with a sample, a thread is started that has the data mutex. -/
def onDataAvailable (o : Owner) (data : Name) (receive : Option (Program Mutex)) : Program Mutex :=
  .lock ⟨o, .cleanerMtx⟩ <| .lock ⟨o, data⟩ <|
    match receive with
    | some receive => .spawn [⟨o, data⟩] receive <| .unlock ⟨o, .cleanerMtx⟩ .done
    | none => .unlock ⟨o, data⟩ <| .unlock ⟨o, .cleanerMtx⟩ .done

/-- One wait on the condition variable for each time the thread is woken. -/
def waitForThreads (o : Owner) : Nat → Program Mutex → Program Mutex
  | 0, rest => rest
  | n + 1, rest => .unlock ⟨o, .cleanerMtx⟩ <| .lock ⟨o, .cleanerMtx⟩ <| waitForThreads o n rest

def cleanerLoop (o : Owner) : List Nat → Program Mutex
  | [] => .unlock ⟨o, .cleanerMtx⟩ .done
  | n :: turns =>
      waitForThreads o n <|
        -- it frees the CPU for a moment
        .unlock ⟨o, .cleanerMtx⟩ <| .lock ⟨o, .cleanerMtx⟩ <| cleanerLoop o turns

def cleanerFunction (o : Owner) (turns : List Nat) : Program Mutex :=
  .lock ⟨o, .cleanerMtx⟩ <| cleanerLoop o turns

/-- `on_publication_matched` and `on_subscription_matched`; `opens` says whether the count comes to
two. -/
def onMatched (o : Owner) (opens : Bool) : Program Mutex :=
  .lock ⟨o, .matchedMtx⟩ <|
    if opens then .unlock ⟨o, .mtx⟩ <| .unlock ⟨o, .matchedMtx⟩ .done
    else .unlock ⟨o, .matchedMtx⟩ .done

/-! ## All of it -/

inductive Entry where
  | publish (id : Nat)
  | callService (id : Nat) (converted : Bool)
  | receiveResponse (id : Nat)
  | subscriberData (id : Nat) (publishers : Option (List Nat))
  | clientData (id : Nat) (request : Option Request)
  | serverData (id : Nat) (reply : Option Reply)
  | matched (o : Owner) (opens : Bool)
  | cleaner (o : Owner) (turns : List Nat)
  | destroyPublisher (id : Nat)
  | destroySubscriber (id : Nat)
  | destroyClient (id : Nat)
  | destroyServer (id : Nat)
  deriving DecidableEq, Repr

def destroyService (o : Owner) : Program Mutex :=
  critical ⟨o, .cleanerMtx⟩ <| critical ⟨o, .requestDataMtx⟩ <| critical ⟨o, .replyDataMtx⟩ .done

def Entry.program : Entry → Program Mutex
  | publish id => Locks.publish id .done
  | callService id converted => Locks.callService id converted .done
  | receiveResponse id => Locks.receiveResponse id .done
  | subscriberData id publishers =>
      onDataAvailable (.subscriber id) .dataMtx (publishers.map (Subscriber.receive id))
  | clientData id request =>
      onDataAvailable (.client id) .requestDataMtx (request.map (Client.receive id))
  | serverData id reply =>
      onDataAvailable (.server id) .replyDataMtx (reply.map (Server.receive id))
  | matched o opens => onMatched o opens
  | cleaner o turns => cleanerFunction o turns
  | destroyPublisher id => critical ⟨.publisher id, .dataMtx⟩ .done
  | destroySubscriber id =>
      critical ⟨.subscriber id, .cleanerMtx⟩ <| critical ⟨.subscriber id, .dataMtx⟩ .done
  | destroyClient id => destroyService (.client id)
  | destroyServer id => destroyService (.server id)

/-- Any number of objects, the constructors of clients and servers having locked their `mtx_`. -/
def machine : Machine (State Mutex) (Event Entry) :=
  Locking.machine (fun m => m.name = .mtx) Entry.program

/-! ## The order -/

/-- From the threads of the DDS library down to what the other side of the bridge locks. -/
def Mutex.rank (m : Mutex) : Nat :=
  match m.name, m.owner with
  | .cleanerMtx, _ | .matchedMtx, _ => 0
  | .mtx, .client _ | .replyDataMtx, .client _ | .dataMtx, .publisher _ => 3
  | .mtx, _ => 2
  | _, _ => 1

variable {held : List Mutex} {rest : Program Mutex} {o : Owner}

theorem ordered_critical {m : Mutex} (hheld : ∀ h ∈ held, h.rank < m.rank)
    (h : rest.Ordered Mutex.rank held) : (critical m rest).Ordered Mutex.rank held := by
  refine ⟨hheld, ?_⟩
  show Program.Ordered _ ((m :: held).erase m) rest
  rwa [List.erase_cons_head]

theorem ordered_notifyEnd (o : Owner) : (notifyEnd o).Ordered Mutex.rank [] :=
  ordered_critical (List.forall_mem_nil _) rfl

theorem ordered_callService (id : Nat) (converted : Bool) (h : rest.Ordered Mutex.rank []) :
    (callService id converted rest).Ordered Mutex.rank [] := by
  cases converted with
  | false => exact ordered_critical (List.forall_mem_nil _) h
  | true => simpa [callService, Program.Ordered, Mutex.rank, List.erase_cons] using h

/-- Also while the server's `mtx_` is locked. -/
theorem ordered_receiveResponse (id : Nat) (hheld : ∀ m ∈ held, m.rank < 3)
    (h : rest.Ordered Mutex.rank held) : (receiveResponse id rest).Ordered Mutex.rank held :=
  ordered_critical hheld (ordered_critical hheld h)

theorem ordered_subscriberReceive (id : Nat) (publishers : List Nat) :
    (Subscriber.receive id publishers).Ordered Mutex.rank [⟨.subscriber id, .dataMtx⟩] := by
  show Program.Ordered _ (List.erase _ _) _
  rw [List.erase_cons_head]
  induction publishers with
  | nil => exact ordered_notifyEnd _
  | cons p publishers ih => exact ordered_critical (List.forall_mem_nil _) ih

theorem ordered_clientReceive (id : Nat) (r : Request) :
    (Client.receive id r).Ordered Mutex.rank [⟨.client id, .requestDataMtx⟩] := by
  obtain ⟨converted, service⟩ := r
  show Program.Ordered _ (List.erase _ _) _
  rw [List.erase_cons_head]
  cases converted with
  | false => exact ordered_notifyEnd _
  | true =>
    refine ordered_critical (List.forall_mem_nil _) ?_
    cases service with
    | none => exact ordered_notifyEnd _
    | some call => exact ordered_callService _ _ (ordered_notifyEnd _)

theorem ordered_serverReceive (id : Nat) (r : Reply) :
    (Server.receive id r).Ordered Mutex.rank [⟨.server id, .replyDataMtx⟩] := by
  obtain ⟨known, converted, client⟩ := r
  refine ⟨by simp [Mutex.rank], ?_⟩
  cases known with
  | false => simp [Program.Ordered]
  | true =>
    show Program.Ordered _ (List.erase (List.erase _ _) _) _
    rw [List.erase_cons_head, List.erase_cons_head]
    cases converted with
    | false => exact ordered_notifyEnd _
    | true =>
      have hrest : (Program.unlock ⟨.server id, .mtx⟩ (notifyEnd (.server id))).Ordered Mutex.rank
          [⟨.server id, .mtx⟩] := by
        show Program.Ordered _ (List.erase _ _) _
        rw [List.erase_cons_head]
        exact ordered_notifyEnd _
      refine ⟨List.forall_mem_nil _, ?_⟩
      cases client with
      | none => exact hrest
      | some client => exact ordered_receiveResponse client (by simp [Mutex.rank]) hrest

theorem ordered_onDataAvailable {data : Name} (hdata : 0 < (⟨o, data⟩ : Mutex).rank)
    {receive : Option (Program Mutex)}
    (h : ∀ r, receive = some r → r.Ordered Mutex.rank [⟨o, data⟩]) :
    (onDataAvailable o data receive).Ordered Mutex.rank [] := by
  have hcleaner : (Program.unlock ⟨o, .cleanerMtx⟩ .done).Ordered Mutex.rank
      [⟨o, .cleanerMtx⟩] := by
    show List.erase _ _ = []
    rw [List.erase_cons_head]
  refine ⟨List.forall_mem_nil _, List.forall_mem_singleton.mpr hdata, ?_⟩
  cases receive with
  | none =>
    show Program.Ordered _ (List.erase _ _) _
    rw [List.erase_cons_head]
    exact hcleaner
  | some receive =>
    refine ⟨h receive rfl, ?_⟩
    rw [List.diff_cons, List.erase_cons_head, List.diff_nil]
    exact hcleaner

theorem ordered_relock {m : Mutex} (h : rest.Ordered Mutex.rank [m]) :
    (Program.unlock m (.lock m rest)).Ordered Mutex.rank [m] := by
  show Program.Ordered _ (List.erase _ _) _
  rw [List.erase_cons_head]
  exact ⟨List.forall_mem_nil _, h⟩

theorem ordered_waitForThreads (n : Nat) (h : rest.Ordered Mutex.rank [⟨o, .cleanerMtx⟩]) :
    (waitForThreads o n rest).Ordered Mutex.rank [⟨o, .cleanerMtx⟩] := by
  induction n with
  | zero => exact h
  | succ n ih => exact ordered_relock ih

theorem ordered_cleanerLoop (o : Owner) (turns : List Nat) :
    (cleanerLoop o turns).Ordered Mutex.rank [⟨o, .cleanerMtx⟩] := by
  induction turns with
  | nil =>
    show List.erase _ _ = []
    rw [List.erase_cons_head]
  | cons n turns ih => exact ordered_waitForThreads n (ordered_relock ih)

theorem ordered_onMatched (o : Owner) (opens : Bool) :
    (onMatched o opens).Ordered Mutex.rank [] := by
  cases opens with
  | false => exact ordered_critical (List.forall_mem_nil _) rfl
  | true => simp [onMatched, Program.Ordered]

theorem ordered_destroyService (o : Owner) : (destroyService o).Ordered Mutex.rank [] :=
  ordered_critical (List.forall_mem_nil _) <| ordered_critical (List.forall_mem_nil _) <|
    ordered_critical (List.forall_mem_nil _) rfl

theorem ordered_program (e : Entry) : e.program.Ordered Mutex.rank [] := by
  cases e with
  | publish id | destroyPublisher id => exact ordered_critical (List.forall_mem_nil _) rfl
  | callService id converted => exact ordered_callService id converted rfl
  | receiveResponse id => exact ordered_receiveResponse id (List.forall_mem_nil _) rfl
  | subscriberData id publishers =>
    refine ordered_onDataAvailable (by exact Nat.zero_lt_one) fun r hr => ?_
    obtain ⟨publishers, -, rfl⟩ := Option.map_eq_some_iff.mp hr
    exact ordered_subscriberReceive id publishers
  | clientData id request =>
    refine ordered_onDataAvailable (by exact Nat.zero_lt_one) fun r hr => ?_
    obtain ⟨request, -, rfl⟩ := Option.map_eq_some_iff.mp hr
    exact ordered_clientReceive id request
  | serverData id reply =>
    refine ordered_onDataAvailable (by exact Nat.zero_lt_one) fun r hr => ?_
    obtain ⟨reply, -, rfl⟩ := Option.map_eq_some_iff.mp hr
    exact ordered_serverReceive id reply
  | matched o opens => exact ordered_onMatched o opens
  | cleaner o turns => exact ⟨List.forall_mem_nil _, ordered_cleanerLoop o turns⟩
  | destroySubscriber id =>
    exact ordered_critical (List.forall_mem_nil _) (ordered_critical (List.forall_mem_nil _) rfl)
  | destroyClient id | destroyServer id => exact ordered_destroyService _

/-- However the threads of any number of publishers, subscribers, clients and servers are scheduled,
they take a bounded number of steps, and they come to a stop only when all of them are at their ends
and have unlocked what they locked, or when one of them waits for the `mtx_` of a client or server
that has not been matched yet. -/
theorem no_deadlock {s s' : State Mutex} (h : machine.Reachable s) {is : List Nat}
    (hrun : machine.run s (is.map .step) = some s') :
    is.length + s'.size ≤ s.size ∧
      ((∀ i, machine.step s' (.step i) = none) →
        ((∀ t ∈ s'.threads, t.program = .done) ∧ ∀ m ∈ s'.locked, m ∈ s'.closed) ∨
          ∃ t ∈ s'.threads, ∃ m ∈ s'.closed, m.name = .mtx ∧ t.waitsFor = some m) := by
  refine ⟨length_steps_le hrun, fun hstuck => ?_⟩
  obtain ⟨hsound, hclosed⟩ := sound_of_reachable ordered_program (h.of_run _ hrun)
  have hstop : ∀ i t, s'.threads[i]? = some t → s'.stepThread i t = none := by
    intro i t ht
    have hnone : (s'.threads[i]?).bind (s'.stepThread i) = none := hstuck i
    rwa [ht] at hnone
  rcases hsound.all_done_or_closed hstop with hdone | ⟨t, ht, m, hm, hwait⟩
  · exact .inl ⟨hdone, hsound.locked_subset_closed hdone⟩
  · exact .inr ⟨t, ht, m, hm, hclosed m hm, hwait⟩

/-- A call of a service that has not been matched, and a reply to another service, whose client is
told. -/
def gatedCall : List (Event Entry) :=
  [.start (.callService 0 true), .start (.serverData 1 (some ⟨true, true, some 0⟩))]

def gatedSchedule : List Nat :=
  [0, 1, 1, 1, 2, 2, 1, 2, 2, 2, 2, 2, 2, 2, 2, 2]

theorem no_deadlock_gatedCall :
    ∃ s s', machine.run ⟨[⟨.server 0, .mtx⟩], [⟨.server 0, .mtx⟩], []⟩ gatedCall = some s ∧
      machine.run s (gatedSchedule.map .step) = some s' ∧ 16 + s'.size ≤ s.size ∧
      ∃ t ∈ s'.threads, ∃ m ∈ s'.closed, m.name = .mtx ∧ t.waitsFor = some m := by
  have hrun : ∃ s s', machine.run ⟨[⟨.server 0, .mtx⟩], [⟨.server 0, .mtx⟩], []⟩ gatedCall =
      some s ∧ machine.run s (gatedSchedule.map .step) = some s' ∧
      (∀ i < 3, machine.step s' (.step i) = none) ∧ s'.threads.length = 3 ∧
      ¬ ∀ t ∈ s'.threads, t.program = .done :=
    ⟨_, _, rfl, rfl, by decide, by decide, by decide⟩
  obtain ⟨s, s', hs, hs', hstop, hlength, hunfinished⟩ := hrun
  have hstart : machine.Reachable ⟨[⟨.server 0, .mtx⟩], [⟨.server 0, .mtx⟩], []⟩ :=
    .init ⟨rfl, rfl, by decide⟩
  have h := no_deadlock (hstart.of_run gatedCall hs) hs'
  refine ⟨s, s', hs, hs', h.1, (h.2 fun i => ?_).resolve_left fun hdone => hunfinished hdone.1⟩
  by_cases hi : i < 3
  · exact hstop i hi
  · show (s'.threads[i]?).bind (s'.stepThread i) = none
    rw [List.getElem?_eq_none (by omega)]
    rfl

end FastDdsSh.Locks
