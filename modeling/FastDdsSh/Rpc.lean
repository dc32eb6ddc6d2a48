import FastDdsSh.Client.Correlation
import FastDdsSh.Conversion.Transfer
import FastDdsSh.Server.Correlation

/-!
# A service over DDS

One instance of the Integration Service has the `Server` of a service, which sends the requests of
its callers to DDS; another one has the `Client`, which gives them to its service and sends the
responses back.  Requests and replies travel as samples of the two topics.  Samples may be lost or
overtake each other, and a reply may be taken any number of times.  Each writer converts into the
one data object that it keeps for its topic.  A conversion that throws is no step.
-/

namespace FastDdsSh

namespace Server

variable {H K S : Type}

def requestPath (s : KeyedServer H K S) (t : DynamicType) : String :=
  (s.typeToDiscriminator (stripped t.name)).getD ""

def replyPath (service : Service) (s : KeyedServer H K S) (typeName : String) : String :=
  match s.requestReply typeName with
  | some rep => (s.typeToDiscriminator rep).getD ""
  | none => service.replyType.name

def buildRequest [Xtypes] (service : Service) (s : KeyedServer H K S) (t : DynamicType)
    (v : Value) : Option Value :=
  service.requestType.default.assign service.requestType (memberPath (s.requestPath t)) t v

theorem callService_request [Xtypes] [DecidableEq H] [DecidableEq S] (service : Service)
    (s : KeyedServer H K S) (t : DynamicType) (v : Value) (handle : H) (client : K)
    (converted : Bool) (written : Option S) :
    (s.callService service t v handle client converted written).map Prod.snd =
      s.buildRequest service t v := by
  unfold callService buildRequest requestPath
  dsimp only
  rw [Option.map_map, Container.subscript_keyedStore, KeyedStore.subscript_fst]
  exact Option.map_id'

end Server

namespace Rpc

open Transition

structure Asked (H K S : Type) where
  call : Server.Correlation.Call H K S
  type : DynamicType
  value : Value
  request : Value

/-- The `Server` and the `Client` with their threads, the data objects of their writers, the samples
that were written, each with the sample identity that goes with it, and the calls so far. -/
structure State (H K S Cb : Type) where
  server : Server.Correlation.KeyedState H K S
  client : Client.Correlation.State S Cb
  requestData : DdsData
  replyData : DdsData
  requests : List (S × DdsData)
  replies : List (S × DdsData)
  asked : List (Asked H K S)

/-- `written` is the outcome of a write: the sample identity that a request gets, or whether a reply
was accepted.  `client` is a step of the threads of the `Client` between their ends. -/
inductive Event (H K S : Type) where
  | call (t : DynamicType) (v : Value) (handle : H) (client : K) (written : Option S)
  | takeRequest (i : Nat)
  | client (e : Client.Correlation.Event S)
  | write (id : Nat) (written : Bool)
  | takeReply (i : Nat)
  | lookup (id : Nat)
  | deliver (id : Nat)

def isInner {S : Type} : Client.Correlation.Event S → Bool
  | .receive _ _ | .write _ _ => false
  | _ => true

variable {H K S Cb : Type} [DecidableEq H] [DecidableEq S] [Xtypes] [Dds]

def State.setServer (s : State H K S Cb) (server : Server.Correlation.KeyedState H K S) :
    State H K S Cb :=
  { s with server := server }

def State.setClient (s : State H K S Cb) (client : Client.Correlation.State S Cb) :
    State H K S Cb :=
  { s with client := client }

def stepCall (service : Service) (s : State H K S Cb) (t : DynamicType) (v : Value) (handle : H)
    (client : K) (written : Option S) : Option (State H K S Cb) :=
  (s.server.server.buildRequest service t v).bind fun request =>
    if service.requestType.admits request then
      match xtypesToFastdds service.requestType request s.requestData with
      | .error _ => none
      | .ok (converted, data) =>
          (Server.Correlation.step service s.server
            (.call t v handle client converted written)).map fun server =>
              let sample := Server.Correlation.writtenSample converted written
              { s with
                server := server
                requestData := data
                requests := s.requests ++ sample.toList.map fun σ => (σ, data)
                asked := s.asked ++ [⟨⟨handle, client, sample⟩, t, v, request⟩] }
    else none

def stepTakeRequest (fuel : Nat) (service : Service) (s : State H K S Cb) (i : Nat) :
    Option (State H K S Cb) :=
  (s.requests[i]?).bind fun sample =>
    (readSample fuel service.requestType sample.2).bind fun received =>
      (Client.Correlation.step service s.client (.receive sample.1 received)).map s.setClient

def stepWrite (service : Service) (s : State H K S Cb) (id : Nat) (written : Bool) :
    Option (State H K S Cb) :=
  (s.client.responses[id]?).bind fun th =>
    match th.pc with
    | .write path =>
        match Client.buildReply service path th.type th.response with
        -- the path leads nowhere, and nothing is converted
        | none => (Client.Correlation.step service s.client (.write id false)).map s.setClient
        | some reply =>
            if service.replyType.admits reply then
              match xtypesToFastdds service.replyType reply s.replyData with
              | .error _ => none
              | .ok (converted, data) =>
                  let success := converted && written
                  (Client.Correlation.step service s.client (.write id success)).map fun client =>
                    { s with
                      client := client
                      replyData := data
                      replies := s.replies ++
                        if success then [(th.handle.sampleIdentity, data)] else [] }
            else none
    | _ => none

def stepTakeReply (fuel : Nat) (service : Service) (s : State H K S Cb) (i : Nat) :
    Option (State H K S Cb) :=
  (s.replies[i]?).bind fun sample =>
    (readSample fuel service.replyType sample.2).bind fun reply =>
      (Server.Correlation.step service s.server (.arrive sample.1 reply)).map s.setServer

def step (fuel : Nat) (service : Service) (s : State H K S Cb) :
    Event H K S → Option (State H K S Cb)
  | .call t v handle client written => stepCall service s t v handle client written
  | .takeRequest i => stepTakeRequest fuel service s i
  | .client e =>
      if isInner e then (Client.Correlation.step service s.client e).map s.setClient else none
  | .write id written => stepWrite service s id written
  | .takeReply i => stepTakeReply fuel service s i
  | .lookup id => (Server.Correlation.step service s.server (.lookup id)).map s.setServer
  -- the reply has been read when it was taken
  | .deliver id => (Server.Correlation.step service s.server (.deliver id true)).map s.setServer

structure Initial (service : Service) (s₀ : KeyedServer H K S) (c₀ : Client S Cb)
    (s : State H K S Cb) : Prop where
  server : s.server = ⟨s₀, [], [], []⟩
  serverTables : s₀.callhandleClient = .empty ∧ s₀.sampleCallhandle = .empty ∧
    s₀.replyIdType = .empty
  client : s.client = ⟨c₀, [], [], [], []⟩
  clientTable : c₀.replyIdType = .empty
  requestData : ∃ T, service.requestType.getBuilder = some T ∧ s.requestData = T.createData
  replyData : ∃ T, service.replyType.getBuilder = some T ∧ s.replyData = T.createData
  wire : s.requests = [] ∧ s.replies = [] ∧ s.asked = []

def machine (fuel : Nat) (service : Service) (s₀ : KeyedServer H K S) (c₀ : Client S Cb) :
    Machine (State H K S Cb) (Event H K S) where
  init := Initial service s₀ c₀
  step := step fuel service

/-! ## What each step does -/

variable {fuel : Nat} {service : Service} {s₀ : KeyedServer H K S} {c₀ : Client S Cb}
  {s s' : State H K S Cb}

/-- A call makes a request, converts it and, if the write goes through, puts it on its way. -/
theorem stepCall_eq_some {t : DynamicType} {v : Value} {handle : H} {client : K}
    {written : Option S} (h : stepCall service s t v handle client written = some s') :
    ∃ request converted data server,
      s.server.server.buildRequest service t v = some request ∧
      service.requestType.admits request = true ∧
      xtypesToFastdds service.requestType request s.requestData = .ok (converted, data) ∧
      Server.Correlation.step service s.server (.call t v handle client converted written) =
        some server ∧
      s' = { s with
        server := server
        requestData := data
        requests := s.requests ++
          (Server.Correlation.writtenSample converted written).toList.map fun σ => (σ, data)
        asked := s.asked ++
          [⟨⟨handle, client, Server.Correlation.writtenSample converted written⟩, t, v, request⟩] }
    := by
  obtain ⟨request, hrequest, h⟩ := Option.bind_eq_some_iff.mp h
  split at h
  · rename_i hadmits
    split at h
    · cases h
    · rename_i converted data hconvert
      obtain ⟨server, hserver, rfl⟩ := Option.map_eq_some_iff.mp h
      exact ⟨request, converted, data, server, hrequest, hadmits, hconvert, hserver, rfl⟩
  · cases h

omit [DecidableEq H] in
theorem stepTakeRequest_eq_some {i : Nat} (h : stepTakeRequest fuel service s i = some s') :
    ∃ σ data received client, (σ, data) ∈ s.requests ∧
      readSample fuel service.requestType data = some received ∧
      Client.Correlation.step service s.client (.receive σ received) = some client ∧
      s' = s.setClient client := by
  obtain ⟨⟨σ, data⟩, hi, h⟩ := Option.bind_eq_some_iff.mp h
  obtain ⟨received, hread, h⟩ := Option.bind_eq_some_iff.mp h
  obtain ⟨client, hclient, rfl⟩ := Option.map_eq_some_iff.mp h
  exact ⟨σ, data, received, client, List.mem_of_getElem? hi, hread, hclient, rfl⟩

theorem stepTakeReply_eq_some {i : Nat} (h : stepTakeReply fuel service s i = some s') :
    ∃ σ data reply server, (σ, data) ∈ s.replies ∧
      readSample fuel service.replyType data = some reply ∧
      Server.Correlation.step service s.server (.arrive σ reply) = some server ∧
      s' = s.setServer server := by
  obtain ⟨⟨σ, data⟩, hi, h⟩ := Option.bind_eq_some_iff.mp h
  obtain ⟨reply, hread, h⟩ := Option.bind_eq_some_iff.mp h
  obtain ⟨server, hserver, rfl⟩ := Option.map_eq_some_iff.mp h
  exact ⟨σ, data, reply, server, List.mem_of_getElem? hi, hread, hserver, rfl⟩

omit [DecidableEq H] in
/-- A write ends the thread of a response; if it goes through the reply is on its way. -/
theorem stepWrite_eq_some {id : Nat} {written : Bool}
    (h : stepWrite service s id written = some s') :
    ∃ th path success client, s.client.responses[id]? = some th ∧ th.pc = .write path ∧
      Client.Correlation.step service s.client (.write id success) = some client ∧
      ((success = false ∧ s' = s.setClient client) ∨
      ∃ reply converted data, Client.buildReply service path th.type th.response = some reply ∧
        service.replyType.admits reply = true ∧
        xtypesToFastdds service.replyType reply s.replyData = .ok (converted, data) ∧
        s' = { s with
          client := client
          replyData := data
          replies := s.replies ++ if success then [(th.handle.sampleIdentity, data)] else [] })
    := by
  obtain ⟨th, hth, h⟩ := Option.bind_eq_some_iff.mp h
  split at h
  · rename_i path hpc
    split at h
    · obtain ⟨client, hclient, rfl⟩ := Option.map_eq_some_iff.mp h
      exact ⟨th, path, false, client, hth, hpc, hclient, .inl ⟨rfl, rfl⟩⟩
    · rename_i reply hreply
      split at h
      · rename_i hadmits
        split at h
        · cases h
        · rename_i converted data hconvert
          obtain ⟨client, hclient, rfl⟩ := Option.map_eq_some_iff.mp h
          exact ⟨th, path, converted && written, client, hth, hpc, hclient,
            .inr ⟨reply, converted, data, hreply, hadmits, hconvert, rfl⟩⟩
      · cases h
  · cases h

end Rpc

end FastDdsSh
