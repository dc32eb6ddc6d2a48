import FastDdsSh.Rpc.Agreement

/-!
# A pending call can still be answered

Whatever has happened to other calls, requests and replies, none of it stands in the way of a call
whose request the client has yet to take: there is a run that takes it through both parties and
gives the caller what the service answers.
-/

namespace FastDdsSh

open Transition KeyedStore

/-! ## One request through the client -/

namespace Client.Correlation

variable {S Cb : Type} [DecidableEq S] [Xtypes] {service : Service} {c₀ : Client S Cb}
  {s s' : State S Cb}

omit [DecidableEq S] in
theorem invocation_congr {c c' : Client S Cb} (h : c'.callbacks = c.callbacks) (sample : S)
    (received : Value) (path : String) :
    c'.invocation service sample received path = c.invocation service sample received path := by
  unfold Client.invocation
  rw [h]

/-- The callbacks stay as they were configured. -/
theorem callbacks_of_reachable (h : (machine service c₀).Reachable s) :
    s.client.callbacks = c₀.callbacks := by
  refine h.invariant (I := fun s => s.client.callbacks = c₀.callbacks) ?_ ?_
  · rintro s ⟨rfl, -⟩
    rfl
  · intro s e s' h hstep
    by_cases hinner : Rpc.isInner e = true
    · obtain ⟨-, -, hcallbacks, -⟩ := inner_frame hinner hstep
      rw [hcallbacks, h]
    cases e with
    | receive sample received =>
      obtain ⟨-, -, -, hclient⟩ := receive_frame (show step service s _ = some s' from hstep)
      rw [hclient, h]
    | write id success =>
      obtain ⟨th, hth, hrest⟩ := Option.bind_eq_some_iff.mp hstep
      cases hpc : th.pc with
      | write path =>
        obtain ⟨-, hclient, -⟩ := write_cases hth hpc hstep
        rw [hclient, h]
      | take | done | failed =>
        simp only [stepResponse, hpc] at hrest
        cases hrest
    | _ => exact absurd rfl hinner

def serving (s : State S Cb) (sample : S) (type : DynamicType) (response : Value) :
    List (Event S) :=
  let id := s.requests.length
  [.select id, .remember id, .invoke id, .respond ⟨id, sample⟩ type response,
    .take s.responses.length]

omit [DecidableEq S] in
/-- The handle of a call is the sample identity of its request. -/
theorem handle_of_invocation {c : Client S Cb} {sample : S} {received : Value} {path : String}
    {call : Invocation S Cb} (h : c.invocation service sample received path = some (some call)) :
    call.handle = sample := by
  obtain ⟨⟨t, message⟩, -, h⟩ := Option.map_eq_some_iff.mp h
  obtain ⟨callback, -, rfl⟩ := Option.map_eq_some_iff.mp h
  rfl

/-- A request that selects a member with a callback gets as far as the write of its reply. -/
theorem run_serving (h : (machine service c₀).Reachable s) {sample : S}
    (hnew : sample ∉ s.requests.map RequestThread.sample) {received : Value}
    {m : NavigationNode.Selected} (hselect : c₀.selectMember service received = some m)
    {call : Invocation S Cb}
    (hinvoke : c₀.invocation service sample received m.path = some (some call))
    (type : DynamicType) (response : Value) :
    ∃ s₁ s₂, step service s (.receive sample received) = some s₁ ∧
      (machine service c₀).run s₁ (serving s sample type response) = some s₂ ∧
      s₂.responses[s.responses.length]? =
        some ⟨.write (c₀.replyPath service m.typeName), ⟨s.requests.length, sample⟩, type,
          response⟩ := by
  have hinv := replyInv_of_reachable h
  have hselect' : s.client.selectMember service received = some m := by
    rw [hinv.selects, hselect]
  -- nothing is remembered for the sample, and no response has its handle
  have hfresh : s.client.replyIdType sample = none := by
    apply hinv.fresh
    intro i th hth hsample
    exact absurd (List.mem_map.mpr ⟨th, List.mem_of_getElem? hth, hsample⟩) hnew
  have hunanswered : (⟨s.requests.length, sample⟩ : Handle S) ∉
      s.responses.map ResponseThread.handle := by
    intro hmem
    obtain ⟨th, hth, hthandle⟩ := List.mem_map.mp hmem
    obtain ⟨i, hi⟩ := List.getElem?_of_mem hth
    obtain ⟨r, m, hr, -⟩ := hinv.handles _ (hinv.responded i th hi)
    rw [hthandle] at hr
    exact absurd (lt_length_of_getElem? hr) (lt_irrefl _)
  have hinvoke' : (s.client.rememberReply sample m.typeName).invocation service sample received
      m.path = some (some call) := by
    rw [← hinvoke]
    refine invocation_congr ?_ sample received m.path
    rw [rememberReply_callbacks, callbacks_of_reachable h]
  have hpath : ((s.client.rememberReply sample m.typeName).takeReplyPath service sample).1 =
      c₀.replyPath service m.typeName := by
    rw [takeReplyPath_path, rememberedPath_rememberReply hfresh, hinv.replyPaths]
  let at' (client : Client S Cb) (pc : RequestPc) (handles : List (Handle S))
      (responses : List (ResponseThread S)) : State S Cb :=
    ⟨client, s.requests ++ [⟨pc, sample, received⟩], responses, handles, s.written⟩
  let client := s.client.rememberReply sample m.typeName
  let handle : Handle S := ⟨s.requests.length, sample⟩
  have hreceive : step service s (.receive sample received) =
      some (at' s.client .select s.handles s.responses) := if_neg hnew
  have hselected : step service (at' s.client .select s.handles s.responses)
      (.select s.requests.length) = some (at' s.client (.remember m) s.handles s.responses) := by
    simp only [step, at', List.getElem?_concat_length, Option.bind_some, stepRequest, hselect',
      State.setRequest, set_concat]
  have hremembered : step service (at' s.client (.remember m) s.handles s.responses)
      (.remember s.requests.length) = some (at' client (.invoke m) s.handles s.responses) := by
    simp only [step, at', List.getElem?_concat_length, Option.bind_some, stepRequest,
      State.setRequest, set_concat, client]
  have hinvoked : step service (at' client (.invoke m) s.handles s.responses)
      (.invoke s.requests.length) =
        some (at' client (.callback m) (s.handles ++ [handle]) s.responses) := by
    simp only [step, at', List.getElem?_concat_length, Option.bind_some, stepRequest,
      State.setRequest, set_concat, client, hinvoke', handle_of_invocation hinvoke, handle]
  have hresponded : step service (at' client (.callback m) (s.handles ++ [handle]) s.responses)
      (.respond handle type response) =
        some (at' client (.callback m) (s.handles ++ [handle])
          (s.responses ++ [⟨.take, handle, type, response⟩])) :=
    if_pos ⟨List.mem_append_right _ List.mem_cons_self, hunanswered⟩
  have htaken : step service (at' client (.callback m) (s.handles ++ [handle])
      (s.responses ++ [⟨.take, handle, type, response⟩])) (.take s.responses.length) =
        some (at' (client.takeReplyPath service sample).2 (.callback m) (s.handles ++ [handle])
          (s.responses ++ [⟨.write (c₀.replyPath service m.typeName), handle, type,
            response⟩])) := by
    simp only [step, at', List.getElem?_concat_length, Option.bind_some, stepResponse,
      State.setResponse, set_concat, client, hpath, handle]
  refine ⟨_, at' (client.takeReplyPath service sample).2 (.callback m) (s.handles ++ [handle])
    (s.responses ++ [⟨.write (c₀.replyPath service m.typeName), handle, type, response⟩]), hreceive,
    ?_, List.getElem?_concat_length⟩
  simp only [serving, Machine.run_cons, machine, hselected, hremembered, hinvoked, hresponded,
    htaken, handle, Option.bind_some]
  rfl

end Client.Correlation

/-! ## One call through both parties -/

namespace Rpc

variable {H K S Cb : Type} [DecidableEq H] [DecidableEq S] [Xtypes] [Dds] {fuel : Nat}
  {service : Service} {s₀ : KeyedServer H K S} {c₀ : Client S Cb} {s s' : State H K S Cb}

/-- The client runs in the system as by itself. -/
theorem run_client {c c' : Client.Correlation.State S Cb} {es : List (Client.Correlation.Event S)}
    (hinner : ∀ e ∈ es, isInner e = true)
    (h : (Client.Correlation.machine service c₀).run c es = some c') :
    (machine fuel service s₀ c₀).run (s.setClient c) (es.map .client) =
      some (s.setClient c') := by
  induction es generalizing c with
  | nil =>
    cases h
    rfl
  | cons e es ih =>
    rw [Machine.run_cons] at h
    obtain ⟨d, hd, hrest⟩ := Option.bind_eq_some_iff.mp h
    have hstep : (machine fuel service s₀ c₀).step (s.setClient c) (.client e) =
        some (s.setClient d) := by
      show (if isInner e = true then _ else _) = _
      rw [if_pos (hinner e List.mem_cons_self)]
      exact congrArg (Option.map (State.setClient (s.setClient c))) hd
    rw [List.map_cons, Machine.run_cons, hstep, Option.bind_some]
    exact ih (fun e he => hinner e (List.mem_cons_of_mem _ he)) hrest

/-- The request of every call that was written is on its way. -/
theorem exists_sample (h : (machine fuel service s₀ c₀).Reachable s) :
    ∀ a ∈ s.asked, ∀ sample, a.call.sample = some sample →
      ∃ data, (sample, data) ∈ s.requests := by
  refine h.invariant (I := fun s => ∀ a ∈ s.asked, ∀ sample, a.call.sample = some sample →
    ∃ data, (sample, data) ∈ s.requests) ?_ ?_
  · rintro s ⟨-, -, -, -, -, -, -, -, hasked⟩
    rw [hasked]
    exact List.forall_mem_nil _
  · intro s e s' h hstep
    cases e with
    | call t v handle client written =>
      obtain ⟨request, converted, data, server, -, -, -, -, rfl⟩ := stepCall_eq_some hstep
      intro a ha sample hsample
      rcases List.mem_append.mp ha with ha | ha
      · obtain ⟨d, hd⟩ := h a ha sample hsample
        exact ⟨d, List.mem_append_left _ hd⟩
      · obtain rfl := List.mem_singleton.mp ha
        refine ⟨data, List.mem_append_right _ (List.mem_map.mpr ⟨sample, ?_, rfl⟩)⟩
        exact Option.mem_toList.mpr hsample
    | takeRequest i =>
      obtain ⟨σ, data, received, client, -, -, -, rfl⟩ := stepTakeRequest_eq_some hstep
      exact h
    | client e =>
      simp only [machine, step] at hstep
      split at hstep
      · obtain ⟨client, -, rfl⟩ := Option.map_eq_some_iff.mp hstep
        exact h
      · cases hstep
    | write id written =>
      obtain ⟨th, path, success, client, -, -, -, hcases⟩ := stepWrite_eq_some hstep
      rcases hcases with ⟨-, rfl⟩ | ⟨reply, converted, data, -, -, -, rfl⟩
      · exact h
      · exact h
    | takeReply i =>
      obtain ⟨σ, data, reply, server, -, -, -, rfl⟩ := stepTakeReply_eq_some hstep
      exact h
    | lookup id | deliver id =>
      obtain ⟨server, -, rfl⟩ := Option.map_eq_some_iff.mp hstep
      exact h

/-- A reply to a pending call gets to the caller. -/
theorem run_reply (h : (machine fuel service s₀ c₀).Reachable s) {a : Asked H K S}
    (ha : a ∈ s.asked) {sample : S} (hsample : a.call.sample = some sample)
    (hpending : ¬ Server.Correlation.Answered s.server a.call.handle) {i : Nat} {data : DdsData}
    (hi : s.replies[i]? = some (sample, data)) {reply : Value}
    (hread : readSample fuel service.replyType data = some reply)
    {message : DynamicType × Value}
    (hmessage : reply.component service.replyType
      (memberPath (s₀.replyPath service a.type.name)) = some message) :
    ∃ s', (machine fuel service s₀ c₀).run s [.takeReply i, .lookup s.server.threads.length,
        .deliver s.server.threads.length] = some s' ∧
      ⟨a.call.handle, a.call.client, sample, message⟩ ∈ s'.server.responses := by
  have htables := tables_of_reachable h
  have hinv := Server.Correlation.callInv_of_reachable (server_reachable h)
  obtain ⟨hclient, hfound⟩ := hinv.pending a.call (htables.mem_calls ha) sample hsample hpending
  have hpath := htables.routes.takeReplyPath_path service
    (htables.remembered a ha sample hsample hpending)
  let at' (server : KeyedServer H K S) (pc : Server.Correlation.ReplyPc H)
      (responses : List (Server.Correlation.Response H K S)) : State H K S Cb :=
    s.setServer ⟨server, s.server.threads ++ [⟨pc, sample, reply⟩], s.server.calls, responses⟩
  have htaken : step fuel service s (.takeReply i) =
      some (at' s.server.server .lookup s.server.responses) := by
    simp only [step, stepTakeReply, hi, Option.bind_some, hread, Server.Correlation.step,
      Option.map_some, at']
  have hlooked : step fuel service (at' s.server.server .lookup s.server.responses)
      (.lookup s.server.threads.length) =
        some (at' s.server.server (.deliver a.call.handle) s.server.responses) := by
    simp only [step, Server.Correlation.step, Server.Correlation.stepLookup, at', State.setServer,
      List.getElem?_concat_length, Server.lookupCall, Container.find_keyedStore, hfound,
      set_concat, Option.map_some]
  obtain ⟨server, hdelivered⟩ : ∃ server, s.server.server.deliverReply service sample a.call.handle
      reply = some (server, some (a.call.client, message)) := by
    have hout := Server.deliverReply_of_client service sample hclient reply
    rw [hpath, hmessage] at hout
    obtain ⟨⟨server, out⟩, hserver, heq⟩ := Option.map_eq_some_iff.mp hout
    have heq : out = some (a.call.client, message) := heq
    exact ⟨server, by rw [hserver, heq]⟩
  have hgiven : step fuel service (at' s.server.server (.deliver a.call.handle) s.server.responses)
      (.deliver s.server.threads.length) = some (at' server .done
        (s.server.responses ++ [⟨a.call.handle, a.call.client, sample, message⟩])) := by
    simp only [step, Server.Correlation.step, Server.Correlation.stepDeliver, at', State.setServer,
      List.getElem?_concat_length, if_true, hdelivered, set_concat, Option.map_some,
      Option.toList_some, List.map_cons, List.map_nil]
  refine ⟨at' server .done
    (s.server.responses ++ [⟨a.call.handle, a.call.client, sample, message⟩]), ?_, ?_⟩
  · simp only [Machine.run_cons, machine, htaken, hlooked, hgiven, Option.bind_some]
    rfl
  · exact List.mem_append_right _ List.mem_cons_self

/-- What makes a service answer a request `request`, received by the client as `received`: a member
with a callback is selected, and the response makes a reply that can be converted there and back,
with the message at the path where the server looks for it. -/
structure Answerable (service : Service) (s₀ : KeyedServer H K S) (c₀ : Client S Cb)
    (a : Asked H K S) (type : DynamicType) (response : Value) (message : DynamicType × Value) :
    Prop where
  request : service.requestType.writable .entry a.request = true
  served : ∃ m, c₀.selectMember service (service.requestType.rebuilt a.request) = some m ∧
    (∀ sample, ∃ call, c₀.invocation service sample (service.requestType.rebuilt a.request) m.path =
      some (some call)) ∧
    ∃ reply, Client.buildReply service (c₀.replyPath service m.typeName) type response =
        some reply ∧
      service.replyType.admits reply = true ∧
      service.replyType.readable .entry reply = true ∧
      service.replyType.writable .entry reply = true ∧
      (service.replyType.rebuilt reply).component service.replyType
        (memberPath (s₀.replyPath service a.type.name)) = some message

/-- With types whose values are converted, and in every reachable state, a pending call whose
request the client has yet to take, and which a service can answer, can still be answered. -/
theorem pending_call_answerable [LawfulDds] (hrequest : Transferable fuel service.requestType)
    (hreply : Transferable fuel service.replyType)
    (h : (machine fuel service s₀ c₀).Reachable s) {a : Asked H K S} (ha : a ∈ s.asked)
    {sample : S} (hsample : a.call.sample = some sample)
    (hpending : ¬ Server.Correlation.Answered s.server a.call.handle)
    (hnew : sample ∉ s.client.requests.map Client.Correlation.RequestThread.sample)
    {type : DynamicType} {response : Value} {message : DynamicType × Value}
    (hanswerable : Answerable service s₀ c₀ a type response message) :
    ∃ es s', (machine fuel service s₀ c₀).run s es = some s' ∧
      ⟨a.call.handle, a.call.client, sample, message⟩ ∈ s'.server.responses := by
  obtain ⟨hwritable, m, hselect, hinvoke, reply, hbuild, hadmits, hreadable, hwritable',
    hmessage⟩ := hanswerable
  obtain ⟨call, hinvoke⟩ := hinvoke sample
  have htraffic := traffic_of_reachable hrequest hreply h
  have htables := tables_of_reachable h
  have hinv := Server.Correlation.callInv_of_reachable (server_reachable h)
  -- the client takes the request, which is the one of this call
  obtain ⟨data, hdata⟩ := exists_sample h a ha sample hsample
  obtain ⟨i, hi⟩ := List.getElem?_of_mem hdata
  obtain ⟨b, hb, hbsample, hcarries⟩ := htraffic.requests _ hdata
  obtain rfl := htables.eq_of_sample hinv ha hb hsample hbsample
  have hread := hcarries.read_of_writable hwritable
  obtain ⟨c₁, c₂, hreceived, hserved, hth⟩ :=
    Client.Correlation.run_serving (client_reachable h) hnew hselect hinvoke type response
  have htake : (machine fuel service s₀ c₀).step s (.takeRequest i) = some (s.setClient c₁) := by
    simp only [machine, step, stepTakeRequest, hi, Option.bind_some, hread, hreceived,
      Option.map_some]
  have hserving : ∀ e ∈ Client.Correlation.serving s.client sample type response,
      isInner e = true := by
    intro e he
    simp only [Client.Correlation.serving, List.mem_cons, List.not_mem_nil, or_false] at he
    rcases he with rfl | rfl | rfl | rfl | rfl <;> rfl
  have hrun : (machine fuel service s₀ c₀).run (s.setClient c₁) _ = some (s.setClient c₂) :=
    run_client hserving hserved
  have hreach : (machine fuel service s₀ c₀).Reachable (s.setClient c₂) :=
    Machine.Reachable.of_run (Machine.ReachableVia.step h trivial htake) _ hrun
  -- its reply is converted and written
  obtain ⟨data', hconverted⟩ := exists_converted hreply hadmits hreadable htraffic.replyData
  obtain ⟨-, -, hcarries'⟩ :=
    carries_of_xtypesToFastdds hreply hadmits htraffic.replyData hconverted
  obtain ⟨c₃, hwritten⟩ : ∃ c₃, Client.Correlation.step service c₂
      (.write s.client.responses.length true) = some c₃ := by
    simp only [Client.Correlation.step, hth, Option.bind_some, Client.Correlation.stepResponse,
      hbuild, if_true]
    exact ⟨_, rfl⟩
  let s₃ : State H K S Cb := { s with
    client := c₃, replyData := data', replies := s.replies ++ [(sample, data')] }
  have hwrite : (machine fuel service s₀ c₀).step (s.setClient c₂)
      (.write s.client.responses.length true) = some s₃ := by
    simp only [machine, step, stepWrite, State.setClient, hth, Option.bind_some, hbuild, hadmits,
      if_true, hconverted, Bool.and_self, hwritten, Option.map_some, s₃]
  -- and the server takes it
  have hreach' : (machine fuel service s₀ c₀).Reachable s₃ :=
    Machine.ReachableVia.step hreach trivial hwrite
  obtain ⟨s', hrun', hmem⟩ := run_reply hreach' ha hsample hpending
    (i := s.replies.length) List.getElem?_concat_length (hcarries'.read_of_writable hwritable')
    hmessage
  refine ⟨.takeRequest i :: ((Client.Correlation.serving s.client sample type response).map .client
    ++ .write s.client.responses.length true :: [.takeReply s.replies.length,
      .lookup s.server.threads.length, .deliver s.server.threads.length]), s', ?_, hmem⟩
  rw [Machine.run_cons, htake, Option.bind_some, Machine.run_append, hrun, Option.bind_some,
    Machine.run_cons, hwrite, Option.bind_some]
  exact hrun'

/-! ## Examples -/

omit [DecidableEq H] [DecidableEq S] [Xtypes] [Dds]

def firstCall : Asked Nat Nat Nat :=
  ⟨⟨1, 100, some 5⟩, moveType, moveRequest 4, .union 1 "move" (moveRequest 4)⟩

theorem answerable_firstCall :
    @Answerable Nat Nat Nat Nat firstLabelXtypes steerService steerServer steerClient firstCall
      movedType (movedResponse 40) (movedType, movedResponse 40) :=
  @Answerable.mk Nat Nat Nat Nat firstLabelXtypes steerService steerServer steerClient firstCall
    movedType (movedResponse 40) (movedType, movedResponse 40) (by decide)
    ⟨⟨"Request.move", "Move"⟩, rfl, fun _ => ⟨_, rfl⟩, .struct [("moved", movedResponse 40)], rfl,
      by decide, by decide, by decide, rfl⟩

theorem pending_call_answerable_firstCall :
    ∃ s es s', steerMachine.run steerStart [.call moveType (moveRequest 4) 1 100 (some 5),
        .call moveType (moveRequest 7) 2 200 none] = some s ∧ steerMachine.run s es = some s' ∧
      ⟨1, 100, 5, (movedType, movedResponse 40)⟩ ∈ s'.server.responses := by
  have hrun : ∃ s, steerMachine.run steerStart [.call moveType (moveRequest 4) 1 100 (some 5),
      .call moveType (moveRequest 7) 2 200 none] = some s ∧ firstCall ∈ s.asked ∧
      s.server.responses = [] ∧ s.client.requests = [] :=
    ⟨_, rfl, List.mem_cons_self, rfl, rfl⟩
  obtain ⟨s, hs, hasked, hresponses, hrequests⟩ := hrun
  have hreach := steerStart_reachable.of_run _ hs
  obtain ⟨es, s', hes, hmem⟩ := @pending_call_answerable Nat Nat Nat Nat _ _ firstLabelXtypes
    zeroDds 3 steerService steerServer steerClient s lawful_zeroDds transferable_steerRequest
    transferable_steerReply hreach firstCall hasked 5 rfl (by simp [Server.Correlation.Answered,
      hresponses]) (by simp [hrequests]) movedType (movedResponse 40)
    (movedType, movedResponse 40) answerable_firstCall
  exact ⟨s, es, s', hs, hes, hmem⟩

end Rpc

end FastDdsSh
