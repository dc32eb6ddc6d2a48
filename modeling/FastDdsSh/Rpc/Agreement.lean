import FastDdsSh.Rpc.Effects

/-!
# Callers get the answers to their calls

In every interleaving of the two parties and for every behaviour of the network, a response that a
caller gets is the one that the service gave to that call.
-/

namespace FastDdsSh.Rpc

open Transition

variable {H K S Cb : Type} [DecidableEq H] [DecidableEq S] [Xtypes] [Dds] {fuel : Nat}
  {service : Service} {s₀ : KeyedServer H K S} {c₀ : Client S Cb} {s s' : State H K S Cb}

/-! ## The parties -/

theorem server_reachable (h : (machine fuel service s₀ c₀).Reachable s) :
    (Server.Correlation.machine service).Reachable s.server := by
  refine h.map State.server ?_ ?_
  · rintro s ⟨hserver, ⟨hclients, hsamples, htypes⟩, -, -, -, -, -⟩
    rw [hserver]
    exact ⟨hclients, hsamples, htypes, rfl, rfl, rfl⟩
  · exact fun _ _ _ hstep => (step_parties hstep).1

theorem client_reachable (h : (machine fuel service s₀ c₀).Reachable s) :
    (Client.Correlation.machine service c₀).Reachable s.client := by
  refine h.map State.client ?_ ?_
  · rintro s ⟨-, -, hclient, htable, -, -, -⟩
    exact ⟨hclient, htable⟩
  · exact fun _ _ _ hstep => (step_parties hstep).2

theorem tables_of_reachable (h : (machine fuel service s₀ c₀).Reachable s) :
    Tables service s₀ s.server s.asked := by
  refine Machine.ReachableVia.invariant_using (I := fun s => Tables service s₀ s.server s.asked)
    (J := fun s => Server.Correlation.CallInv s.server) h
    (fun _ h => Server.Correlation.callInv_of_reachable (server_reachable h)) ?_ ?_
  · rintro s ⟨hserver, ⟨-, -, htypes⟩, -, -, -, -, -, -, hasked⟩
    rw [hserver, hasked]
    refine ⟨rfl, .refl s₀, List.forall_mem_nil _, fun σ _ => ?_, List.forall_mem_nil _⟩
    rw [htypes]
    rfl
  · exact fun s e s' hinv h _ hstep => h.step hinv hstep

/-! ## What is on its way -/

/-- Every sample carries what a party wrote, and every thread has read such a sample. -/
structure Traffic (fuel : Nat) (service : Service) (s : State H K S Cb) : Prop where
  requestData : Shaped service.requestType s.requestData
  replyData : Shaped service.replyType s.replyData
  asked : ∀ a ∈ s.asked, service.requestType.admits a.request = true
  requests : ∀ x ∈ s.requests, ∃ a ∈ s.asked, a.call.sample = some x.1 ∧
    Carries fuel service.requestType a.request x.2
  received : ∀ x ∈ s.client.arguments, ∃ a ∈ s.asked, a.call.sample = some x.1 ∧
    x.2 = service.requestType.rebuilt a.request
  written : ∀ w ∈ s.client.written, service.replyType.admits w.reply = true
  replies : ∀ x ∈ s.replies, ∃ w ∈ s.client.written, w.relatedSampleIdentity = x.1 ∧
    Carries fuel service.replyType w.reply x.2
  arrived : ∀ x ∈ s.server.arguments, ∃ w ∈ s.client.written, w.relatedSampleIdentity = x.1 ∧
    x.2 = service.replyType.rebuilt w.reply

omit [DecidableEq H] [DecidableEq S] in
theorem Traffic.step {e : Event H K S} (h : Traffic fuel service s)
    (heffects : Effects fuel service e s s') : Traffic fuel service s' := by
  refine ⟨heffects.requestData, heffects.replyData, fun a ha => ?_, fun x hx => ?_, fun x hx => ?_,
    fun w hw => ?_, fun x hx => ?_, fun x hx => ?_⟩
  · rcases heffects.asked a ha with ha | ⟨hadmits, -⟩
    · exact h.asked a ha
    · exact hadmits
  · rcases heffects.requests x hx with hx | hnew
    · obtain ⟨a, ha, hrest⟩ := h.requests x hx
      exact ⟨a, heffects.keptAsked a ha, hrest⟩
    · exact hnew
  · rcases heffects.received x hx with hx | ⟨data, hmem, hread⟩
    · obtain ⟨a, ha, hrest⟩ := h.received x hx
      exact ⟨a, heffects.keptAsked a ha, hrest⟩
    · obtain ⟨a, ha, hsample, hcarries⟩ := h.requests _ hmem
      exact ⟨a, heffects.keptAsked a ha, hsample, hcarries.read hread⟩
  · rcases heffects.written w hw with hw | hadmits
    · exact h.written w hw
    · exact hadmits
  · rcases heffects.replies x hx with hx | hnew
    · obtain ⟨w, hw, hrest⟩ := h.replies x hx
      exact ⟨w, heffects.keptWritten w hw, hrest⟩
    · exact hnew
  · rcases heffects.arrived x hx with hx | ⟨data, hmem, hread⟩
    · obtain ⟨w, hw, hrest⟩ := h.arrived x hx
      exact ⟨w, heffects.keptWritten w hw, hrest⟩
    · obtain ⟨w, hw, hrelated, hcarries⟩ := h.replies _ hmem
      exact ⟨w, heffects.keptWritten w hw, hrelated, hcarries.read hread⟩

theorem traffic_of_reachable [LawfulDds] (hrequest : Transferable fuel service.requestType)
    (hreply : Transferable fuel service.replyType)
    (h : (machine fuel service s₀ c₀).Reachable s) : Traffic fuel service s := by
  refine h.invariant (I := Traffic fuel service) ?_ ?_
  · rintro s ⟨hserver, -, hclient, -, ⟨T, hT, hTdata⟩, ⟨U, hU, hUdata⟩, hrequests, hreplies, hasked⟩
    constructor
    · rw [hTdata]
      exact shaped_createData hT
    · rw [hUdata]
      exact shaped_createData hU
    · rw [hasked]
      exact List.forall_mem_nil _
    · rw [hrequests]
      exact List.forall_mem_nil _
    · rw [hclient]
      exact List.forall_mem_nil _
    · rw [hclient]
      exact List.forall_mem_nil _
    · rw [hreplies]
      exact List.forall_mem_nil _
    · rw [hserver]
      exact List.forall_mem_nil _
  · exact fun s e s' h hstep =>
      h.step (effects_of_step h.requestData h.replyData hrequest hreply hstep)

/-! ## Answers -/

/-- The response `r` is the one to the call `a`, and comes out of the reply `w`. -/
structure Answers (service : Service) (s₀ : KeyedServer H K S)
    (r : Server.Correlation.Response H K S) (a : Asked H K S)
    (w : Client.Correlation.Written S) : Prop where
  handle : a.call.handle = r.handle
  client : a.call.client = r.client
  sample : a.call.sample = some r.sample
  related : w.relatedSampleIdentity = r.sample
  message : (service.replyType.rebuilt w.reply).component service.replyType
    (memberPath (s₀.replyPath service a.type.name)) = some r.message

theorem answers_of_reachable [LawfulDds] (hrequest : Transferable fuel service.requestType)
    (hreply : Transferable fuel service.replyType)
    (h : (machine fuel service s₀ c₀).Reachable s) :
    ∀ r ∈ s.server.responses, ∃ a ∈ s.asked, ∃ w ∈ s.client.written, Answers service s₀ r a w := by
  refine Machine.ReachableVia.invariant_using
    (I := fun s => ∀ r ∈ s.server.responses, ∃ a ∈ s.asked, ∃ w ∈ s.client.written,
      Answers service s₀ r a w)
    (J := fun s => (Server.Correlation.CallInv s.server ∧ Tables service s₀ s.server s.asked) ∧
      Traffic fuel service s) h ?_ ?_ ?_
  · intro s h
    exact ⟨⟨Server.Correlation.callInv_of_reachable (server_reachable h), tables_of_reachable h⟩,
      traffic_of_reachable hrequest hreply h⟩
  · rintro s ⟨hserver, -, -, -, -, -, -⟩
    rw [hserver]
    exact List.forall_mem_nil _
  · rintro s e s' ⟨⟨hcalls, htables⟩, htraffic⟩ ih - hstep
    have heffects :=
      effects_of_step htraffic.requestData htraffic.replyData hrequest hreply hstep
    intro r hr
    rcases responses_of_step htables hcalls hstep r hr with
      hr | ⟨a, ha, reply, hmem, hhandle, hclient, hsample, hmessage⟩
    · obtain ⟨a, ha, w, hw, hanswers⟩ := ih r hr
      exact ⟨a, heffects.keptAsked a ha, w, heffects.keptWritten w hw, hanswers⟩
    · obtain ⟨w, hw, hrelated, hread⟩ := htraffic.arrived _ hmem
      have hread : reply = service.replyType.rebuilt w.reply := hread
      rw [hread] at hmessage
      exact ⟨a, heffects.keptAsked a ha, w, heffects.keptWritten w hw, hhandle, hclient, hsample,
        hrelated, hmessage⟩

omit [DecidableEq H] [DecidableEq S] [Dds] in
/-- A sample identity belongs to one call. -/
theorem Tables.eq_of_sample {server : Server.Correlation.KeyedState H K S}
    {asked : List (Asked H K S)} (h : Tables service s₀ server asked)
    (hinv : Server.Correlation.CallInv server) {a b : Asked H K S} (ha : a ∈ asked)
    (hb : b ∈ asked) {sample : S} (hsample : a.call.sample = some sample)
    (hsample' : b.call.sample = some sample) : a = b := by
  have hhandle := hinv.samples a.call (h.mem_calls ha) b.call (h.mem_calls hb)
    (by rw [hsample]; rfl) (by rw [hsample, hsample'])
  have hnodup : (asked.map fun a => a.call.handle).Nodup := by
    have hhandles := hinv.handles
    rw [← h.calls, List.map_map] at hhandles
    exact hhandles
  exact List.inj_on_of_nodup_map hnodup ha hb hhandle

omit [DecidableEq S] [Dds] in
/-- A reply was written for a request that the client has received. -/
theorem exists_request_of_written {client : Client.Correlation.State S Cb}
    (h : Client.Correlation.ReplyInv service c₀ client) {w : Client.Correlation.Written S}
    (hw : w ∈ client.written) :
    ∃ th m, client.requests[w.handle.request]? = some th ∧ th.sample = w.relatedSampleIdentity ∧
      c₀.selectMember service th.received = some m ∧ w.path = c₀.replyPath service m.typeName := by
  obtain ⟨th, m, hth, hm, hrelated, hpath, -⟩ := h.written w hw
  exact ⟨th, m, hth, hrelated.symm,
    h.selected _ th m hth (Client.Correlation.member_of_remembered hm), hpath⟩

omit [Dds] in
/-- A request has at most one reply. -/
theorem written_unique {client : Client.Correlation.State S Cb}
    (h : (Client.Correlation.machine service c₀).Reachable client)
    {w w' : Client.Correlation.Written S} (hw : w ∈ client.written) (hw' : w' ∈ client.written)
    (hrelated : w'.relatedSampleIdentity = w.relatedSampleIdentity) : w' = w := by
  have hinv := Client.Correlation.replyInv_of_reachable h
  have hwritten := Client.Correlation.writtenOnce_of_reachable h
  -- a handle is known by its request, and a request by its sample
  have hhandle {w : Client.Correlation.Written S} (hw : w ∈ client.written) :
      ∃ th, client.requests[w.handle.request]? = some th ∧ th.sample = w.relatedSampleIdentity ∧
        w.handle.sampleIdentity = th.sample := by
    obtain ⟨th, m, hth, hsample, -, -⟩ := exists_request_of_written hinv hw
    obtain ⟨i, u, hu, hsame, -⟩ := hwritten.done w hw
    obtain ⟨th', m', hth', hidentity, -⟩ := hinv.handles _ (hinv.responded i u hu)
    rw [hsame, hth] at hth'
    cases hth'
    exact ⟨th, hth, hsample, by rw [hidentity, hsame]⟩
  obtain ⟨th, hth, hsample, hidentity⟩ := hhandle hw
  obtain ⟨th', hth', hsample', hidentity'⟩ := hhandle hw'
  have hrequest := hinv.distinct _ _ th' th hth' hth (by rw [hsample', hsample, hrelated])
  refine List.inj_on_of_nodup_map hwritten.once hw' hw (Client.Correlation.Handle.ext hrequest ?_)
  rw [hidentity', hidentity, hsample', hsample, hrelated]

/-- A response answers a call, out of a reply to the request that the call had made. -/
theorem exists_answer [LawfulDds] (hrequest : Transferable fuel service.requestType)
    (hreply : Transferable fuel service.replyType)
    (h : (machine fuel service s₀ c₀).Reachable s) {r : Server.Correlation.Response H K S}
    (hr : r ∈ s.server.responses) :
    ∃ a ∈ s.asked, ∃ w ∈ s.client.written, Answers service s₀ r a w ∧
      ∃ th m, s.client.requests[w.handle.request]? = some th ∧ th.sample = r.sample ∧
        th.received = service.requestType.rebuilt a.request ∧
        c₀.selectMember service th.received = some m ∧
        w.path = c₀.replyPath service m.typeName := by
  have hserver := Server.Correlation.callInv_of_reachable (server_reachable h)
  have hclient := Client.Correlation.replyInv_of_reachable (client_reachable h)
  obtain ⟨a, ha, w, hw, hanswers⟩ := answers_of_reachable hrequest hreply h r hr
  obtain ⟨th, m, hth, hsample, hm, hpath⟩ := exists_request_of_written hclient hw
  rw [hanswers.related] at hsample
  have hargument : (th.sample, th.received) ∈ s.client.arguments :=
    List.mem_map.mpr ⟨th, List.mem_of_getElem? hth, rfl⟩
  obtain ⟨b, hb, hbsample, hreceived⟩ :=
    (traffic_of_reachable hrequest hreply h).received _ hargument
  obtain rfl := (tables_of_reachable h).eq_of_sample hserver ha hb hanswers.sample
    (by rw [hbsample, hsample])
  exact ⟨a, ha, w, hw, hanswers, th, m, hth, hsample, hreceived, hm, hpath⟩

/-- With types whose values are converted, and in every interleaving, whatever is lost or overtaken
and whichever replies are taken again, a call has at most one response; the response goes to the
caller, and comes out of the only reply that was written for the request the call had made, at the
path that the server is configured to look at; and the reply was written at the path configured for
the member that was selected in that request. -/
theorem responses_answer_calls [LawfulDds] (hrequest : Transferable fuel service.requestType)
    (hreply : Transferable fuel service.replyType)
    (h : (machine fuel service s₀ c₀).Reachable s) :
    (s.server.responses.map Server.Correlation.Response.handle).Nodup ∧
    ∀ r ∈ s.server.responses, ∃ a ∈ s.asked, ∃ w ∈ s.client.written, Answers service s₀ r a w ∧
      (∀ w' ∈ s.client.written, w'.relatedSampleIdentity = r.sample → w' = w) ∧
      ∃ th m, s.client.requests[w.handle.request]? = some th ∧ th.sample = r.sample ∧
        th.received = service.requestType.rebuilt a.request ∧
        c₀.selectMember service th.received = some m ∧
        w.path = c₀.replyPath service m.typeName := by
  refine ⟨(Server.Correlation.callInv_of_reachable (server_reachable h)).once, ?_⟩
  intro r hr
  obtain ⟨a, ha, w, hw, hanswers, hrest⟩ := exists_answer hrequest hreply h hr
  refine ⟨a, ha, w, hw, hanswers, ?_, hrest⟩
  intro w' hw' hrelated
  exact written_unique (client_reachable h) hw hw' (hrelated.trans hanswers.related.symm)

/-- With types whose values are converted, and where the two sides are configured alike, the service
gets the data of the caller and the caller the response of the service, their unions rebuilt on the
way. -/
theorem messages_cross [LawfulDds] (hrequest : Transferable fuel service.requestType)
    (hreply : Transferable fuel service.replyType)
    (h : (machine fuel service s₀ c₀).Reachable s) :
    ∀ r ∈ s.server.responses, ∃ a ∈ s.asked, ∃ w ∈ s.client.written, ∃ th m,
      Answers service s₀ r a w ∧ s.client.requests[w.handle.request]? = some th ∧
      c₀.selectMember service th.received = some m ∧
      (memberPath m.path = memberPath (s₀.requestPath a.type) →
        ∃ u, th.received.component service.requestType (memberPath m.path) =
          some (u, u.rebuilt a.value)) ∧
      (memberPath w.path = memberPath (s₀.replyPath service a.type.name) →
        ∃ u, r.message = (u, u.rebuilt w.response)) := by
  have htraffic := traffic_of_reachable hrequest hreply h
  have hclient := Client.Correlation.replyInv_of_reachable (client_reachable h)
  intro r hr
  obtain ⟨a, ha, w, hw, hanswers, th, m, hth, -, hreceived, hm, -⟩ :=
    exists_answer hrequest hreply h hr
  refine ⟨a, ha, w, hw, th, m, hanswers, hth, hm, ?_, ?_⟩
  · intro hpath
    have hbuilt := (tables_of_reachable h).requests a ha
    obtain ⟨u, -, hcomponent⟩ := Value.component_assign hbuilt
    rw [hpath, hreceived]
    exact ⟨u, DynamicType.component_rebuilt (htraffic.asked a ha) (Value.present_of_assign hbuilt)
      hcomponent⟩
  · intro hpath
    obtain ⟨-, -, -, -, -, -, hbuilt⟩ := hclient.written w hw
    obtain ⟨u, -, hcomponent⟩ := Value.component_assign hbuilt
    have hread := DynamicType.component_rebuilt (htraffic.written w hw)
      (Value.present_of_assign hbuilt) hcomponent
    rw [hpath, hanswers.message] at hread
    exact ⟨u, Option.some.inj hread⟩

/-! ## Examples -/

omit [DecidableEq H] [DecidableEq S] [Xtypes] [Dds]

def moveType : DynamicType := .structType "Move" [("x", .leafType "int32_t" .int32)]

def movedType : DynamicType := .structType "Moved" [("y", .leafType "int32_t" .int32)]

def steerService : Service where
  requestType := .unionType "Request" (.leafType "int32_t" .int32) [("move", moveType)]
    [⟨[1], false⟩]
  replyType := .structType "Reply" [("moved", movedType)]

def steerServer : KeyedServer Nat Nat Nat where
  typeToDiscriminator := (KeyedStore.empty.set "Move" "Request.move").set "Moved" "Reply.moved"
  requestReply := KeyedStore.empty.set "Move" "Moved"
  callhandleClient := .empty
  sampleCallhandle := .empty
  replyIdType := .empty

def steerClient : Client Nat Nat where
  typeToDiscriminator := (KeyedStore.empty.set "Move" "Request.move").set "Moved" "Reply.moved"
  memberTypes := ["Move", "Moved"]
  callbacks := KeyedStore.empty.set "Move" 10
  requestReply := KeyedStore.empty.set "Move" "Moved"
  memberTree := KeyedStore.empty.set "Request"
    (.node "" "Request" [("move", .node "move" "Move" [])])
  replyIdType := .empty

def moveRequest (x : Int) : Value := .struct [("x", .leaf (.integral x))]

def movedResponse (y : Int) : Value := .struct [("y", .leaf (.integral y))]

def steerStart : State Nat Nat Nat Nat where
  server := ⟨steerServer, [], [], []⟩
  client := ⟨steerClient, [], [], [], []⟩
  requestData := (steerService.requestType.getBuilder).elim (.leaf (.string8 0) (.text ""))
    (@DdsType.createData zeroDds)
  replyData := (steerService.replyType.getBuilder).elim (.leaf (.string8 0) (.text ""))
    (@DdsType.createData zeroDds)
  requests := []
  replies := []
  asked := []

/-- Two calls; the second one is received and answered first, and its reply is taken twice. -/
def crossedCalls : List (Event Nat Nat Nat) :=
  [.call moveType (moveRequest 4) 1 100 (some 5), .call moveType (moveRequest 7) 2 200 (some 6),
    .takeRequest 1, .takeRequest 0, .client (.select 0), .client (.select 1),
    .client (.remember 0), .client (.remember 1), .client (.invoke 0), .client (.invoke 1),
    .client (.respond ⟨0, 6⟩ movedType (movedResponse 70)), .client (.take 0), .write 0 true,
    .client (.respond ⟨1, 5⟩ movedType (movedResponse 40)), .client (.take 1), .write 1 true,
    .takeReply 0, .takeReply 0, .lookup 0, .lookup 1, .deliver 0, .deliver 1, .takeReply 1,
    .lookup 2, .deliver 2]

def steerMachine : Machine (State Nat Nat Nat Nat) (Event Nat Nat Nat) :=
  @machine Nat Nat Nat Nat _ _ firstLabelXtypes zeroDds 3 steerService steerServer steerClient

theorem steerStart_reachable : steerMachine.Reachable steerStart := by
  refine Machine.ReachableVia.init (@Initial.mk Nat Nat Nat Nat zeroDds _ _ _ _ rfl
    ⟨rfl, rfl, rfl⟩ rfl rfl ?_ ?_ ⟨rfl, rfl, rfl⟩)
  · exact ⟨_, rfl, rfl⟩
  · exact ⟨_, rfl, rfl⟩

theorem crossedCalls_reachable :
    ∃ s, steerMachine.Reachable s ∧
      s.server.responses.map (fun r => (r.handle, r.client, r.message.2)) =
        [(2, 200, movedResponse 70), (1, 100, movedResponse 40)] := by
  have hrun : (steerMachine.run steerStart crossedCalls).map (fun s => s.server.responses.map
      fun r => (r.handle, r.client, r.message.2)) =
        some [(2, 200, movedResponse 70), (1, 100, movedResponse 40)] := by
    decide +kernel
  obtain ⟨s, hs, hresponses⟩ := Option.map_eq_some_iff.mp hrun
  exact ⟨s, steerStart_reachable.of_run crossedCalls hs, hresponses⟩

theorem transferable_steerRequest : Transferable 3 steerService.requestType :=
  ⟨by decide, by decide, by decide⟩

theorem transferable_steerReply : Transferable 3 steerService.replyType :=
  ⟨by decide, by decide, by decide⟩

theorem responses_answer_crossedCalls :
    ∃ s : State Nat Nat Nat Nat,
      s.server.responses.map (fun r => (r.handle, r.client, r.message.2)) =
        [(2, 200, movedResponse 70), (1, 100, movedResponse 40)] ∧
      (s.server.responses.map Server.Correlation.Response.handle).Nodup ∧
      ∀ r ∈ s.server.responses, ∃ a ∈ s.asked, ∃ w ∈ s.client.written,
        @Answers _ _ _ firstLabelXtypes steerService steerServer r a w ∧
        (∀ w' ∈ s.client.written, w'.relatedSampleIdentity = r.sample → w' = w) ∧
        ∃ th m, s.client.requests[w.handle.request]? = some th ∧ th.sample = r.sample ∧
          th.received = @DynamicType.rebuilt firstLabelXtypes steerService.requestType a.request ∧
          steerClient.selectMember steerService th.received = some m ∧
          w.path = steerClient.replyPath steerService m.typeName := by
  obtain ⟨s, hs, hresponses⟩ := crossedCalls_reachable
  have h := @responses_answer_calls Nat Nat Nat Nat _ _ firstLabelXtypes zeroDds 3 steerService
    steerServer steerClient s lawful_zeroDds transferable_steerRequest transferable_steerReply hs
  exact ⟨s, hresponses, h⟩

theorem messages_cross_crossedCalls :
    ∃ s : State Nat Nat Nat Nat,
      s.server.responses.map (fun r => (r.handle, r.client, r.message.2)) =
        [(2, 200, movedResponse 70), (1, 100, movedResponse 40)] ∧
      ∀ r ∈ s.server.responses, ∃ a ∈ s.asked, ∃ w ∈ s.client.written, ∃ th m,
        @Answers _ _ _ firstLabelXtypes steerService steerServer r a w ∧
        s.client.requests[w.handle.request]? = some th ∧
        steerClient.selectMember steerService th.received = some m ∧
        (memberPath m.path = memberPath (steerServer.requestPath a.type) →
          ∃ u, @Value.component firstLabelXtypes steerService.requestType th.received
              (memberPath m.path) = some (u, @DynamicType.rebuilt firstLabelXtypes u a.value)) ∧
        (memberPath w.path = memberPath (steerServer.replyPath steerService a.type.name) →
          ∃ u, r.message = (u, @DynamicType.rebuilt firstLabelXtypes u w.response)) := by
  obtain ⟨s, hs, hresponses⟩ := crossedCalls_reachable
  have h := @messages_cross Nat Nat Nat Nat _ _ firstLabelXtypes zeroDds 3 steerService
    steerServer steerClient s lawful_zeroDds transferable_steerRequest transferable_steerReply hs
  exact ⟨s, hresponses, h⟩

end FastDdsSh.Rpc
