import FastDdsSh.Rpc.Tables

/-!
# What a step of the two parties does

All that a step adds to the wire, to the arguments of the threads and to the records, and what it
leaves: the invariants of two or of many parties are read off this.
-/

namespace FastDdsSh.Rpc

open Transition Server.Correlation

variable {H K S Cb : Type} [DecidableEq H] [DecidableEq S] [Xtypes] [Dds] {fuel : Nat}
  {service : Service} {s₀ : KeyedServer H K S} {s s' : State H K S Cb} {e : Event H K S}

/-! ## The parties -/

/-- Each party runs as by itself. -/
theorem step_parties (h : step fuel service s e = some s') :
    (s'.server = s.server ∨
      ∃ b, Server.Correlation.step service s.server b = some s'.server) ∧
    (s'.client = s.client ∨
      ∃ b, Client.Correlation.step service s.client b = some s'.client) := by
  cases e with
  | call t v handle client written =>
    obtain ⟨request, converted, data, server, -, -, -, hserver, rfl⟩ := stepCall_eq_some h
    exact ⟨.inr ⟨_, hserver⟩, .inl rfl⟩
  | takeRequest i =>
    obtain ⟨σ, data, received, client, -, -, hclient, rfl⟩ := stepTakeRequest_eq_some h
    exact ⟨.inl rfl, .inr ⟨_, hclient⟩⟩
  | client e =>
    simp only [step] at h
    split at h
    · obtain ⟨client, hclient, rfl⟩ := Option.map_eq_some_iff.mp h
      exact ⟨.inl rfl, .inr ⟨_, hclient⟩⟩
    · cases h
  | write id written =>
    obtain ⟨th, path, success, client, -, -, hclient, hcases⟩ := stepWrite_eq_some h
    rcases hcases with ⟨-, rfl⟩ | ⟨reply, converted, data, -, -, -, rfl⟩
    · exact ⟨.inl rfl, .inr ⟨_, hclient⟩⟩
    · exact ⟨.inl rfl, .inr ⟨_, hclient⟩⟩
  | takeReply i =>
    obtain ⟨σ, data, reply, server, -, -, hserver, rfl⟩ := stepTakeReply_eq_some h
    exact ⟨.inr ⟨_, hserver⟩, .inl rfl⟩
  | lookup id | deliver id =>
    obtain ⟨server, hserver, rfl⟩ := Option.map_eq_some_iff.mp h
    exact ⟨.inr ⟨_, hserver⟩, .inl rfl⟩

theorem Tables.step (h : Tables service s₀ s.server s.asked) (hinv : CallInv s.server)
    (hstep : Rpc.step fuel service s e = some s') : Tables service s₀ s'.server s'.asked := by
  cases e with
  | call t v handle client written =>
    obtain ⟨request, converted, data, server, hrequest, -, -, hserver, rfl⟩ :=
      stepCall_eq_some hstep
    exact h.call hrequest hserver
  | takeRequest i =>
    obtain ⟨σ, data, received, client, -, -, -, rfl⟩ := stepTakeRequest_eq_some hstep
    exact h
  | client e =>
    simp only [Rpc.step] at hstep
    split at hstep
    · obtain ⟨client, -, rfl⟩ := Option.map_eq_some_iff.mp hstep
      exact h
    · cases hstep
  | write id written =>
    obtain ⟨th, path, success, client, -, -, -, hcases⟩ := stepWrite_eq_some hstep
    rcases hcases with ⟨-, rfl⟩ | ⟨reply, converted, data, -, -, -, rfl⟩
    · exact h
    · exact h
  | takeReply i =>
    obtain ⟨σ, data, reply, server, -, -, hserver, rfl⟩ := stepTakeReply_eq_some hstep
    cases hserver
    exact ⟨h.calls, h.routes, h.requests, h.fresh, h.remembered⟩
  | lookup id =>
    obtain ⟨server, hserver, rfl⟩ := Option.map_eq_some_iff.mp hstep
    exact h.lookup hserver
  | deliver id =>
    obtain ⟨server, hserver, rfl⟩ := Option.map_eq_some_iff.mp hstep
    exact (h.deliver hinv hserver).1

/-- A new response is made of a reply that a thread has, for the call with its sample identity. -/
theorem responses_of_step (h : Tables service s₀ s.server s.asked) (hinv : CallInv s.server)
    (hstep : step fuel service s e = some s') :
    ∀ r ∈ s'.server.responses, r ∈ s.server.responses ∨
      ∃ a ∈ s.asked, ∃ reply, (r.sample, reply) ∈ s.server.arguments ∧
        a.call.handle = r.handle ∧ a.call.client = r.client ∧ a.call.sample = some r.sample ∧
        reply.component service.replyType (memberPath (s₀.replyPath service a.type.name)) =
          some r.message := by
  cases e with
  | call t v handle client written =>
    obtain ⟨request, converted, data, server, -, -, -, hserver, rfl⟩ := stepCall_eq_some hstep
    obtain ⟨sample, -, -, -, -, -, hresponses, -, -, -⟩ := stepCall_cases hserver
    show ∀ r ∈ server.responses, _
    rw [hresponses]
    exact fun r hr => .inl hr
  | takeRequest i =>
    obtain ⟨σ, data, received, client, -, -, -, rfl⟩ := stepTakeRequest_eq_some hstep
    exact fun r hr => .inl hr
  | client e =>
    simp only [step] at hstep
    split at hstep
    · obtain ⟨client, -, rfl⟩ := Option.map_eq_some_iff.mp hstep
      exact fun r hr => .inl hr
    · cases hstep
  | write id written =>
    obtain ⟨th, path, success, client, -, -, -, hcases⟩ := stepWrite_eq_some hstep
    rcases hcases with ⟨-, rfl⟩ | ⟨reply, converted, data, -, -, -, rfl⟩
    · exact fun r hr => .inl hr
    · exact fun r hr => .inl hr
  | takeReply i =>
    obtain ⟨σ, data, reply, server, -, -, hserver, rfl⟩ := stepTakeReply_eq_some hstep
    cases hserver
    exact fun r hr => .inl hr
  | lookup id =>
    obtain ⟨server, hserver, rfl⟩ := Option.map_eq_some_iff.mp hstep
    obtain ⟨-, -, hresponses, -⟩ := lookup_frame hserver
    show ∀ r ∈ server.responses, _
    rw [hresponses]
    exact fun r hr => .inl hr
  | deliver id =>
    obtain ⟨server, hserver, rfl⟩ := Option.map_eq_some_iff.mp hstep
    obtain ⟨-, hresponses | ⟨a, ha, sample, reply, message, hmem, hsample, hmessage, hresponses⟩⟩
      := h.deliver hinv hserver
    · show ∀ r ∈ server.responses, _
      rw [hresponses]
      exact fun r hr => .inl hr
    · show ∀ r ∈ server.responses, _
      rw [hresponses]
      intro r hr
      rcases List.mem_append.mp hr with hr | hr
      · exact .inl hr
      · obtain rfl := List.mem_singleton.mp hr
        exact .inr ⟨a, ha, reply, hmem, rfl, rfl, hsample, hmessage⟩

/-! ## The wire and the records -/

def Event.written : Event H K S → Option S
  | .call _ _ _ _ written => written
  | _ => none

/-- What is new after a step is what the step has made of the parties' data and of the wire, and
nothing is forgotten. -/
structure Effects (fuel : Nat) (service : Service) (e : Event H K S) (s s' : State H K S Cb) :
    Prop where
  requestData : Shaped service.requestType s'.requestData
  replyData : Shaped service.replyType s'.replyData
  keptAsked : ∀ a ∈ s.asked, a ∈ s'.asked
  keptWritten : ∀ w ∈ s.client.written, w ∈ s'.client.written
  asked : ∀ a ∈ s'.asked, a ∈ s.asked ∨ (service.requestType.admits a.request = true ∧
    ∀ σ, a.call.sample = some σ → e.written = some σ)
  requests : ∀ x ∈ s'.requests, x ∈ s.requests ∨ ∃ a ∈ s'.asked, a.call.sample = some x.1 ∧
    Carries fuel service.requestType a.request x.2
  received : ∀ x ∈ s'.client.arguments, x ∈ s.client.arguments ∨
    ∃ data, (x.1, data) ∈ s.requests ∧ readSample fuel service.requestType data = some x.2
  written : ∀ w ∈ s'.client.written, w ∈ s.client.written ∨
    service.replyType.admits w.reply = true
  replies : ∀ x ∈ s'.replies, x ∈ s.replies ∨ ∃ w ∈ s'.client.written,
    w.relatedSampleIdentity = x.1 ∧ Carries fuel service.replyType w.reply x.2
  arrived : ∀ x ∈ s'.server.arguments, x ∈ s.server.arguments ∨
    ∃ data, (x.1, data) ∈ s.replies ∧ readSample fuel service.replyType data = some x.2

section Effects

variable (hdata : Shaped service.requestType s.requestData)
  (hdata' : Shaped service.replyType s.replyData)

include hdata hdata'

omit [DecidableEq H] [DecidableEq S] in
/-- The server moves on without a call and without taking a reply. -/
theorem Effects.setServer {server : Server.Correlation.KeyedState H K S}
    (harguments : server.arguments = s.server.arguments) :
    Effects fuel service e s (s.setServer server) := by
  refine ⟨hdata, hdata', fun _ h => h, fun _ h => h, fun _ h => .inl h, fun _ h => .inl h,
    fun _ h => .inl h, fun _ h => .inl h, fun _ h => .inl h, fun x hx => .inl ?_⟩
  rw [← harguments]
  exact hx

omit [DecidableEq H] [DecidableEq S] in
/-- The client moves on without taking a request and without writing a reply. -/
theorem Effects.setClient {client : Client.Correlation.State S Cb}
    (harguments : client.arguments = s.client.arguments)
    (hwritten : client.written = s.client.written) :
    Effects fuel service e s (s.setClient client) := by
  refine ⟨hdata, hdata', fun _ h => h, fun w hw => ?_, fun _ h => .inl h, fun _ h => .inl h,
    fun x hx => .inl ?_, fun w hw => .inl ?_, fun _ h => .inl h, fun _ h => .inl h⟩
  · show w ∈ client.written
    rw [hwritten]
    exact hw
  · rw [← harguments]
    exact hx
  · rw [← hwritten]
    exact hw

theorem Effects.call [LawfulDds] (ht : Transferable fuel service.requestType) {t : DynamicType}
    {v : Value} {handle : H} {client : K} {written : Option S}
    (hstep : stepCall service s t v handle client written = some s') :
    Effects fuel service (.call t v handle client written) s s' := by
  obtain ⟨request, converted, data, server, -, hadmits, hconvert, hserver, rfl⟩ :=
    stepCall_eq_some hstep
  obtain ⟨rfl, hshaped, hcarries⟩ := carries_of_xtypesToFastdds ht hadmits hdata hconvert
  refine ⟨hshaped, hdata', fun a ha => List.mem_append_left _ ha, fun _ h => h, fun a ha => ?_,
    fun x hx => ?_, fun _ h => .inl h, fun _ h => .inl h, fun _ h => .inl h, fun x hx => .inl ?_⟩
  · rcases List.mem_append.mp ha with ha | ha
    · exact .inl ha
    · rw [List.mem_singleton.mp ha]
      exact .inr ⟨hadmits, fun σ hσ => hσ⟩
  · rcases List.mem_append.mp hx with hx | hx
    · exact .inl hx
    · obtain ⟨σ, hσ, rfl⟩ := List.mem_map.mp hx
      refine .inr ⟨_, List.mem_append_right _ List.mem_cons_self, ?_, hcarries⟩
      exact Option.mem_toList.mp hσ
  · rw [← call_arguments hserver]
    exact hx

omit [DecidableEq H] in
theorem Effects.takeRequest {i : Nat} (hstep : stepTakeRequest fuel service s i = some s') :
    Effects fuel service e s s' := by
  obtain ⟨σ, data, received, client, hmem, hread, hclient, rfl⟩ := stepTakeRequest_eq_some hstep
  obtain ⟨harguments, hwritten, -⟩ := Client.Correlation.receive_frame hclient
  refine ⟨hdata, hdata', fun _ h => h, fun w hw => ?_, fun _ h => .inl h, fun _ h => .inl h,
    fun x hx => ?_, fun w hw => .inl ?_, fun _ h => .inl h, fun _ h => .inl h⟩
  · show w ∈ client.written
    rw [hwritten]
    exact hw
  · have hx : x ∈ client.arguments := hx
    rw [harguments] at hx
    rcases List.mem_append.mp hx with hx | hx
    · exact .inl hx
    · rw [List.mem_singleton.mp hx]
      exact .inr ⟨data, hmem, hread⟩
  · rw [← hwritten]
    exact hw

omit [DecidableEq H] in
theorem Effects.write [LawfulDds] (ht : Transferable fuel service.replyType) {id : Nat}
    {written : Bool} (hstep : stepWrite service s id written = some s') :
    Effects fuel service e s s' := by
  obtain ⟨th, path, success, client, hth, hpc, hclient, hcases⟩ := stepWrite_eq_some hstep
  obtain ⟨harguments, -, hwrite⟩ := Client.Correlation.write_cases hth hpc hclient
  rcases hcases with ⟨rfl, rfl⟩ | ⟨reply, converted, data, hreply, hadmits, hconvert, rfl⟩
  · -- the path leads nowhere: nothing is converted
    obtain ⟨_, hfalse, -⟩ | ⟨-, hwritten, -⟩ := hwrite
    · cases hfalse
    · exact .setClient hdata hdata' harguments hwritten
  obtain ⟨-, hshaped, hcarries⟩ := carries_of_xtypesToFastdds ht hadmits hdata' hconvert
  rcases hwrite with ⟨reply', rfl, hreply', -, hwritten⟩ | ⟨-, hwritten, hfailed⟩
  · rw [hreply] at hreply'
    cases hreply'
    refine ⟨hdata, hshaped, fun _ h => h, fun w hw => ?_, fun _ h => .inl h, fun _ h => .inl h,
      fun x hx => .inl ?_, fun w hw => ?_, fun x hx => ?_, fun _ h => .inl h⟩
    · show w ∈ client.written
      rw [hwritten]
      exact List.mem_append_left _ hw
    · rw [← harguments]
      exact hx
    · have hw : w ∈ client.written := hw
      rw [hwritten] at hw
      rcases List.mem_append.mp hw with hw | hw
      · exact .inl hw
      · rw [List.mem_singleton.mp hw]
        exact .inr hadmits
    · rcases List.mem_append.mp hx with hx | hx
      · exact .inl hx
      · rw [if_pos rfl] at hx
        obtain rfl := List.mem_singleton.mp hx
        refine .inr ⟨⟨th.handle, th.handle.sampleIdentity, path, th.type, th.response, reply⟩, ?_,
          rfl, hcarries⟩
        show _ ∈ client.written
        rw [hwritten]
        exact List.mem_append_right _ List.mem_cons_self
  · -- the write failed: the data object has changed, and no reply is on its way
    have hfalse : success = false := by
      rcases hfailed with hfalse | hnone
      · exact hfalse
      · rw [hreply] at hnone
        cases hnone
    have hmoved : Effects fuel service e s (s.setClient client) :=
      .setClient hdata hdata' harguments hwritten
    rw [hfalse, if_neg Bool.false_ne_true, List.append_nil]
    exact ⟨hdata, hshaped, hmoved.keptAsked, hmoved.keptWritten, hmoved.asked, hmoved.requests,
      hmoved.received, hmoved.written, hmoved.replies, hmoved.arrived⟩

theorem Effects.takeReply {i : Nat} (hstep : stepTakeReply fuel service s i = some s') :
    Effects fuel service e s s' := by
  obtain ⟨σ, data, reply, server, hmem, hread, hserver, rfl⟩ := stepTakeReply_eq_some hstep
  refine ⟨hdata, hdata', fun _ h => h, fun _ h => h, fun _ h => .inl h, fun _ h => .inl h,
    fun _ h => .inl h, fun _ h => .inl h, fun _ h => .inl h, fun x hx => ?_⟩
  have hx : x ∈ server.arguments := hx
  rw [arrive_arguments hserver] at hx
  rcases List.mem_append.mp hx with hx | hx
  · exact .inl hx
  · rw [List.mem_singleton.mp hx]
    exact .inr ⟨data, hmem, hread⟩

theorem effects_of_step [LawfulDds] (hrequest : Transferable fuel service.requestType)
    (hreply : Transferable fuel service.replyType)
    (hstep : step fuel service s e = some s') : Effects fuel service e s s' := by
  cases e with
  | call t v handle client written => exact .call hdata hdata' hrequest hstep
  | takeRequest i => exact .takeRequest hdata hdata' hstep
  | client e =>
    simp only [step] at hstep
    split at hstep
    · rename_i hinner
      obtain ⟨client, hclient, rfl⟩ := Option.map_eq_some_iff.mp hstep
      obtain ⟨harguments, hwritten, -⟩ := Client.Correlation.inner_frame hinner hclient
      exact .setClient hdata hdata' harguments hwritten
    · cases hstep
  | write id written => exact .write hdata hdata' hreply hstep
  | takeReply i => exact .takeReply hdata hdata' hstep
  | lookup id =>
    obtain ⟨server, hserver, rfl⟩ := Option.map_eq_some_iff.mp hstep
    exact .setServer hdata hdata' (lookup_frame hserver).2.2.2
  | deliver id =>
    obtain ⟨server, hserver, rfl⟩ := Option.map_eq_some_iff.mp hstep
    exact .setServer hdata hdata' (deliver_arguments hserver)

end Effects

end FastDdsSh.Rpc
