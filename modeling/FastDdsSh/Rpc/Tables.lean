import FastDdsSh.Rpc.Parties

/-!
# The reply type of a pending call

As long as a call has no response, the server remembers for the sample of its write the reply type
that is configured for the type of its data; so the reply is looked for at the configured path.
-/

namespace FastDdsSh.Rpc

open Transition Server.Correlation

variable {H K S Cb : Type} [DecidableEq H] [DecidableEq S] [Xtypes] {service : Service}
  {s₀ : KeyedServer H K S} {server server' : Server.Correlation.KeyedState H K S}
  {asked : List (Asked H K S)}

structure Tables (service : Service) (s₀ : KeyedServer H K S)
    (server : Server.Correlation.KeyedState H K S) (asked : List (Asked H K S)) : Prop where
  calls : asked.map Asked.call = server.calls
  routes : Server.SameRoutes s₀ server.server
  requests : ∀ a ∈ asked, s₀.buildRequest service a.type a.value = some a.request
  fresh : ∀ sample, some sample ∉ server.calls.map Call.sample →
    server.server.replyIdType sample = none
  remembered : ∀ a ∈ asked, ∀ sample, a.call.sample = some sample →
    ¬ Answered server a.call.handle →
    server.server.replyIdType sample = s₀.requestReply a.type.name

omit [DecidableEq H] [DecidableEq S] in
theorem Tables.mem_calls (h : Tables service s₀ server asked) {a : Asked H K S} (ha : a ∈ asked) :
    a.call ∈ server.calls := by
  rw [← h.calls]
  exact List.mem_map_of_mem ha

omit [DecidableEq H] [DecidableEq S] in
theorem Tables.exists_asked (h : Tables service s₀ server asked) {c : Call H K S}
    (hc : c ∈ server.calls) : ∃ a ∈ asked, a.call = c := by
  rw [← h.calls] at hc
  exact List.mem_map.mp hc

theorem callService_of_stepCall {t : DynamicType} {v : Value} {handle : H} {client : K}
    {converted : Bool} {written : Option S}
    (h : Server.Correlation.stepCall service server t v handle client converted written =
      some server') :
    ∃ r, server.server.callService service t v handle client converted written =
      some (server'.server, r) := by
  unfold Server.Correlation.stepCall at h
  dsimp only at h
  split at h
  · cases h
  · obtain ⟨⟨s, r⟩, hcall, rfl⟩ := Option.map_eq_some_iff.mp h
    exact ⟨r, hcall⟩

theorem Tables.call {t : DynamicType} {v request : Value} {handle : H} {client : K}
    {converted : Bool} {written : Option S} (h : Tables service s₀ server asked)
    (hrequest : server.server.buildRequest service t v = some request)
    (hstep : Server.Correlation.stepCall service server t v handle client converted written =
      some server') :
    Tables service s₀ server'
      (asked ++ [⟨⟨handle, client, writtenSample converted written⟩, t, v, request⟩]) := by
  obtain ⟨r, hcall⟩ := callService_of_stepCall hstep
  obtain ⟨hroutes, htable⟩ := Server.callService_tables hcall
  obtain ⟨sample, rfl, -, hsample, hcalls, -, hresponses, -, -, -⟩ :=
    Server.Correlation.stepCall_cases hstep
  have hanswered : ∀ x, Answered server' x ↔ Answered server x := by
    intro x
    rw [Answered, Answered, hresponses]
  -- a sample that an earlier call has is not that of this write
  have hother : ∀ σ, some σ ∈ server.calls.map Call.sample →
      writtenSample converted written ≠ some σ := by
    intro σ hσ heq
    refine hsample (by rw [heq]; rfl) ?_
    rw [heq]
    exact hσ
  refine ⟨?_, h.routes.trans hroutes, ?_, ?_, ?_⟩
  · rw [List.map_append, h.calls, hcalls]
    rfl
  · intro a ha
    rcases List.mem_append.mp ha with ha | ha
    · exact h.requests a ha
    · obtain rfl := List.mem_singleton.mp ha
      rw [← h.routes.buildRequest]
      exact hrequest
  · intro σ hσ
    rw [hcalls, List.map_append, List.mem_append, not_or] at hσ
    have hne : writtenSample converted written ≠ some σ := by
      intro heq
      exact hσ.2 (by rw [← heq]; exact List.mem_singleton.mpr rfl)
    rw [(htable σ).1 hne]
    exact h.fresh σ hσ.1
  · intro a ha σ hσ hpending
    rw [hanswered] at hpending
    rcases List.mem_append.mp ha with ha | ha
    · have hmem : some σ ∈ server.calls.map Call.sample :=
        List.mem_map.mpr ⟨a.call, h.mem_calls ha, hσ⟩
      rw [(htable σ).1 (hother σ hmem)]
      exact h.remembered a ha σ hσ hpending
    · obtain rfl := List.mem_singleton.mp ha
      have hσ : writtenSample converted written = some σ := hσ
      have hnew : some σ ∉ server.calls.map Call.sample := fun hmem => hother σ hmem hσ
      rw [(htable σ).2 hσ (h.fresh σ hnew), h.routes.requestReply]

theorem Tables.lookup {id : Nat} (h : Tables service s₀ server asked)
    (hstep : Server.Correlation.step service server (.lookup id) = some server') :
    Tables service s₀ server' asked := by
  obtain ⟨hserver, hcalls, hresponses, -⟩ := lookup_frame hstep
  refine ⟨by rw [hcalls]; exact h.calls, by rw [hserver]; exact h.routes, h.requests, ?_, ?_⟩
  · rw [hserver, hcalls]
    exact h.fresh
  · intro a ha σ hσ hpending
    rw [Answered, hresponses] at hpending
    rw [hserver]
    exact h.remembered a ha σ hσ hpending

/-- The delivery of a reply to a pending call: who gets it, and from which path. -/
theorem Tables.deliver {id : Nat} (h : Tables service s₀ server asked) (hinv : CallInv server)
    (hstep : Server.Correlation.step service server (.deliver id true) = some server') :
    Tables service s₀ server' asked ∧
    (server'.responses = server.responses ∨
      ∃ a ∈ asked, ∃ sample reply message, (sample, reply) ∈ server.arguments ∧
        a.call.sample = some sample ∧
        reply.component service.replyType (memberPath (s₀.replyPath service a.type.name)) =
          some message ∧
        server'.responses =
          server.responses ++ [⟨a.call.handle, a.call.client, sample, message⟩]) := by
  obtain ⟨handle, sample, reply, hth, ⟨hfalse, -⟩ | ⟨-, s, out, hdeliver, rfl⟩⟩ :=
    stepDeliver_cases hstep
  · cases hfalse
  obtain ⟨hroutes, hothers, hnone, hmessage⟩ := Server.deliverReply_tables hdeliver
  obtain ⟨c, hc, hhandle, hsample⟩ := hinv.threads id _ handle hth rfl
  obtain ⟨a, ha, rfl⟩ := h.exists_asked hc
  have hmem : (sample, reply) ∈ server.arguments :=
    List.mem_map.mpr ⟨_, List.mem_of_getElem? hth, rfl⟩
  refine ⟨⟨h.calls, h.routes.trans hroutes, h.requests, ?_, ?_⟩, ?_⟩
  · exact fun σ hσ => hnone σ (h.fresh σ hσ)
  · -- a call that is still pending has another sample: this one has just been answered, or before
    intro b hb σ hσ hpending
    have hpending' : ¬ Answered server b.call.handle := by
      intro hanswered
      refine hpending ?_
      obtain ⟨r, hr, hrh⟩ := List.mem_map.mp hanswered
      exact List.mem_map.mpr ⟨r, List.mem_append_left _ hr, hrh⟩
    have hne : σ ≠ sample := by
      rintro rfl
      have hsame := hinv.samples b.call (h.mem_calls hb) a.call hc (by rw [hσ]; rfl)
        (by rw [hσ]; exact hsample.symm)
      obtain ⟨hclient, -⟩ := hinv.pending b.call (h.mem_calls hb) σ hσ hpending'
      rw [hsame, hhandle] at hclient
      rcases Server.deliverReply_cases hdeliver with ⟨client, message, -, rfl, -, -⟩ | ⟨hgone, -⟩
      · refine hpending (List.mem_map.mpr ⟨⟨handle, client, σ, message⟩, ?_, ?_⟩)
        · exact List.mem_append_right _ List.mem_cons_self
        · exact (hsame.trans hhandle).symm
      · rw [hgone] at hclient
        cases hclient
    exact (hothers σ hne).trans (h.remembered b hb σ hσ hpending')
  · rcases Server.deliverReply_cases hdeliver with
      ⟨client, message, hclient, rfl, -, -⟩ | ⟨-, rfl, -, -⟩
    · right
      -- the client is there, so the call is pending and its reply type remembered
      have hpending : ¬ Answered server a.call.handle := by
        intro hanswered
        rw [hhandle] at hanswered
        rw [hinv.consumed handle hanswered] at hclient
        cases hclient
      obtain ⟨hsame, -⟩ := hinv.pending a.call hc sample hsample hpending
      rw [hhandle, hclient] at hsame
      have hpath : (server.server.takeReplyPath service sample).1 =
          s₀.replyPath service a.type.name :=
        h.routes.takeReplyPath_path service (h.remembered a ha sample hsample hpending)
      have hcomponent := hmessage client message rfl
      rw [hpath] at hcomponent
      refine ⟨a, ha, sample, reply, message, hmem, hsample, hcomponent, ?_⟩
      rw [hhandle, ← Option.some.inj hsame]
      rfl
    · left
      exact List.append_nil _

end FastDdsSh.Rpc
