import FastDdsSh.Rpc.Agreement

/-!
# What the tables hold

The tables of the `Server` hold the calls that have no response yet, and the table of the `Client`
the requests whose responses have not been given, and nothing else.  A call whose write has failed
and a request without a callback stay for good.
-/

namespace FastDdsSh

open Transition KeyedStore

/-! ## The server -/

namespace Server.Correlation

variable {H K S : Type} [DecidableEq H] [DecidableEq S] [Xtypes] {service : Service}
  {s s' : KeyedState H K S}

/-- A converted call has its handle registered, whether it is written or not. -/
theorem stepCall_registers {t : DynamicType} {v : Value} {handle : H} {client : K}
    {written : Option S}
    (h : stepCall service s t v handle client true written = some s') :
    s'.server.callhandleClient = s.server.callhandleClient.set handle client := by
  unfold stepCall at h
  dsimp only at h
  split at h
  · cases h
  · obtain ⟨⟨server, request⟩, hcall, rfl⟩ := Option.map_eq_some_iff.mp h
    unfold callService at hcall
    obtain ⟨r, -, heq⟩ := Option.map_eq_some_iff.mp hcall
    obtain ⟨rfl, -⟩ := Prod.mk.inj heq
    cases written with
    | none => rfl
    | some sample => exact (issueCall_written _ _ _ _ _).2.1

omit [DecidableEq H] [Xtypes] in
theorem replyIdType_takeReplyPath_self (service : Service) (server : KeyedServer H K S)
    (sample : S) :
    (server.takeReplyPath service sample).2.replyIdType sample = none := by
  unfold takeReplyPath
  split
  · exact erase_self _ _
  · rename_i hnone
    exact hnone

theorem deliverReply_replyIdType {server server' : KeyedServer H K S} {sample : S} {handle : H}
    {received : Value} {out : Option (K × DynamicType × Value)}
    (h : server.deliverReply service sample handle received = some (server', out)) :
    server'.replyIdType sample = none := by
  have hgone := replyIdType_takeReplyPath_self service server sample
  unfold deliverReply at h
  obtain ⟨message, -, heq⟩ := Option.map_eq_some_iff.mp h
  split at heq
  · cases heq
    exact hgone
  · cases heq
    exact hgone

structure Settled (s : KeyedState H K S) : Prop where
  sampleCallhandle : ∀ c ∈ s.calls, ∀ sample, c.sample = some sample → Answered s c.handle →
    s.server.sampleCallhandle sample = none
  replyIdType : ∀ c ∈ s.calls, ∀ sample, c.sample = some sample → Answered s c.handle →
    s.server.replyIdType sample = none
  callhandleClient : ∀ c ∈ s.calls, ¬ Answered s c.handle →
    s.server.callhandleClient c.handle = some c.client

omit [DecidableEq H] [DecidableEq S] [Xtypes] in
/-- Only threads move. -/
theorem Settled.of_same (h : Settled s) (hserver : s'.server = s.server)
    (hcalls : s'.calls = s.calls) (hresponses : s'.responses = s.responses) : Settled s' := by
  have hanswered : ∀ x, Answered s' x ↔ Answered s x := by
    intro x
    rw [Answered, Answered, hresponses]
  refine ⟨fun c hc sample hs ha => ?_, fun c hc sample hs ha => ?_, fun c hc ha => ?_⟩
  · rw [hcalls] at hc
    rw [hserver]
    exact h.sampleCallhandle c hc sample hs ((hanswered _).mp ha)
  · rw [hcalls] at hc
    rw [hserver]
    exact h.replyIdType c hc sample hs ((hanswered _).mp ha)
  · rw [hcalls] at hc
    rw [hserver]
    exact h.callhandleClient c hc (mt (hanswered _).mpr ha)

theorem Settled.call {t : DynamicType} {v : Value} {handle : H} {client : K} {written : Option S}
    (h : Settled s) (hinv : CallInv s)
    (hstep : stepCall service s t v handle client true written = some s') : Settled s' := by
  obtain ⟨sample, hwritten, hhandle, hsample, hcalls, -, hresponses, -, -, hsamples⟩ :=
    stepCall_cases hstep
  have hregisters := stepCall_registers hstep
  obtain ⟨r, hcall⟩ := Rpc.callService_of_stepCall hstep
  have htypes := (callService_tables hcall).2
  rw [← hwritten] at htypes
  have hanswered : ∀ x, Answered s' x ↔ Answered s x := by
    intro x
    rw [Answered, Answered, hresponses]
  have hnew : ¬ Answered s handle := by
    intro ha
    obtain ⟨r, hr, hrh⟩ := List.mem_map.mp ha
    obtain ⟨c, hc, hch, -⟩ := hinv.responses r hr
    exact hhandle (List.mem_map.mpr ⟨c, hc, hch.trans hrh⟩)
  -- an answered call is an earlier one, whose sample is not that of this write
  have hold {c : Call H K S} {σ : S} (hc : c ∈ s'.calls) (hσ : c.sample = some σ)
      (ha : Answered s' c.handle) : c ∈ s.calls ∧ Answered s c.handle ∧ sample ≠ some σ := by
    rw [hanswered] at ha
    rw [hcalls] at hc
    rcases List.mem_append.mp hc with hc | hc
    · refine ⟨hc, ha, fun heq => ?_⟩
      refine hsample (by rw [heq]; rfl) ?_
      rw [heq, ← hσ]
      exact List.mem_map_of_mem hc
    · rw [List.mem_singleton.mp hc] at ha
      exact absurd ha hnew
  refine ⟨fun c hc σ hσ ha => ?_, fun c hc σ hσ ha => ?_, fun c hc ha => ?_⟩
  · obtain ⟨hc, ha, hne⟩ := hold hc hσ ha
    rw [hsamples]
    cases hs : sample with
    | none => exact h.sampleCallhandle c hc σ hσ ha
    | some τ =>
      have hne : σ ≠ τ := fun heq => hne (by rw [hs, heq])
      exact (set_ne _ _ hne).trans (h.sampleCallhandle c hc σ hσ ha)
  · obtain ⟨hc, ha, hne⟩ := hold hc hσ ha
    rw [(htypes σ).1 hne]
    exact h.replyIdType c hc σ hσ ha
  · rw [hanswered] at ha
    rw [hregisters]
    rw [hcalls] at hc
    rcases List.mem_append.mp hc with hc | hc
    · have hne : c.handle ≠ handle := fun heq => hhandle (List.mem_map.mpr ⟨c, hc, heq⟩)
      rw [set_ne _ _ hne]
      exact h.callhandleClient c hc ha
    · rw [List.mem_singleton.mp hc]
      exact set_self _ _ _

theorem Settled.deliver {id : Nat} {converted : Bool} (h : Settled s) (hinv : CallInv s)
    (hstep : stepDeliver service s id converted = some s') : Settled s' := by
  obtain ⟨handle, sample, reply, hth, ⟨-, rfl⟩ | ⟨-, server, out, hdeliver, rfl⟩⟩ :=
    stepDeliver_cases hstep
  · exact h.of_same rfl rfl rfl
  obtain ⟨c₀, hc₀, hhandle, hsample⟩ := hinv.threads id _ handle hth rfl
  have hgone := deliverReply_replyIdType hdeliver
  obtain ⟨-, hothers, hnone, -⟩ := deliverReply_tables hdeliver
  rcases deliverReply_cases hdeliver with
    ⟨client, message, -, rfl, hclients, hsamples⟩ | ⟨-, rfl, hclients, hsamples⟩
  · -- the call of the thread is answered now, and its entries are erased
    have hanswered {x : H} (ha : Answered { s with
        server := server
        threads := s.threads.set id ⟨.done, sample, reply⟩
        responses := s.responses ++ [⟨handle, client, sample, message⟩] } x) :
        Answered s x ∨ x = handle := by
      rw [Answered, List.map_append] at ha
      rcases List.mem_append.mp ha with ha | ha
      · exact .inl ha
      · exact .inr (List.mem_singleton.mp ha)
    have hself {c : Call H K S} {σ : S} (hc : c ∈ s.calls) (hσ : c.sample = some σ)
        (heq : c.handle = handle) : σ = sample := by
      rw [hinv.handle_injective hc hc₀ (heq.trans hhandle.symm)] at hσ
      exact Option.some.inj (hσ.symm.trans hsample)
    refine ⟨fun c hc σ hσ ha => ?_, fun c hc σ hσ ha => ?_, fun c hc ha => ?_⟩
    · show server.sampleCallhandle σ = none
      rw [hsamples]
      by_cases heq : σ = sample
      · rw [heq, erase_self]
      · rw [erase_ne _ heq]
        rcases hanswered ha with ha | ha
        · exact h.sampleCallhandle c hc σ hσ ha
        · exact absurd (hself hc hσ ha) heq
    · rcases hanswered ha with ha | ha
      · exact hnone σ (h.replyIdType c hc σ hσ ha)
      · rw [hself hc hσ ha]
        exact hgone
    · show server.callhandleClient c.handle = some c.client
      have hne : c.handle ≠ handle := by
        intro heq
        refine ha (List.mem_map.mpr ⟨⟨handle, client, sample, message⟩, ?_, heq.symm⟩)
        exact List.mem_append_right _ List.mem_cons_self
      rw [hclients, erase_ne _ hne]
      refine h.callhandleClient c hc fun hanswered => ha ?_
      obtain ⟨r, hr, hrh⟩ := List.mem_map.mp hanswered
      exact List.mem_map.mpr ⟨r, List.mem_append_left _ hr, hrh⟩
  · -- the call was answered before
    have hanswered {x : H} : Answered { s with
        server := server
        threads := s.threads.set id ⟨.done, sample, reply⟩
        responses := s.responses ++ [] } x ↔ Answered s x := by
      rw [Answered, Answered, List.append_nil]
    refine ⟨fun c hc σ hσ ha => ?_, fun c hc σ hσ ha => ?_, fun c hc ha => ?_⟩
    · show server.sampleCallhandle σ = none
      rw [hsamples]
      exact h.sampleCallhandle c hc σ hσ (hanswered.mp ha)
    · exact hnone σ (h.replyIdType c hc σ hσ (hanswered.mp ha))
    · show server.callhandleClient c.handle = some c.client
      rw [hclients]
      exact h.callhandleClient c hc (mt hanswered.mpr ha)

end Server.Correlation

/-! ## The client -/

namespace Client

variable {S Cb : Type} [DecidableEq S]

theorem rememberReply_requestReply (c : Client S Cb) (sample : S) (typeName : String) :
    (c.rememberReply sample typeName).requestReply = c.requestReply := by
  unfold rememberReply
  split <;> rfl

theorem takeReplyPath_requestReply (service : Service) (c : Client S Cb) (sample : S) :
    (c.takeReplyPath service sample).2.requestReply = c.requestReply := by
  unfold takeReplyPath
  split <;> rfl

theorem replyIdType_rememberReply_self {c : Client S Cb} {sample : S}
    (h : c.replyIdType sample = none) (typeName : String) :
    (c.rememberReply sample typeName).replyIdType sample = c.requestReply typeName := by
  unfold rememberReply
  split
  · rename_i rep hrep
    rw [hrep]
    exact set_self _ _ _
  · rename_i hnone
    rw [hnone, h]

theorem replyIdType_takeReplyPath_self (service : Service) (c : Client S Cb) (sample : S) :
    (c.takeReplyPath service sample).2.replyIdType sample = none := by
  unfold takeReplyPath
  split
  · exact erase_self _ _
  · rename_i hnone
    exact hnone

theorem replyIdType_takeReplyPath_ne (service : Service) (c : Client S Cb) {sample sample' : S}
    (h : sample' ≠ sample) :
    (c.takeReplyPath service sample).2.replyIdType sample' = c.replyIdType sample' := by
  unfold takeReplyPath
  split
  · exact erase_ne _ h
  · rfl

end Client

namespace Client.Correlation

open NavigationNode

variable {S Cb : Type} [DecidableEq S] [Xtypes] {service : Service} {c₀ : Client S Cb}
  {s s' : State S Cb}

structure Remembered (c₀ : Client S Cb) (s : State S Cb) : Prop where
  requestReply : s.client.requestReply = c₀.requestReply
  kept : ∀ (i : Nat) (th : RequestThread S) (m : Selected), s.requests[i]? = some th →
    th.pc.remembered = some m → ¬ Taken s i →
    s.client.replyIdType th.sample = c₀.requestReply m.typeName
  taken : ∀ (i : Nat) (th : RequestThread S), s.requests[i]? = some th → Taken s i →
    s.client.replyIdType th.sample = none

omit [DecidableEq S] [Xtypes] in
/-- A thread on `Client::receive` moves on, without an effect on the client. -/
theorem Remembered.advance {id : Nat} {th : RequestThread S} {pc : RequestPc}
    (h : Remembered c₀ s) (hth : s.requests[id]? = some th)
    (hpc : pc.remembered = th.pc.remembered) : Remembered c₀ (s.setRequest id pc th) := by
  refine ⟨h.requestReply, fun i u m hu hm htaken => ?_, fun i u hu htaken => ?_⟩
  · rcases setRequest_cases hth hu with ⟨rfl, rfl⟩ | ⟨-, hu⟩
    · exact h.kept i th m hth (hpc.symm.trans hm) htaken
    · exact h.kept i u m hu hm htaken
  · rcases setRequest_cases hth hu with ⟨rfl, rfl⟩ | ⟨-, hu⟩
    · exact h.taken i th hth htaken
    · exact h.taken i u hu htaken

omit [DecidableEq S] in
/-- A request whose path was taken had been remembered. -/
theorem ReplyInv.remembered_of_taken (h : ReplyInv service c₀ s) {i : Nat} {th : RequestThread S}
    (hth : s.requests[i]? = some th) (htaken : Taken s i) : ∃ m, th.pc.remembered = some m := by
  obtain ⟨j, u, hu, hrequest, -⟩ := htaken
  obtain ⟨r, m, hr, -, hm, -⟩ := h.requestOf hu
  rw [hrequest, hth] at hr
  cases hr
  exact ⟨m, hm⟩

theorem Remembered.request {id : Nat} {th : RequestThread S} {e : Event S} (h : Remembered c₀ s)
    (hinv : ReplyInv service c₀ s) (hth : s.requests[id]? = some th)
    (hstep : stepRequest service s id th e = some s') : Remembered c₀ s' := by
  obtain ⟨pc, sample, received⟩ := th
  cases e with
  | select i =>
    cases pc with
    | select =>
      simp only [stepRequest] at hstep
      split at hstep
      · cases hstep
        exact h.advance hth rfl
      · cases hstep
        exact h.advance hth rfl
    | _ => cases hstep
  | remember i =>
    cases pc with
    | remember member =>
      simp only [stepRequest] at hstep
      cases hstep
      have hnone := hinv.replyIdType_eq_none hth rfl
      have hfree : ¬ Taken s id := fun htaken => by
        obtain ⟨m, hm⟩ := hinv.remembered_of_taken hth htaken
        cases hm
      have hother {i : Nat} {u : RequestThread S} (hi : i ≠ id) (hu : s.requests[i]? = some u) :
          u.sample ≠ sample := fun heq => hi (hinv.distinct i id u _ hu hth heq)
      refine ⟨(rememberReply_requestReply _ _ _).trans h.requestReply,
        fun i u m hu hm htaken => ?_, fun i u hu htaken => ?_⟩
      · rcases setRequest_cases hth hu with ⟨rfl, rfl⟩ | ⟨hi, hu⟩
        · cases hm
          rw [← h.requestReply]
          exact replyIdType_rememberReply_self hnone _
        · exact (replyIdType_rememberReply_ne (hother hi hu) _ _).trans (h.kept i u m hu hm htaken)
      · rcases setRequest_cases hth hu with ⟨rfl, rfl⟩ | ⟨hi, hu⟩
        · exact absurd htaken hfree
        · exact (replyIdType_rememberReply_ne (hother hi hu) _ _).trans (h.taken i u hu htaken)
    | _ => cases hstep
  | invoke i =>
    cases pc with
    | invoke member =>
      simp only [stepRequest] at hstep
      split at hstep
      · cases hstep
        exact h.advance hth rfl
      · cases hstep
        exact h.advance hth rfl
      · cases hstep
        have hsame (handles : List (Handle S)) : Remembered c₀ { s with handles := handles } :=
          ⟨h.requestReply, h.kept, h.taken⟩
        exact (hsame _).advance hth rfl
    | _ => cases hstep
  | finish i =>
    cases pc with
    | callback member =>
      simp only [stepRequest] at hstep
      cases hstep
      exact h.advance hth rfl
    | _ => cases hstep
  | _ => cases hstep

theorem Remembered.response {id : Nat} {th : ResponseThread S} {e : Event S} (h : Remembered c₀ s)
    (hinv : ReplyInv service c₀ s) (hth : s.responses[id]? = some th)
    (hstep : stepResponse service s id th e = some s') : Remembered c₀ s' := by
  -- at the end of a response nothing more is taken
  have hend {pc : ResponsePc} (hpc : pc ≠ .take) (hpast : th.pc ≠ .take) :
      Remembered c₀ (s.setResponse id pc th) := by
    have hsame (i : Nat) : Taken (s.setResponse id pc th) i ↔ Taken s i := by
      rw [taken_setResponse hth hpc]
      exact or_iff_left_of_imp fun heq => ⟨id, th, hth, heq, hpast⟩
    exact ⟨h.requestReply, fun i u m hu hm htaken => h.kept i u m hu hm (mt (hsame i).mpr htaken),
      fun i u hu htaken => h.taken i u hu ((hsame i).mp htaken)⟩
  cases e with
  | take i =>
    simp only [stepResponse] at hstep
    split at hstep
    · rename_i hpc
      cases hstep
      obtain ⟨r, m, hr, hsample, -, -⟩ := hinv.requestOf hth
      have htaken (i : Nat) :
          Taken (State.setResponse
            { s with client := (s.client.takeReplyPath service th.handle.sampleIdentity).2 } id
            (.write (s.client.takeReplyPath service th.handle.sampleIdentity).1) th) i ↔
          Taken s i ∨ th.handle.request = i :=
        taken_setResponse
          (s := { s with client := (s.client.takeReplyPath service th.handle.sampleIdentity).2 })
          hth (fun hcon => by cases hcon) i
      have hne {i : Nat} {u : RequestThread S} (hu : s.requests[i]? = some u)
          (hi : th.handle.request ≠ i) : u.sample ≠ th.handle.sampleIdentity := fun heq =>
        hi (hinv.distinct _ i r u hr hu (hsample.trans heq.symm))
      refine ⟨(takeReplyPath_requestReply _ _ _).trans h.requestReply,
        fun i u k hu hk hnot => ?_, fun i u hu hyes => ?_⟩
      · rw [htaken, not_or] at hnot
        exact (replyIdType_takeReplyPath_ne service s.client (hne hu hnot.2)).trans
          (h.kept i u k hu hk hnot.1)
      · by_cases hi : th.handle.request = i
        · subst hi
          replace hu : s.requests[th.handle.request]? = some u := hu
          rw [hr] at hu
          cases hu
          show (s.client.takeReplyPath service th.handle.sampleIdentity).2.replyIdType r.sample = _
          rw [hsample]
          exact replyIdType_takeReplyPath_self service s.client _
        · refine (replyIdType_takeReplyPath_ne service s.client (hne hu hi)).trans
            (h.taken i u hu ?_)
          exact ((htaken i).mp hyes).resolve_right hi
    · cases hstep
  | write i success =>
    simp only [stepResponse] at hstep
    split at hstep
    · rename_i path hpc
      have hpast : th.pc ≠ .take := by
        rw [hpc]
        exact fun hcon => by cases hcon
      have hfailed : Remembered c₀ (s.setResponse id .failed th) :=
        hend (fun hcon => by cases hcon) hpast
      have hdone : Remembered c₀ (s.setResponse id .done th) :=
        hend (fun hcon => by cases hcon) hpast
      split at hstep
      · cases hstep
        exact hfailed
      · split at hstep
        · cases hstep
          exact ⟨hdone.requestReply, hdone.kept, hdone.taken⟩
        · cases hstep
          exact hfailed
    · cases hstep
  | _ => cases hstep

omit [DecidableEq S] in
/-- A new request has nothing in the table, and its number is in no handle yet. -/
theorem Remembered.receive {sample : S} (h : Remembered c₀ s) (hinv : ReplyInv service c₀ s)
    (received : Value) :
    Remembered c₀ { s with requests := s.requests ++ [⟨.select, sample, received⟩] } := by
  refine ⟨h.requestReply, fun i u m hu hm htaken => ?_, fun i u hu htaken => ?_⟩
  · rcases getElem?_concat_cases hu with hu | ⟨-, rfl⟩
    · exact h.kept i u m hu hm htaken
    · cases hm
  · rcases getElem?_concat_cases hu with hu | ⟨rfl, rfl⟩
    · exact h.taken i u hu htaken
    · obtain ⟨j, v, hv, hrequest, -⟩ := htaken
      obtain ⟨r, -, hr, -, -, -⟩ := hinv.requestOf hv
      rw [hrequest] at hr
      exact absurd (lt_length_of_getElem? hr) (lt_irrefl _)

omit [DecidableEq S] [Xtypes] in
/-- A response that is given has not taken anything yet. -/
theorem Remembered.respond (h : Remembered c₀ s) (handle : Handle S) (type : DynamicType)
    (response : Value) :
    Remembered c₀ { s with responses := s.responses ++ [⟨.take, handle, type, response⟩] } := by
  have hsame (i : Nat) :
      Taken { s with responses := s.responses ++ [⟨.take, handle, type, response⟩] } i ↔
        Taken s i := by
    constructor
    · rintro ⟨j, v, hv, hrequest, hpc⟩
      rcases getElem?_concat_cases hv with hv | ⟨-, rfl⟩
      · exact ⟨j, v, hv, hrequest, hpc⟩
      · exact absurd rfl hpc
    · rintro ⟨j, v, hv, hrequest, hpc⟩
      exact ⟨j, v, (List.getElem?_append_left (lt_length_of_getElem? hv)).trans hv, hrequest, hpc⟩
  exact ⟨h.requestReply, fun i u m hu hm htaken => h.kept i u m hu hm (mt (hsame i).mpr htaken),
    fun i u hu htaken => h.taken i u hu ((hsame i).mp htaken)⟩

theorem remembered_of_reachable (h : (machine service c₀).Reachable s) : Remembered c₀ s := by
  refine Machine.ReachableVia.invariant_using h (fun _ h => replyInv_of_reachable h) ?_ ?_
  · rintro s ⟨rfl, -⟩
    exact ⟨rfl, fun i th m hth => (by cases hth), fun i th hth => (by cases hth)⟩
  · intro s e s' hinv h _ hstep
    cases e with
    | receive sample received =>
      simp only [machine, step] at hstep
      split at hstep
      · cases hstep
      · cases hstep
        exact h.receive hinv received
    | respond handle type response =>
      simp only [machine, step] at hstep
      split at hstep
      · cases hstep
        exact h.respond handle type response
      · cases hstep
    | select id | remember id | invoke id | finish id =>
      obtain ⟨th, hth, hth'⟩ := Option.bind_eq_some_iff.mp hstep
      exact h.request hinv hth hth'
    | take id | write id success =>
      obtain ⟨th, hth, hth'⟩ := Option.bind_eq_some_iff.mp hstep
      exact h.response hinv hth hth'

/-- The table has the reply types of the requests that were remembered and are not taken, where one
is configured. -/
theorem replyIdType_iff (h : (machine service c₀).Reachable s) {sample : S} {rep : String} :
    s.client.replyIdType sample = some rep ↔
      ∃ (i : Nat) (th : RequestThread S) (m : Selected), s.requests[i]? = some th ∧
        th.sample = sample ∧ th.pc.remembered = some m ∧
        c₀.requestReply m.typeName = some rep ∧ ¬ Taken s i := by
  have hinv := replyInv_of_reachable h
  have hremembered := remembered_of_reachable h
  constructor
  · intro hsome
    by_contra hnone
    -- no request with this sample is in the table
    have hgone : s.client.replyIdType sample = none := by
      apply hinv.fresh
      intro i th hth hsample
      cases hm : th.pc.remembered with
      | none => rfl
      | some m =>
        by_cases htaken : Taken s i
        · have hnot := hremembered.taken i th hth htaken
          rw [hsample, hsome] at hnot
          cases hnot
        · have hkept := hremembered.kept i th m hth hm htaken
          rw [hsample, hsome] at hkept
          exact absurd ⟨i, th, m, hth, hsample, hm, hkept.symm, htaken⟩ hnone
    rw [hgone] at hsome
    cases hsome
  · rintro ⟨i, th, m, hth, rfl, hm, hrep, htaken⟩
    rw [hremembered.kept i th m hth hm htaken, hrep]

end Client.Correlation

/-! ## The two sides together -/

namespace Rpc

variable {H K S Cb : Type} [DecidableEq H] [DecidableEq S] [Xtypes] [Dds] {fuel : Nat}
  {service : Service} {s₀ : KeyedServer H K S} {c₀ : Client S Cb} {s s' : State H K S Cb}

open Server.Correlation in
theorem settled_of_reachable [LawfulDds] (hrequest : Transferable fuel service.requestType)
    (hreply : Transferable fuel service.replyType)
    (h : (machine fuel service s₀ c₀).Reachable s) : Settled s.server := by
  refine Machine.ReachableVia.invariant_using (I := fun s => Settled s.server)
    (J := fun s => CallInv s.server ∧ Traffic fuel service s) h
    (fun _ h => ⟨callInv_of_reachable (server_reachable h),
      traffic_of_reachable hrequest hreply h⟩) ?_ ?_
  · rintro s ⟨hserver, -, -, -, -, -, -⟩
    rw [hserver]
    exact ⟨List.forall_mem_nil _, List.forall_mem_nil _, List.forall_mem_nil _⟩
  · rintro s e s' ⟨hinv, htraffic⟩ ih - hstep
    cases e with
    | call t v handle client written =>
      obtain ⟨request, converted, data, server, -, hadmits, hconvert, hserver, rfl⟩ :=
        stepCall_eq_some hstep
      -- a request that the type admits is converted
      obtain ⟨rfl, -, -⟩ :=
        carries_of_xtypesToFastdds hrequest hadmits htraffic.requestData hconvert
      exact ih.call hinv hserver
    | takeRequest i =>
      obtain ⟨σ, data, received, client, -, -, -, rfl⟩ := stepTakeRequest_eq_some hstep
      exact ih
    | client e =>
      simp only [machine, step] at hstep
      split at hstep
      · obtain ⟨client, -, rfl⟩ := Option.map_eq_some_iff.mp hstep
        exact ih
      · cases hstep
    | write id written =>
      obtain ⟨th, path, success, client, -, -, -, hcases⟩ := stepWrite_eq_some hstep
      rcases hcases with ⟨-, rfl⟩ | ⟨reply, converted, data, -, -, -, rfl⟩
      · exact ih
      · exact ih
    | takeReply i =>
      obtain ⟨σ, data, reply, server, -, -, hserver, rfl⟩ := stepTakeReply_eq_some hstep
      cases hserver
      exact ih.of_same rfl rfl rfl
    | lookup id =>
      obtain ⟨server, hserver, rfl⟩ := Option.map_eq_some_iff.mp hstep
      obtain ⟨hsame, hcalls, hresponses, -⟩ := lookup_frame hserver
      exact ih.of_same hsame hcalls hresponses
    | deliver id =>
      obtain ⟨server, hserver, rfl⟩ := Option.map_eq_some_iff.mp hstep
      exact ih.deliver hinv hserver

open Server.Correlation in
/-- With types whose values are converted, and in every interleaving, also if replies are taken
again, the tables of the two sides hold exactly what is open: the server has a handle, with its
caller, for each call without a response, and the sample identity and the reply type for each such
call that was written; the client has the reply type for each request that was remembered and whose
response has not been taken. -/
theorem tables_hold_pending [LawfulDds] (hrequest : Transferable fuel service.requestType)
    (hreply : Transferable fuel service.replyType)
    (h : (machine fuel service s₀ c₀).Reachable s) :
    (∀ handle client, s.server.server.callhandleClient handle = some client ↔
      ∃ a ∈ s.asked, a.call.handle = handle ∧ a.call.client = client ∧
        ¬ Answered s.server handle) ∧
    (∀ sample handle, s.server.server.sampleCallhandle sample = some handle ↔
      ∃ a ∈ s.asked, a.call.sample = some sample ∧ a.call.handle = handle ∧
        ¬ Answered s.server handle) ∧
    (∀ sample rep, s.server.server.replyIdType sample = some rep ↔
      ∃ a ∈ s.asked, a.call.sample = some sample ∧ s₀.requestReply a.type.name = some rep ∧
        ¬ Answered s.server a.call.handle) ∧
    ∀ sample rep, s.client.client.replyIdType sample = some rep ↔
      ∃ (i : Nat) (th : Client.Correlation.RequestThread S) (m : NavigationNode.Selected),
        s.client.requests[i]? = some th ∧ th.sample = sample ∧ th.pc.remembered = some m ∧
        c₀.requestReply m.typeName = some rep ∧ ¬ Client.Correlation.Taken s.client i := by
  have hinv := callInv_of_reachable (server_reachable h)
  have htables := tables_of_reachable h
  have hsettled := settled_of_reachable hrequest hreply h
  refine ⟨fun handle client => ⟨fun hsome => ?_, ?_⟩, fun sample handle => ⟨fun hsome => ?_, ?_⟩,
    fun sample rep => ⟨fun hsome => ?_, ?_⟩,
    fun _ _ => Client.Correlation.replyIdType_iff (client_reachable h)⟩
  · obtain ⟨c, hc, hhandle, hclient⟩ := hinv.callhandleClient handle client hsome
    obtain ⟨a, ha, rfl⟩ := htables.exists_asked hc
    refine ⟨a, ha, hhandle, hclient, fun hanswered => ?_⟩
    rw [hinv.consumed handle hanswered] at hsome
    cases hsome
  · rintro ⟨a, ha, rfl, rfl, hpending⟩
    exact hsettled.callhandleClient a.call (htables.mem_calls ha) hpending
  · obtain ⟨c, hc, rfl, hsample⟩ := hinv.sampleCallhandle sample handle hsome
    obtain ⟨a, ha, rfl⟩ := htables.exists_asked hc
    refine ⟨a, ha, hsample, rfl, fun hanswered => ?_⟩
    rw [hsettled.sampleCallhandle a.call hc sample hsample hanswered] at hsome
    cases hsome
  · rintro ⟨a, ha, hsample, rfl, hpending⟩
    exact (hinv.pending a.call (htables.mem_calls ha) sample hsample hpending).2
  · -- the sample has an entry, so it is that of a call
    have hmem : some sample ∈ s.server.calls.map Call.sample := by
      by_contra hnot
      rw [htables.fresh sample hnot] at hsome
      cases hsome
    obtain ⟨c, hc, hsample⟩ := List.mem_map.mp hmem
    obtain ⟨a, ha, rfl⟩ := htables.exists_asked hc
    have hpending : ¬ Answered s.server a.call.handle := fun hanswered => by
      rw [hsettled.replyIdType a.call hc sample hsample hanswered] at hsome
      cases hsome
    rw [htables.remembered a ha sample hsample hpending] at hsome
    exact ⟨a, ha, hsample, hsome, hpending⟩
  · rintro ⟨a, ha, hsample, hrep, hpending⟩
    rw [htables.remembered a ha sample hsample hpending, hrep]

/-! ## Examples -/

omit [DecidableEq H] [DecidableEq S] [Xtypes] [Dds]

def halfAnswered : List (Event Nat Nat Nat) :=
  [.call moveType (moveRequest 4) 1 100 (some 5), .call moveType (moveRequest 7) 2 200 (some 6),
    .takeRequest 1, .client (.select 0), .client (.remember 0), .client (.invoke 0),
    .client (.respond ⟨0, 6⟩ movedType (movedResponse 70)), .client (.take 0), .write 0 true,
    .takeReply 0, .lookup 0, .deliver 0, .takeRequest 0, .client (.select 1),
    .client (.remember 1)]

def tablesAt (s : State Nat Nat Nat Nat) : List (Option Nat) × List (Option String) :=
  ([s.server.server.callhandleClient 1, s.server.server.callhandleClient 2,
    s.server.server.sampleCallhandle 5, s.server.server.sampleCallhandle 6],
   [s.server.server.replyIdType 5, s.server.server.replyIdType 6,
    s.client.client.replyIdType 5, s.client.client.replyIdType 6])

theorem tables_hold_pending_halfAnswered :
    ∃ s : State Nat Nat Nat Nat,
      tablesAt s = ([some 100, none, some 1, none], [some "Moved", none, some "Moved", none]) ∧
      (∀ handle client, s.server.server.callhandleClient handle = some client ↔
        ∃ a ∈ s.asked, a.call.handle = handle ∧ a.call.client = client ∧
          ¬ Server.Correlation.Answered s.server handle) ∧
      (∀ sample handle, s.server.server.sampleCallhandle sample = some handle ↔
        ∃ a ∈ s.asked, a.call.sample = some sample ∧ a.call.handle = handle ∧
          ¬ Server.Correlation.Answered s.server handle) ∧
      (∀ sample rep, s.server.server.replyIdType sample = some rep ↔
        ∃ a ∈ s.asked, a.call.sample = some sample ∧
          steerServer.requestReply a.type.name = some rep ∧
          ¬ Server.Correlation.Answered s.server a.call.handle) ∧
      ∀ sample rep, s.client.client.replyIdType sample = some rep ↔
        ∃ (i : Nat) (th : Client.Correlation.RequestThread Nat) (m : NavigationNode.Selected),
          s.client.requests[i]? = some th ∧ th.sample = sample ∧ th.pc.remembered = some m ∧
          steerClient.requestReply m.typeName = some rep ∧
          ¬ Client.Correlation.Taken s.client i := by
  have hrun : (steerMachine.run steerStart halfAnswered).map tablesAt =
      some ([some 100, none, some 1, none], [some "Moved", none, some "Moved", none]) := by
    decide +kernel
  obtain ⟨s, hs, htables⟩ := Option.map_eq_some_iff.mp hrun
  have h := @tables_hold_pending Nat Nat Nat Nat _ _ firstLabelXtypes zeroDds 3 steerService
    steerServer steerClient s lawful_zeroDds transferable_steerRequest transferable_steerReply
    (steerStart_reachable.of_run halfAnswered hs)
  exact ⟨s, htables, h⟩

end Rpc

end FastDdsSh
