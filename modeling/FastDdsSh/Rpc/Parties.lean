import FastDdsSh.Rpc

/-!
# The two parties of a service

What a run does to the configured tables of the `Server` and to the record of the `Client`: the
paths stay as they were configured, the reply type of a pending call stays remembered, the threads
keep their arguments, and a handle is answered by one reply.
-/

namespace FastDdsSh

open Transition KeyedStore

/-! ## The tables of the server -/

namespace Server

variable {H K S : Type} [DecidableEq H] [DecidableEq S]

omit [DecidableEq H] [DecidableEq S] in
structure SameRoutes (s s' : KeyedServer H K S) : Prop where
  requestReply : s'.requestReply = s.requestReply
  discriminators (name : String) :
    (s'.typeToDiscriminator name).getD "" = (s.typeToDiscriminator name).getD ""

omit [DecidableEq H] [DecidableEq S]

theorem SameRoutes.refl (s : KeyedServer H K S) : SameRoutes s s := ⟨rfl, fun _ => rfl⟩

theorem SameRoutes.trans {s s' s'' : KeyedServer H K S} (h : SameRoutes s s')
    (h' : SameRoutes s' s'') : SameRoutes s s'' :=
  ⟨h'.requestReply.trans h.requestReply, fun name =>
    (h'.discriminators name).trans (h.discriminators name)⟩

theorem SameRoutes.buildRequest [Xtypes] {s s' : KeyedServer H K S} (h : SameRoutes s s')
    (service : Service) (t : DynamicType) (v : Value) :
    s'.buildRequest service t v = s.buildRequest service t v := by
  unfold Server.buildRequest requestPath
  rw [h.discriminators]

theorem SameRoutes.replyPath {s s' : KeyedServer H K S} (h : SameRoutes s s') (service : Service)
    (typeName : String) : s'.replyPath service typeName = s.replyPath service typeName := by
  unfold Server.replyPath
  rw [h.requestReply]
  split
  · exact h.discriminators _
  · rfl

variable [DecidableEq S]

theorem SameRoutes.takeReplyPath_path {s s' : KeyedServer H K S} (h : SameRoutes s s')
    (service : Service) {sample : S} {typeName : String}
    (hremembered : s'.replyIdType sample = s.requestReply typeName) :
    (s'.takeReplyPath service sample).1 = s.replyPath service typeName := by
  rw [Server.takeReplyPath_path, hremembered, Server.replyPath]
  cases s.requestReply typeName with
  | none => rfl
  | some rep => exact h.discriminators rep

theorem sameRoutes_takeReplyPath (service : Service) (s : KeyedServer H K S) (sample : S) :
    SameRoutes s (s.takeReplyPath service sample).2 := by
  unfold takeReplyPath
  split
  · exact ⟨rfl, fun name => getD_subscript _ _ _ _⟩
  · exact .refl s

/-- Only the entry of the sample itself is consumed. -/
theorem replyIdType_takeReplyPath_ne (service : Service) (s : KeyedServer H K S)
    {sample sample' : S} (h : sample' ≠ sample) :
    (s.takeReplyPath service sample).2.replyIdType sample' = s.replyIdType sample' := by
  unfold takeReplyPath
  split
  · exact erase_ne _ h
  · rfl

theorem replyIdType_takeReplyPath_of_none (service : Service) {s : KeyedServer H K S} (sample : S)
    {sample' : S} (h : s.replyIdType sample' = none) :
    (s.takeReplyPath service sample).2.replyIdType sample' = none := by
  by_cases hsame : sample' = sample
  · subst hsame
    unfold takeReplyPath
    rw [Container.find_keyedStore, h]
    exact h
  · rw [replyIdType_takeReplyPath_ne service s hsame, h]

variable [DecidableEq H] [Xtypes]

/-- A call remembers the reply type for the sample of its write, and touches no other entry. -/
theorem callService_tables {service : Service} {s s' : KeyedServer H K S} {t : DynamicType}
    {v r : Value} {handle : H} {client : K} {converted : Bool} {written : Option S}
    (h : s.callService service t v handle client converted written = some (s', r)) :
    SameRoutes s s' ∧ ∀ sample,
      (Correlation.writtenSample converted written ≠ some sample →
        s'.replyIdType sample = s.replyIdType sample) ∧
      (Correlation.writtenSample converted written = some sample → s.replyIdType sample = none →
        s'.replyIdType sample = s.requestReply t.name) := by
  unfold callService at h
  obtain ⟨request, -, heq⟩ := Option.map_eq_some_iff.mp h
  obtain ⟨rfl, -⟩ := Prod.mk.inj heq
  have hsame := getD_subscript s.typeToDiscriminator (stripped t.name)
  -- without a write the tables keep what they have
  cases converted with
  | false =>
    refine ⟨⟨rfl, fun name => hsame name ""⟩, fun sample => ⟨fun _ => rfl, ?_⟩⟩
    intro hwritten
    cases hwritten
  | true =>
    cases written with
    | none =>
      refine ⟨⟨rfl, fun name => hsame name ""⟩, fun sample => ⟨fun _ => rfl, ?_⟩⟩
      intro hwritten
      cases hwritten
    | some sample =>
      simp only [if_true, issueCall, Correlation.writtenSample]
      split
      · rename_i rep hrep
        refine ⟨⟨rfl, fun name => hsame name ""⟩, fun sample' => ⟨fun hne => ?_, fun heq _ => ?_⟩⟩
        · exact set_ne _ _ fun heq => hne (congrArg some heq.symm)
        · cases heq
          exact (set_self _ _ _).trans hrep.symm
      · rename_i hrep
        refine ⟨⟨rfl, fun name => hsame name ""⟩, fun sample' => ⟨fun _ => rfl, fun _ hnone => ?_⟩⟩
        exact hnone.trans hrep.symm

/-- A reply is looked for where the remembered type says, and consumes no other entry. -/
theorem deliverReply_tables {service : Service} {s s' : KeyedServer H K S} {sample : S} {handle : H}
    {received : Value} {out : Option (K × DynamicType × Value)}
    (h : s.deliverReply service sample handle received = some (s', out)) :
    SameRoutes s s' ∧
    (∀ sample', sample' ≠ sample → s'.replyIdType sample' = s.replyIdType sample') ∧
    (∀ sample', s.replyIdType sample' = none → s'.replyIdType sample' = none) ∧
    ∀ client message, out = some (client, message) →
      received.component service.replyType (memberPath (s.takeReplyPath service sample).1) =
        some message := by
  have hroutes := sameRoutes_takeReplyPath service s sample
  unfold deliverReply at h
  obtain ⟨message, hmessage, heq⟩ := Option.map_eq_some_iff.mp h
  split at heq
  · cases heq
    refine ⟨⟨hroutes.requestReply, hroutes.discriminators⟩, ?_, ?_, ?_⟩
    · exact fun sample' hne => replyIdType_takeReplyPath_ne service s hne
    · exact fun sample' hnone => replyIdType_takeReplyPath_of_none service sample hnone
    · intro client' message' hout
      cases hout
      exact hmessage
  · cases heq
    refine ⟨hroutes, ?_, ?_, ?_⟩
    · exact fun sample' hne => replyIdType_takeReplyPath_ne service s hne
    · exact fun sample' hnone => replyIdType_takeReplyPath_of_none service sample hnone
    · intro client message hout
      cases hout

end Server

namespace Server.Correlation

variable {H K S : Type}

def State.arguments (s : KeyedState H K S) : List (S × Value) :=
  s.threads.map fun th => (th.sample, th.reply)

variable [DecidableEq H] [DecidableEq S] [Xtypes] {service : Service} {s s' : KeyedState H K S}

theorem call_arguments {t : DynamicType} {v : Value} {handle : H} {client : K} {converted : Bool}
    {written : Option S}
    (h : stepCall service s t v handle client converted written = some s') :
    s'.arguments = s.arguments := by
  obtain ⟨sample, -, -, -, -, hthreads, -, -, -, -⟩ := stepCall_cases h
  unfold State.arguments
  rw [hthreads]

theorem arrive_arguments {sample : S} {reply : Value}
    (h : step service s (.arrive sample reply) = some s') :
    s'.arguments = s.arguments ++ [(sample, reply)] := by
  cases h
  exact List.map_append

/-- The first critical section changes nothing but its thread. -/
theorem lookup_frame {id : Nat} (h : step service s (.lookup id) = some s') :
    s'.server = s.server ∧ s'.calls = s.calls ∧ s'.responses = s.responses ∧
      s'.arguments = s.arguments := by
  obtain ⟨sample, reply, hth, ⟨handle, -, rfl⟩ | ⟨-, rfl⟩⟩ := stepLookup_cases h
  · exact ⟨rfl, rfl, rfl, map_set_of_same hth rfl⟩
  · exact ⟨rfl, rfl, rfl, map_set_of_same hth rfl⟩

theorem deliver_arguments {id : Nat} {converted : Bool}
    (h : step service s (.deliver id converted) = some s') : s'.arguments = s.arguments := by
  obtain ⟨handle, sample, reply, hth, ⟨-, rfl⟩ | ⟨-, server, out, -, rfl⟩⟩ := stepDeliver_cases h
  · exact map_set_of_same hth rfl
  · exact map_set_of_same hth rfl

end Server.Correlation

/-! ## The record of the client -/

namespace Client.Correlation

variable {S Cb : Type}

def State.arguments (s : State S Cb) : List (S × Value) :=
  s.requests.map fun th => (th.sample, th.received)

variable [DecidableEq S] [Xtypes] {service : Service} {s s' : State S Cb}

theorem receive_frame {sample : S} {received : Value}
    (h : step service s (.receive sample received) = some s') :
    s'.arguments = s.arguments ++ [(sample, received)] ∧ s'.written = s.written ∧
      s'.responses = s.responses ∧ s'.client = s.client := by
  simp only [step] at h
  split at h
  · cases h
  · cases h
    exact ⟨List.map_append, rfl, rfl, rfl⟩

/-- A write that goes through is recorded, and ends its thread. -/
theorem write_cases {id : Nat} {success : Bool} {th : ResponseThread S} {path : String}
    (hth : s.responses[id]? = some th) (hpc : th.pc = .write path)
    (h : step service s (.write id success) = some s') :
    s'.arguments = s.arguments ∧ s'.client = s.client ∧
    ((∃ reply, success = true ∧ buildReply service path th.type th.response = some reply ∧
      s'.responses = s.responses.set id { th with pc := .done } ∧
      s'.written = s.written ++
        [⟨th.handle, th.handle.sampleIdentity, path, th.type, th.response, reply⟩]) ∨
    (s'.responses = s.responses.set id { th with pc := .failed } ∧ s'.written = s.written ∧
      (success = false ∨ buildReply service path th.type th.response = none))) := by
  obtain ⟨u, hu, h⟩ := Option.bind_eq_some_iff.mp h
  rw [hth] at hu
  cases hu
  simp only [stepResponse, hpc] at h
  cases hreply : buildReply service path th.type th.response with
  | none =>
    rw [hreply] at h
    cases h
    exact ⟨rfl, rfl, .inr ⟨rfl, rfl, .inr rfl⟩⟩
  | some reply =>
    rw [hreply] at h
    cases success with
    | false =>
      cases h
      exact ⟨rfl, rfl, .inr ⟨rfl, rfl, .inl rfl⟩⟩
    | true =>
      cases h
      exact ⟨rfl, rfl, .inl ⟨reply, rfl, rfl, rfl, rfl⟩⟩

/-- A thread on `Client::receive` keeps its argument, and has no part in the responses. -/
theorem request_frame {id : Nat} {th : RequestThread S} {e : Event S}
    (hth : s.requests[id]? = some th) (h : stepRequest service s id th e = some s') :
    s'.arguments = s.arguments ∧ s'.written = s.written ∧ s'.responses = s.responses ∧
      s'.client.callbacks = s.client.callbacks := by
  have hset (s : State S Cb) (pc : RequestPc) (hth : s.requests[id]? = some th) :
      (s.setRequest id pc th).arguments = s.arguments := by
    show (s.requests.set id { th with pc := pc }).map _ = _
    exact map_set_of_same hth rfl
  unfold stepRequest at h
  split at h
  · split at h
    · split at h
      · cases h
        exact ⟨hset s _ hth, rfl, rfl, rfl⟩
      · cases h
        exact ⟨hset s _ hth, rfl, rfl, rfl⟩
    · cases h
  · split at h
    · cases h
      exact ⟨hset _ _ hth, rfl, rfl, rememberReply_callbacks _ _ _⟩
    · cases h
  · split at h
    · split at h
      · cases h
        exact ⟨hset s _ hth, rfl, rfl, rfl⟩
      · cases h
        exact ⟨hset s _ hth, rfl, rfl, rfl⟩
      · cases h
        exact ⟨hset _ _ hth, rfl, rfl, rfl⟩
    · cases h
  · split at h
    · cases h
      exact ⟨hset s _ hth, rfl, rfl, rfl⟩
    · cases h
  · cases h

omit [Xtypes] in
theorem takeReplyPath_callbacks (service : Service) (c : Client S Cb) (sample : S) :
    (c.takeReplyPath service sample).2.callbacks = c.callbacks := by
  unfold takeReplyPath
  split <;> rfl

/-- A step between the ends takes no argument, writes nothing and leaves alone what is done. -/
theorem inner_frame {e : Event S} (hinner : Rpc.isInner e = true)
    (h : step service s e = some s') :
    s'.arguments = s.arguments ∧ s'.written = s.written ∧
      s'.client.callbacks = s.client.callbacks ∧
      ∀ (i : Nat) (th : ResponseThread S), s.responses[i]? = some th → th.pc = .done →
        s'.responses[i]? = some th := by
  cases e with
  | receive sample received => cases hinner
  | write id success => cases hinner
  | respond handle type response =>
    simp only [step] at h
    split at h
    · cases h
      refine ⟨rfl, rfl, rfl, fun i th hth _ => ?_⟩
      exact (List.getElem?_append_left (lt_length_of_getElem? hth)).trans hth
    · cases h
  | select id | remember id | invoke id | finish id =>
    obtain ⟨th, hth, h⟩ := Option.bind_eq_some_iff.mp h
    obtain ⟨harguments, hwritten, hresponses, hcallbacks⟩ := request_frame hth h
    exact ⟨harguments, hwritten, hcallbacks, fun i th hth _ => by rw [hresponses]; exact hth⟩
  | take id =>
    obtain ⟨th, hth, h⟩ := Option.bind_eq_some_iff.mp h
    simp only [stepResponse] at h
    split at h
    · rename_i hpc
      cases h
      refine ⟨rfl, rfl, takeReplyPath_callbacks _ _ _, fun i u hu hdone => ?_⟩
      -- the thread that takes is not done
      have hne : id ≠ i := by
        rintro rfl
        rw [hth] at hu
        cases hu
        rw [hpc] at hdone
        cases hdone
      exact (List.getElem?_set_ne hne).trans hu
    · cases h

structure WrittenOnce (s : State S Cb) : Prop where
  done : ∀ w ∈ s.written, ∃ (i : Nat) (th : ResponseThread S), s.responses[i]? = some th ∧
    th.handle = w.handle ∧ th.pc = .done
  once : (s.written.map Written.handle).Nodup

theorem writtenOnce_of_reachable {c₀ : Client S Cb} (h : (machine service c₀).Reachable s) :
    WrittenOnce s := by
  refine Machine.ReachableVia.invariant_using h (fun _ h => replyInv_of_reachable h) ?_ ?_
  · rintro s ⟨rfl, -⟩
    exact ⟨List.forall_mem_nil _, List.nodup_nil⟩
  · intro s e s' hinv h _ hstep
    by_cases hinner : Rpc.isInner e = true
    · obtain ⟨-, hwritten, -, hdone⟩ := inner_frame hinner hstep
      refine ⟨fun w hw => ?_, by rw [hwritten]; exact h.once⟩
      rw [hwritten] at hw
      obtain ⟨i, th, hth, hhandle, hpc⟩ := h.done w hw
      exact ⟨i, th, hdone i th hth hpc, hhandle, hpc⟩
    cases e with
    | receive sample received =>
      obtain ⟨-, hwritten, hresponses, -⟩ :=
        receive_frame (show step service s _ = some s' from hstep)
      constructor
      · rw [hwritten, hresponses]
        exact h.done
      · rw [hwritten]
        exact h.once
    | write id success =>
      obtain ⟨th, hth, hrest⟩ := Option.bind_eq_some_iff.mp hstep
      cases hpc : th.pc with
      | write path =>
        have hlt := lt_length_of_getElem? hth
        -- the other threads stay as they are, and this one is not done before
        have hkeep (pc : ResponsePc) : ∀ w ∈ s.written, ∃ (i : Nat) (u : ResponseThread S),
            (s.responses.set id { th with pc := pc })[i]? = some u ∧ u.handle = w.handle ∧
              u.pc = .done ∧ u.handle ≠ th.handle := by
          intro w hw
          obtain ⟨i, u, hu, hhandle, hdone⟩ := h.done w hw
          have hne : id ≠ i := by
            rintro rfl
            rw [hth] at hu
            cases hu
            rw [hpc] at hdone
            cases hdone
          refine ⟨i, u, (List.getElem?_set_ne hne).trans hu, hhandle, hdone, fun heq => ?_⟩
          exact hne (hinv.once i id u th hu hth heq).symm
        obtain ⟨-, -, ⟨reply, -, -, hresponses, hwritten⟩ | ⟨hresponses, hwritten, -⟩⟩ :=
          write_cases hth hpc hstep
        · constructor
          · intro w hw
            rw [hwritten] at hw
            rw [hresponses]
            rcases List.mem_append.mp hw with hw | hw
            · obtain ⟨i, u, hu, hhandle, hdone, -⟩ := hkeep .done w hw
              exact ⟨i, u, hu, hhandle, hdone⟩
            · obtain rfl := List.mem_singleton.mp hw
              exact ⟨id, _, List.getElem?_set_self hlt, rfl, rfl⟩
          · rw [hwritten, List.map_append, List.map_singleton, List.nodup_append]
            refine ⟨h.once, List.nodup_singleton _, ?_⟩
            intro x hx y hy
            rw [List.mem_singleton.mp hy]
            obtain ⟨w, hw, rfl⟩ := List.mem_map.mp hx
            obtain ⟨i, u, -, hhandle, -, hne⟩ := hkeep .done w hw
            rw [← hhandle]
            exact hne
        · constructor
          · intro w hw
            rw [hwritten] at hw
            rw [hresponses]
            obtain ⟨i, u, hu, hhandle, hdone, -⟩ := hkeep .failed w hw
            exact ⟨i, u, hu, hhandle, hdone⟩
          · rw [hwritten]
            exact h.once
      | take | done | failed =>
        simp only [stepResponse, hpc] at hrest
        cases hrest
    | _ => exact absurd rfl hinner

end Client.Correlation

end FastDdsSh
