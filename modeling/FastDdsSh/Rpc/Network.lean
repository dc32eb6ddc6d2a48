import FastDdsSh.Rpc.Agreement

/-!
# Many servers and many clients

Several instances of the Integration Service may have a `Server` of one service, and several a
`Client`.  They share the two topics: every client may take every request, and every server every
reply.  A sample identity names the data writer that wrote the sample, so no server takes a reply to
a request of another one for its own.
-/

namespace FastDdsSh.Rpc

open Transition Server.Correlation

structure Network (ι κ H K S Cb : Type) where
  servers : ι → Server.Correlation.KeyedState H K S
  clients : κ → Client.Correlation.State S Cb
  requestData : ι → DdsData
  replyData : κ → DdsData
  requests : List (S × DdsData)
  replies : List (S × DdsData)
  asked : ι → List (Asked H K S)

namespace Network

variable {ι κ H K S Cb : Type} [DecidableEq ι] [DecidableEq κ]

def pair (n : Network ι κ H K S Cb) (j : ι) (k : κ) : State H K S Cb :=
  ⟨n.servers j, n.clients k, n.requestData j, n.replyData k, n.requests, n.replies, n.asked j⟩

def put (n : Network ι κ H K S Cb) (j : ι) (k : κ) (s : State H K S Cb) :
    Network ι κ H K S Cb where
  servers := Function.update n.servers j s.server
  clients := Function.update n.clients k s.client
  requestData := Function.update n.requestData j s.requestData
  replyData := Function.update n.replyData k s.replyData
  requests := s.requests
  replies := s.replies
  asked := Function.update n.asked j s.asked

variable [DecidableEq H] [DecidableEq S] [Xtypes] [Dds]

/-- A step of the server or of the client that the event names, or of the wire between them; a
server writes samples with the identity of its own data writer. -/
def step (fuel : Nat) (service : Service) (writer : S → ι) (n : Network ι κ H K S Cb)
    (e : ι × κ × Event H K S) : Option (Network ι κ H K S Cb) :=
  if ∀ σ ∈ e.2.2.written, writer σ = e.1 then
    (Rpc.step fuel service (n.pair e.1 e.2.1) e.2.2).map (n.put e.1 e.2.1)
  else none

structure Initial (service : Service) (s₀ : ι → KeyedServer H K S) (c₀ : κ → Client S Cb)
    (n : Network ι κ H K S Cb) : Prop where
  servers : ∀ j, n.servers j = ⟨s₀ j, [], [], []⟩
  serverTables : ∀ j, (s₀ j).callhandleClient = .empty ∧ (s₀ j).sampleCallhandle = .empty ∧
    (s₀ j).replyIdType = .empty
  clients : ∀ k, n.clients k = ⟨c₀ k, [], [], [], []⟩
  clientTables : ∀ k, (c₀ k).replyIdType = .empty
  requestData : ∀ j, ∃ T, service.requestType.getBuilder = some T ∧ n.requestData j = T.createData
  replyData : ∀ k, ∃ T, service.replyType.getBuilder = some T ∧ n.replyData k = T.createData
  requests : n.requests = []
  replies : n.replies = []
  asked : ∀ j, n.asked j = []

def machine (fuel : Nat) (service : Service) (writer : S → ι) (s₀ : ι → KeyedServer H K S)
    (c₀ : κ → Client S Cb) : Machine (Network ι κ H K S Cb) (ι × κ × Event H K S) where
  init := Initial service s₀ c₀
  step := step fuel service writer

/-! ## The parties -/

variable {fuel : Nat} {service : Service} {writer : S → ι} {s₀ : ι → KeyedServer H K S}
  {c₀ : κ → Client S Cb} {n n' : Network ι κ H K S Cb} {j i : ι} {k l : κ} {e : Event H K S}
  {s' : State H K S Cb}

theorem step_eq_some (h : step fuel service writer n (j, k, e) = some n') :
    (∀ σ, e.written = some σ → writer σ = j) ∧
      ∃ s', Rpc.step fuel service (n.pair j k) e = some s' ∧ n' = n.put j k s' := by
  unfold step at h
  split at h
  · rename_i hwriter
    obtain ⟨s', hs', rfl⟩ := Option.map_eq_some_iff.mp h
    exact ⟨hwriter, s', hs', rfl⟩
  · cases h

omit [DecidableEq H] [DecidableEq S] [Xtypes] [Dds] in
theorem servers_put (n : Network ι κ H K S Cb) (j i : ι) (k : κ) (s : State H K S Cb) :
    (i = j ∧ (n.put j k s).servers i = s.server ∧ (n.put j k s).asked i = s.asked) ∨
    (i ≠ j ∧ (n.put j k s).servers i = n.servers i ∧ (n.put j k s).asked i = n.asked i) := by
  by_cases h : i = j
  · subst h
    exact .inl ⟨rfl, Function.update_self _ _ _, Function.update_self _ _ _⟩
  · exact .inr ⟨h, Function.update_of_ne h _ _, Function.update_of_ne h _ _⟩

omit [DecidableEq H] [DecidableEq S] [Xtypes] [Dds] in
theorem clients_put (n : Network ι κ H K S Cb) (j : ι) (k l : κ) (s : State H K S Cb) :
    (l = k ∧ (n.put j k s).clients l = s.client) ∨
    (l ≠ k ∧ (n.put j k s).clients l = n.clients l) := by
  by_cases h : l = k
  · subst h
    exact .inl ⟨rfl, Function.update_self _ _ _⟩
  · exact .inr ⟨h, Function.update_of_ne h _ _⟩

theorem server_reachable (h : (machine fuel service writer s₀ c₀).Reachable n) (i : ι) :
    (Server.Correlation.machine service).Reachable (n.servers i) := by
  refine h.map (fun n => n.servers i) ?_ ?_
  · intro n hinit
    obtain ⟨hclients, hsamples, htypes⟩ := hinit.serverTables i
    rw [hinit.servers i]
    exact ⟨hclients, hsamples, htypes, rfl, rfl, rfl⟩
  · rintro n ⟨j, k, e⟩ n' hstep
    obtain ⟨-, s', hs', rfl⟩ := step_eq_some hstep
    rcases servers_put n j i k s' with ⟨rfl, hserver, -⟩ | ⟨-, hserver, -⟩
    · rw [hserver]
      exact (step_parties hs').1
    · exact .inl hserver

theorem client_reachable (h : (machine fuel service writer s₀ c₀).Reachable n) (l : κ) :
    (Client.Correlation.machine service (c₀ l)).Reachable (n.clients l) := by
  refine h.map (fun n => n.clients l) ?_ ?_
  · exact fun n hinit => ⟨hinit.clients l, hinit.clientTables l⟩
  · rintro n ⟨j, k, e⟩ n' hstep
    obtain ⟨-, s', hs', rfl⟩ := step_eq_some hstep
    rcases clients_put n j k l s' with ⟨rfl, hclient⟩ | ⟨-, hclient⟩
    · rw [hclient]
      exact (step_parties hs').2
    · exact .inl hclient

theorem tables_of_reachable (h : (machine fuel service writer s₀ c₀).Reachable n) :
    ∀ i, Tables service (s₀ i) (n.servers i) (n.asked i) := by
  refine Machine.ReachableVia.invariant_using
    (I := fun n => ∀ i, Tables service (s₀ i) (n.servers i) (n.asked i))
    (J := fun n => ∀ i, CallInv (n.servers i)) h
    (fun _ h i => callInv_of_reachable (server_reachable h i)) ?_ ?_
  · intro n hinit i
    obtain ⟨-, -, htypes⟩ := hinit.serverTables i
    rw [hinit.servers i, hinit.asked i]
    refine ⟨rfl, .refl (s₀ i), List.forall_mem_nil _, fun σ _ => ?_, List.forall_mem_nil _⟩
    rw [htypes]
    rfl
  · rintro n ⟨j, k, e⟩ n' hinv ih - hstep i
    obtain ⟨-, s', hs', rfl⟩ := step_eq_some hstep
    rcases servers_put n j i k s' with ⟨rfl, hserver, hasked⟩ | ⟨-, hserver, hasked⟩
    · rw [hserver, hasked]
      exact Tables.step (s := n.pair i k) (ih i) (hinv i) hs'
    · rw [hserver, hasked]
      exact ih i

/-! ## What is on its way -/

/-- Every request comes from the server that its sample identity names, every reply from some
client, and every thread has read such a sample. -/
structure Traffic (fuel : Nat) (service : Service) (writer : S → ι)
    (n : Network ι κ H K S Cb) : Prop where
  requestData : ∀ i, Shaped service.requestType (n.requestData i)
  replyData : ∀ l, Shaped service.replyType (n.replyData l)
  asked : ∀ i, ∀ a ∈ n.asked i, service.requestType.admits a.request = true
  own : ∀ i, ∀ a ∈ n.asked i, ∀ σ, a.call.sample = some σ → writer σ = i
  requests : ∀ x ∈ n.requests, ∃ i, ∃ a ∈ n.asked i, a.call.sample = some x.1 ∧
    Carries fuel service.requestType a.request x.2
  received : ∀ l, ∀ x ∈ (n.clients l).arguments, ∃ i, ∃ a ∈ n.asked i,
    a.call.sample = some x.1 ∧ x.2 = service.requestType.rebuilt a.request
  written : ∀ l, ∀ w ∈ (n.clients l).written, service.replyType.admits w.reply = true
  replies : ∀ x ∈ n.replies, ∃ l, ∃ w ∈ (n.clients l).written, w.relatedSampleIdentity = x.1 ∧
    Carries fuel service.replyType w.reply x.2
  arrived : ∀ i, ∀ x ∈ (n.servers i).arguments, ∃ l, ∃ w ∈ (n.clients l).written,
    w.relatedSampleIdentity = x.1 ∧ x.2 = service.replyType.rebuilt w.reply

omit [DecidableEq H] [DecidableEq S] in
theorem mem_asked_put (heffects : Effects fuel service e (n.pair j k) s') {a : Asked H K S}
    (ha : a ∈ n.asked i) : a ∈ (n.put j k s').asked i := by
  rcases servers_put n j i k s' with ⟨rfl, -, hasked⟩ | ⟨-, -, hasked⟩
  · rw [hasked]
    exact heffects.keptAsked a ha
  · rw [hasked]
    exact ha

omit [DecidableEq H] [DecidableEq S] in
theorem mem_written_put (heffects : Effects fuel service e (n.pair j k) s')
    {w : Client.Correlation.Written S} (hw : w ∈ (n.clients l).written) :
    w ∈ ((n.put j k s').clients l).written := by
  rcases clients_put n j k l s' with ⟨rfl, hclient⟩ | ⟨-, hclient⟩
  · rw [hclient]
    exact heffects.keptWritten w hw
  · rw [hclient]
    exact hw

omit [DecidableEq H] [DecidableEq S] in
theorem Traffic.step (h : Traffic fuel service writer n)
    (hwriter : ∀ σ, e.written = some σ → writer σ = j)
    (heffects : Effects fuel service e (n.pair j k) s') :
    Traffic fuel service writer (n.put j k s') := by
  -- a call is kept by its server, a reply by its client
  have hcall {P : Asked H K S → Prop} (hold : ∃ i, ∃ a ∈ n.asked i, P a) :
      ∃ i, ∃ a ∈ (n.put j k s').asked i, P a := by
    obtain ⟨i, a, ha, hP⟩ := hold
    exact ⟨i, a, mem_asked_put heffects ha, hP⟩
  have hreply {P : Client.Correlation.Written S → Prop}
      (hold : ∃ l, ∃ w ∈ (n.clients l).written, P w) :
      ∃ l, ∃ w ∈ ((n.put j k s').clients l).written, P w := by
    obtain ⟨l, w, hw, hP⟩ := hold
    exact ⟨l, w, mem_written_put heffects hw, hP⟩
  have hasked : (n.put j k s').asked j = s'.asked := Function.update_self _ _ _
  have hclient : (n.put j k s').clients k = s'.client := Function.update_self _ _ _
  refine ⟨?_, ?_, fun i a ha => ?_, fun i a ha σ hσ => ?_, fun x hx => ?_, fun l x hx => ?_,
    fun l w hw => ?_, fun x hx => ?_, fun i x hx => ?_⟩
  · exact (Function.forall_update_iff n.requestData fun _ d => Shaped service.requestType d).mpr
      ⟨heffects.requestData, fun i _ => h.requestData i⟩
  · exact (Function.forall_update_iff n.replyData fun _ d => Shaped service.replyType d).mpr
      ⟨heffects.replyData, fun l _ => h.replyData l⟩
  · rcases servers_put n j i k s' with ⟨rfl, -, heq⟩ | ⟨-, -, heq⟩
    · rw [heq] at ha
      rcases heffects.asked a ha with ha | ⟨hadmits, -⟩
      · exact h.asked i a ha
      · exact hadmits
    · rw [heq] at ha
      exact h.asked i a ha
  · rcases servers_put n j i k s' with ⟨rfl, -, heq⟩ | ⟨-, -, heq⟩
    · rw [heq] at ha
      rcases heffects.asked a ha with ha | ⟨-, hnew⟩
      · exact h.own i a ha σ hσ
      · exact hwriter σ (hnew σ hσ)
    · rw [heq] at ha
      exact h.own i a ha σ hσ
  · rcases heffects.requests x hx with hx | ⟨a, ha, hrest⟩
    · exact hcall (h.requests x hx)
    · exact ⟨j, a, by rw [hasked]; exact ha, hrest⟩
  · rcases clients_put n j k l s' with ⟨rfl, heq⟩ | ⟨-, heq⟩
    · rw [heq] at hx
      rcases heffects.received x hx with hx | ⟨data, hmem, hread⟩
      · exact hcall (h.received l x hx)
      · obtain ⟨i, a, ha, hsample, hcarries⟩ := h.requests _ hmem
        exact hcall ⟨i, a, ha, hsample, hcarries.read hread⟩
    · rw [heq] at hx
      exact hcall (h.received l x hx)
  · rcases clients_put n j k l s' with ⟨rfl, heq⟩ | ⟨-, heq⟩
    · rw [heq] at hw
      rcases heffects.written w hw with hw | hadmits
      · exact h.written l w hw
      · exact hadmits
    · rw [heq] at hw
      exact h.written l w hw
  · rcases heffects.replies x hx with hx | ⟨w, hw, hrest⟩
    · exact hreply (h.replies x hx)
    · exact ⟨k, w, by rw [hclient]; exact hw, hrest⟩
  · rcases servers_put n j i k s' with ⟨rfl, heq, -⟩ | ⟨-, heq, -⟩
    · rw [heq] at hx
      rcases heffects.arrived x hx with hx | ⟨data, hmem, hread⟩
      · exact hreply (h.arrived i x hx)
      · obtain ⟨l, w, hw, hrelated, hcarries⟩ := h.replies _ hmem
        exact hreply ⟨l, w, hw, hrelated, hcarries.read hread⟩
    · rw [heq] at hx
      exact hreply (h.arrived i x hx)

theorem traffic_of_reachable [LawfulDds] (hrequest : Transferable fuel service.requestType)
    (hreply : Transferable fuel service.replyType)
    (h : (machine fuel service writer s₀ c₀).Reachable n) : Traffic fuel service writer n := by
  refine h.invariant (I := Traffic fuel service writer) ?_ ?_
  · intro n hinit
    refine ⟨fun i => ?_, fun l => ?_, fun i a ha => ?_, fun i a ha => ?_, ?_, fun l x hx => ?_,
      fun l w hw => ?_, ?_, fun i x hx => ?_⟩
    · obtain ⟨T, hT, hdata⟩ := hinit.requestData i
      rw [hdata]
      exact shaped_createData hT
    · obtain ⟨T, hT, hdata⟩ := hinit.replyData l
      rw [hdata]
      exact shaped_createData hT
    · rw [hinit.asked i] at ha
      cases ha
    · rw [hinit.asked i] at ha
      cases ha
    · rw [hinit.requests]
      exact List.forall_mem_nil _
    · rw [hinit.clients l] at hx
      cases hx
    · rw [hinit.clients l] at hw
      cases hw
    · rw [hinit.replies]
      exact List.forall_mem_nil _
    · rw [hinit.servers i] at hx
      cases hx
  · rintro n ⟨j, k, e⟩ n' h hstep
    obtain ⟨hwriter, s', hs', rfl⟩ := step_eq_some hstep
    exact h.step hwriter
      (effects_of_step (s := n.pair j k) (h.requestData j) (h.replyData k) hrequest hreply hs')

/-! ## Answers -/

theorem answers_of_reachable [LawfulDds] (hrequest : Transferable fuel service.requestType)
    (hreply : Transferable fuel service.replyType)
    (h : (machine fuel service writer s₀ c₀).Reachable n) :
    ∀ i, ∀ r ∈ (n.servers i).responses, ∃ a ∈ n.asked i, ∃ l, ∃ w ∈ (n.clients l).written,
      Answers service (s₀ i) r a w := by
  refine Machine.ReachableVia.invariant_using
    (I := fun n => ∀ i, ∀ r ∈ (n.servers i).responses, ∃ a ∈ n.asked i, ∃ l,
      ∃ w ∈ (n.clients l).written, Answers service (s₀ i) r a w)
    (J := fun n => (∀ i, CallInv (n.servers i)) ∧
      (∀ i, Tables service (s₀ i) (n.servers i) (n.asked i)) ∧ Traffic fuel service writer n)
    h ?_ ?_ ?_
  · exact fun _ h => ⟨fun i => callInv_of_reachable (server_reachable h i),
      tables_of_reachable h, traffic_of_reachable hrequest hreply h⟩
  · intro n hinit i
    rw [hinit.servers i]
    exact List.forall_mem_nil _
  · rintro n ⟨j, k, e⟩ n' ⟨hcalls, htables, htraffic⟩ ih - hstep i r hr
    obtain ⟨-, s', hs', rfl⟩ := step_eq_some hstep
    have heffects := effects_of_step (s := n.pair j k) (htraffic.requestData j)
      (htraffic.replyData k) hrequest hreply hs'
    have hkeep (hold : r ∈ (n.servers i).responses) : ∃ a ∈ (n.put j k s').asked i, ∃ l,
        ∃ w ∈ ((n.put j k s').clients l).written, Answers service (s₀ i) r a w := by
      obtain ⟨a, ha, l, w, hw, hanswers⟩ := ih i r hold
      exact ⟨a, mem_asked_put heffects ha, l, w, mem_written_put heffects hw, hanswers⟩
    rcases servers_put n j i k s' with ⟨rfl, hserver, -⟩ | ⟨-, hserver, -⟩
    · rw [hserver] at hr
      rcases responses_of_step (s := n.pair i k) (htables i) (hcalls i) hs' r hr with
        hr | ⟨a, ha, reply, hmem, hhandle, hclient, hsample, hmessage⟩
      · exact hkeep hr
      · obtain ⟨l, w, hw, hrelated, hread⟩ := htraffic.arrived i _ hmem
        have hread : reply = service.replyType.rebuilt w.reply := hread
        rw [hread] at hmessage
        exact ⟨a, mem_asked_put heffects ha, l, w, mem_written_put heffects hw, hhandle, hclient,
          hsample, hrelated, hmessage⟩
    · rw [hserver] at hr
      exact hkeep hr

/-- With types whose values are converted, and in every interleaving of any number of servers and
clients, each of which takes a request once at most, a call has at most one response, even if
several clients answer it; the response goes to the caller, and comes out of a reply that some
client wrote for the request the call had made, its only one for that request; and a thread with a
reply to a request of another server never gets past the search for its handle. -/
theorem replies_reach_their_callers [LawfulDds]
    (hrequest : Transferable fuel service.requestType)
    (hreply : Transferable fuel service.replyType)
    (h : (machine fuel service writer s₀ c₀).Reachable n) (j : ι) :
    ((n.servers j).responses.map Response.handle).Nodup ∧
    (∀ r ∈ (n.servers j).responses, ∃ a ∈ n.asked j, ∃ k, ∃ w ∈ (n.clients k).written,
      Answers service (s₀ j) r a w ∧
      (∀ w' ∈ (n.clients k).written, w'.relatedSampleIdentity = r.sample → w' = w) ∧
      ∃ th m, (n.clients k).requests[w.handle.request]? = some th ∧ th.sample = r.sample ∧
        th.received = service.requestType.rebuilt a.request ∧
        (c₀ k).selectMember service th.received = some m ∧
        w.path = (c₀ k).replyPath service m.typeName) ∧
    ∀ th ∈ (n.servers j).threads, writer th.sample ≠ j →
      (∀ handle, th.pc ≠ .deliver handle) ∧ th.pc ≠ .done := by
  have hcalls := callInv_of_reachable (server_reachable h j)
  have htables := tables_of_reachable h j
  have htraffic := traffic_of_reachable hrequest hreply h
  refine ⟨hcalls.once, fun r hr => ?_, fun th hth hother => ?_⟩
  · obtain ⟨a, ha, k, w, hw, hanswers⟩ := answers_of_reachable hrequest hreply h j r hr
    obtain ⟨th, m, hth, hsample, hm, hpath⟩ :=
      exists_request_of_written (Client.Correlation.replyInv_of_reachable (client_reachable h k)) hw
    rw [hanswers.related] at hsample
    have hargument : (th.sample, th.received) ∈ (n.clients k).arguments :=
      List.mem_map.mpr ⟨th, List.mem_of_getElem? hth, rfl⟩
    obtain ⟨i, b, hb, hbsample, hreceived⟩ := htraffic.received k _ hargument
    -- the request has the sample identity of the call, so both are of one writer
    have hi : i = j := by
      rw [← htraffic.own i b hb _ hbsample, hsample]
      exact htraffic.own j a ha _ hanswers.sample
    subst hi
    obtain rfl := htables.eq_of_sample hcalls ha hb hanswers.sample (by rw [hbsample, hsample])
    refine ⟨a, ha, k, w, hw, hanswers, fun w' hw' hrelated => ?_, th, m, hth, hsample, hreceived,
      hm, hpath⟩
    exact written_unique (client_reachable h k) hw hw' (hrelated.trans hanswers.related.symm)
  · obtain ⟨id, hid⟩ := List.getElem?_of_mem hth
    have hforeign {c : Call H K S} (hc : c ∈ (n.servers j).calls) :
        c.sample ≠ some th.sample := fun hsample => by
      obtain ⟨a, ha, rfl⟩ := htables.exists_asked hc
      exact hother (htraffic.own j a ha _ hsample)
    refine ⟨fun handle hpc => ?_, fun hpc => ?_⟩
    · obtain ⟨c, hc, -, hsample⟩ := hcalls.threads id th handle hid hpc
      exact hforeign hc hsample
    · obtain ⟨c, hc, hsample, -⟩ := hcalls.done id th hid hpc
      exact hforeign hc hsample

/-! ## Examples -/

omit [DecidableEq ι] [DecidableEq κ] [DecidableEq H] [DecidableEq S] [Xtypes] [Dds]

def steerNetwork : Machine (Network (Fin 2) (Fin 2) Nat Nat Nat Nat)
    (Fin 2 × Fin 2 × Event Nat Nat Nat) :=
  @machine (Fin 2) (Fin 2) Nat Nat Nat Nat _ _ _ _ firstLabelXtypes zeroDds 3 steerService
    (fun σ => if σ % 2 = 0 then 0 else 1) (fun _ => steerServer) (fun _ => steerClient)

def steerNetworkStart : Network (Fin 2) (Fin 2) Nat Nat Nat Nat where
  servers := fun _ => steerStart.server
  clients := fun _ => steerStart.client
  requestData := fun _ => steerStart.requestData
  replyData := fun _ => steerStart.replyData
  requests := []
  replies := []
  asked := fun _ => []

theorem steerNetworkStart_reachable : steerNetwork.Reachable steerNetworkStart := by
  refine Machine.ReachableVia.init (@Initial.mk (Fin 2) (Fin 2) Nat Nat Nat Nat zeroDds _ _ _ _
    (fun _ => rfl) (fun _ => ⟨rfl, rfl, rfl⟩) (fun _ => rfl) (fun _ => rfl) (fun _ => ?_)
    (fun _ => ?_) rfl rfl fun _ => rfl)
  · exact ⟨_, rfl, rfl⟩
  · exact ⟨_, rfl, rfl⟩

def answering (k : Fin 2) (i σ : Nat) (y : Int) : List (Fin 2 × Fin 2 × Event Nat Nat Nat) :=
  [(0, k, .takeRequest i), (0, k, .client (.select 0)), (0, k, .client (.remember 0)),
    (0, k, .client (.invoke 0)),
    (0, k, .client (.respond ⟨0, σ⟩ movedType (movedResponse y))), (0, k, .client (.take 0)),
    (0, k, .write 0 true)]

/-- Both servers call; both clients answer the call of the first one, which takes the reply of the
second client before that of the first, and so does the other server. -/
def sharedTopics : List (Fin 2 × Fin 2 × Event Nat Nat Nat) :=
  [(0, 0, .call moveType (moveRequest 4) 1 100 (some 6)),
    (1, 0, .call moveType (moveRequest 7) 1 200 (some 5))] ++
  (answering 0 0 6 40 ++ answering 1 0 6 41) ++
  [(1, 0, .takeReply 0), (1, 0, .lookup 0), (0, 0, .takeReply 1), (0, 0, .takeReply 0),
    (0, 0, .lookup 0), (0, 0, .lookup 1), (0, 0, .deliver 0), (0, 0, .deliver 1)]

theorem replies_reach_their_callers_sharedTopics :
    ∃ n : Network (Fin 2) (Fin 2) Nat Nat Nat Nat,
      (n.servers 0).responses.map (fun r => (r.handle, r.client, r.message.2)) =
        [(1, 100, movedResponse 41)] ∧
      ((n.servers 0).responses.map Response.handle).Nodup ∧
      (∀ r ∈ (n.servers 0).responses, ∃ a ∈ n.asked 0, ∃ k, ∃ w ∈ (n.clients k).written,
        @Answers _ _ _ firstLabelXtypes steerService steerServer r a w ∧
        (∀ w' ∈ (n.clients k).written, w'.relatedSampleIdentity = r.sample → w' = w) ∧
        ∃ th m, (n.clients k).requests[w.handle.request]? = some th ∧ th.sample = r.sample ∧
          th.received = @DynamicType.rebuilt firstLabelXtypes steerService.requestType a.request ∧
          steerClient.selectMember steerService th.received = some m ∧
          w.path = steerClient.replyPath steerService m.typeName) ∧
      ∀ th ∈ (n.servers 0).threads, (if th.sample % 2 = 0 then 0 else 1) ≠ (0 : Fin 2) →
        (∀ handle, th.pc ≠ .deliver handle) ∧ th.pc ≠ .done := by
  have hrun : (steerNetwork.run steerNetworkStart sharedTopics).map (fun n =>
      (n.servers 0).responses.map fun r => (r.handle, r.client, r.message.2)) =
        some [(1, 100, movedResponse 41)] := by
    decide +kernel
  obtain ⟨n, hn, hresponses⟩ := Option.map_eq_some_iff.mp hrun
  have h := @replies_reach_their_callers (Fin 2) (Fin 2) Nat Nat Nat Nat _ _ _ _ firstLabelXtypes
    zeroDds 3 steerService (fun σ => if σ % 2 = 0 then 0 else 1) (fun _ => steerServer)
    (fun _ => steerClient) n lawful_zeroDds transferable_steerRequest transferable_steerReply
    (steerNetworkStart_reachable.of_run sharedTopics hn) 0
  exact ⟨n, hresponses, h⟩

end Network

end FastDdsSh.Rpc
