import FastDdsSh.Client.Dispatch

/-!
# Which callback gets a request and where its response goes

The configurations of a client leave logs as those of a server do, and navigation trees besides.  A
request goes to the callback last registered for the type of the first node, in the order of the
search, that is present in it and of a registered type; its response goes where the reply type leads
that was last registered for that node.
-/

namespace FastDdsSh

namespace Client

open KeyedStore NavigationNode

variable {S Cb : Type}

/-! ## The logs -/

def requestName (service : Service) (e : RemapEntry) : String :=
  registeredName service.requestType e.request

def replyName (service : Service) (e : RemapEntry) : String :=
  registeredName service.replyType e.reply

/-- A reply is refused if the request's name is empty; its type is registered all the same. -/
def replyWrites (service : Service) (e : RemapEntry) : List (String × String) :=
  if requestName service e = "" then [] else [(requestName service e, replyName service e)]

def treeWrites (service : Service) (e : RemapEntry) : List (DynamicType × String) :=
  (service.requestType, e.request) ::
    if requestName service e = "" then [] else [(service.replyType, e.reply)]

def registerNames (service : Service) (c : Client S Cb) (e : RemapEntry × Cb) : Client S Cb :=
  { c with
    typeToDiscriminator := c.typeToDiscriminator.writeAll
      [(requestName service e.1, e.1.request), (replyName service e.1, e.1.reply)]
    memberTypes := c.memberTypes ++ [requestName service e.1, replyName service e.1]
    callbacks := c.callbacks.writeAll [(requestName service e.1, e.2)]
    requestReply := c.requestReply.writeAll (replyWrites service e.1) }

def applyEntry (service : Service) (c : Client S Cb) (e : RemapEntry × Cb) : Client S Cb :=
  (treeWrites service e.1).foldl (fun c w => c.addMember w.1 w.2) (registerNames service c e)

theorem addConfig_eq {service : Service} {e : RemapEntry × Cb} (h : e.1.Resolves service)
    (c : Client S Cb) :
    addConfig service e.2 c e.1.config =
      some (applyEntry service c e, decide (requestName service e.1 ≠ "")) := by
  obtain ⟨t, ht, hreq⟩ := registeredName_eq h.request
  obtain ⟨u, hu, hrep⟩ := registeredName_eq h.reply
  have hkeys : addRemap service e.2 c e.1.config.remap =
      some (applyEntry service c e,
        if requestName service e.1 = "" then .refused else .callbackSet true) := by
    rw [h.remap]
    unfold addRemap addKeys applyEntry registerNames treeWrites replyWrites requestName replyName
    rw [hreq, hrep]
    simp only [addRequestKey, addReplyKey, addRequestConfig, addReplyConfig, ht, hu,
      Option.map_some, Option.bind_some]
    by_cases hempty : stripped t.name = ""
    · simp only [hempty, addMember, addMemberType, writeAll, if_true, Bool.false_eq_true, if_false,
        List.foldl_cons, List.foldl_nil, List.append_assoc, List.cons_append, List.nil_append]
    · simp only [hempty, addMember, addMemberType, writeAll, if_true, if_false, List.foldl_cons,
        List.foldl_nil, List.append_assoc, List.cons_append, List.nil_append]
  unfold addConfig
  rw [hkeys, Option.bind_some]
  by_cases hempty : requestName service e.1 = ""
  · rw [if_pos hempty, decide_eq_false (not_not.mpr hempty)]
  · rw [if_neg hempty, decide_eq_true hempty]

def configured (service : Service) (entries : List (RemapEntry × Cb)) : Client S Cb :=
  entries.foldl (applyEntry service) initial

def configsOf (entries : List (RemapEntry × Cb)) : List (ServiceConfig × Cb) :=
  entries.map fun e => (e.1.config, e.2)

theorem configure_eq {service : Service} {entries : List (RemapEntry × Cb)}
    (h : ∀ e ∈ entries, e.1.Resolves service) (c : Client S Cb) :
    c.configure service (configsOf entries) = some (entries.foldl (applyEntry service) c) := by
  induction entries generalizing c with
  | nil => rfl
  | cons e entries ih =>
    have hhead := addConfig_eq (h e List.mem_cons_self) c
    have htail := ih fun e' he' => h e' (List.mem_cons_of_mem _ he')
    unfold configure configsOf at htail ⊢
    rw [List.map_cons, List.foldlM_cons]
    dsimp only
    rw [hhead, Option.map_some, Option.bind_eq_bind, Option.bind_some, htail, List.foldl_cons]

theorem configure_initial {service : Service} {entries : List (RemapEntry × Cb)}
    (h : ∀ e ∈ entries, e.1.Valid service) :
    (initial : Client S Cb).configure service (configsOf entries) =
      some (configured service entries) :=
  configure_eq (fun e he => (h e he).resolves) initial

/-- Every table but the trees. -/
theorem foldl_addMember_tables (writes : List (DynamicType × String)) (c : Client S Cb) :
    let c' := writes.foldl (fun c w => c.addMember w.1 w.2) c
    c'.typeToDiscriminator = c.typeToDiscriminator ∧ c'.memberTypes = c.memberTypes ∧
      c'.callbacks = c.callbacks ∧ c'.requestReply = c.requestReply ∧
      c'.replyIdType = c.replyIdType := by
  induction writes generalizing c with
  | nil => exact ⟨rfl, rfl, rfl, rfl, rfl⟩
  | cons w writes ih => exact ih (c.addMember w.1 w.2)

/-- The tables hold what the logs of the entries wrote last. -/
theorem configured_tables (service : Service) (entries : List (RemapEntry × Cb)) :
    let c : Client S Cb := configured service entries
    c.typeToDiscriminator = empty.writeAll (entries.flatMap fun e =>
        [(requestName service e.1, e.1.request), (replyName service e.1, e.1.reply)]) ∧
      c.memberTypes = (entries.flatMap fun e =>
        [requestName service e.1, replyName service e.1]) ∧
      c.callbacks = empty.writeAll (entries.map fun e => (requestName service e.1, e.2)) ∧
      c.requestReply = empty.writeAll (entries.flatMap fun e => replyWrites service e.1) ∧
      c.replyIdType = empty := by
  induction entries using List.reverseRecOn with
  | nil => exact ⟨rfl, rfl, rfl, rfl, rfl⟩
  | append_singleton entries e ih =>
    obtain ⟨hdisc, htypes, hcallbacks, hreplies, hid⟩ := ih
    have heq : (configured service (entries ++ [e]) : Client S Cb) =
        applyEntry service (configured service entries) e := by
      unfold configured
      rw [List.foldl_append, List.foldl_cons, List.foldl_nil]
    obtain ⟨h₁, h₂, h₃, h₄, h₅⟩ := foldl_addMember_tables (treeWrites service e.1)
      (registerNames service (configured service entries : Client S Cb) e)
    rw [heq, applyEntry]
    dsimp only
    rw [h₁, h₂, h₃, h₄, h₅]
    refine ⟨?_, ?_, ?_, ?_, ?_⟩
    · rw [registerNames, hdisc, List.flatMap_append, writeAll_append, List.flatMap_singleton]
    · rw [registerNames, htypes, List.flatMap_append, List.flatMap_singleton]
    · rw [registerNames, hcallbacks, List.map_append, writeAll_append, List.map_singleton]
    · rw [registerNames, hreplies, List.flatMap_append, writeAll_append, List.flatMap_singleton]
    · rw [registerNames, hid]

/-! ## The names in the trees -/

def Clean (keys : List String) : Prop :=
  ∀ k ∈ keys, Undotted k ∧ k ≠ ""

def TreesClean (c : Client S Cb) : Prop :=
  ∀ name root, c.memberTree name = some root → root.Every Clean ∧ Undotted root.typeName

theorem treesClean_addMember {c : Client S Cb} (h : c.TreesClean) {t : DynamicType} {path : String}
    (hpath : t.ValidPath path) : (c.addMember t path).TreesClean := by
  obtain ⟨ms, hfields, hne, -⟩ := hpath
  have hpieces : ∀ m ∈ (pathFields path).drop 1, Undotted m ∧ m ≠ "" := by
    intro m hm
    refine ⟨undotted_of_mem_pathFields (List.mem_of_mem_drop hm), ?_⟩
    rw [hfields, List.drop_succ_cons, List.drop_zero] at hm
    exact fun heq => hne (heq ▸ hm)
  have hname : Undotted t.name := by
    apply undotted_of_mem_pathFields (p := path)
    rw [hfields]
    exact List.mem_cons_self
  have hnil : Clean [] := fun k hk => by cases hk
  have hinsert : ∀ m ∈ (pathFields path).drop 1, ∀ keys, Clean keys → Clean (insertKey m keys) := by
    intro m hm keys hkeys k hk
    rcases mem_insertKey.mp hk with rfl | hk
    · exact hpieces k hm
    · exact hkeys k hk
  intro name root hroot
  by_cases heq : name = t.name
  · have hgrown : some (((c.memberTree t.name).getD .fresh).fillRootNode t path) = some root := by
      rw [← hroot, heq]
      exact (KeyedStore.set_self _ _ _).symm
    have hold : ((c.memberTree t.name).getD .fresh).Every Clean ∧
        Undotted ((c.memberTree t.name).getD .fresh).typeName := by
      cases htree : c.memberTree t.name with
      | none => exact ⟨every_fresh hnil, show Undotted "" by unfold Undotted; decide⟩
      | some old => exact h _ old htree
    generalize (c.memberTree t.name).getD .fresh = old at hgrown hold
    obtain rfl : old.fillRootNode t path = root := by simpa using hgrown
    refine ⟨every_fillRootNode hnil hinsert t hold.1, ?_⟩
    rcases typeName_fillRootNode old t path with hsame | hsame
    · rw [hsame]
      exact hold.2
    · rw [hsame]
      exact hname
  · have hsame : c.memberTree name = some root := by
      rw [← hroot]
      exact (KeyedStore.set_ne _ _ heq).symm
    exact h name root hsame

theorem treesClean_configured {service : Service} {entries : List (RemapEntry × Cb)}
    (h : ∀ e ∈ entries, e.1.Valid service) :
    (configured service entries : Client S Cb).TreesClean := by
  induction entries using List.reverseRecOn with
  | nil =>
    intro name root hroot
    cases hroot
  | append_singleton entries e ih =>
    have hclean := ih fun e' he' => h e' (List.mem_append_left _ he')
    have hvalid : e.1.Valid service := h e (by simp)
    unfold configured at hclean ⊢
    rw [List.foldl_append, List.foldl_cons, List.foldl_nil]
    generalize entries.foldl (applyEntry service) initial = c at hclean ⊢
    have hnames : (registerNames service c e).TreesClean := by
      intro name root hroot
      exact hclean name root hroot
    have hrequest := treesClean_addMember hnames hvalid.request
    unfold applyEntry treeWrites
    rw [List.foldl_cons]
    split
    · exact hrequest
    · exact treesClean_addMember hrequest hvalid.reply

/-! ## The selected node -/

variable [DecidableEq S] [Xtypes]

/-- The first node present in the request that has a registered type; without a tree, what the name
of the request type leads to. -/
def FirstVisit (service : Service) (c : Client S Cb) (received : Value) (x : Visit) : Prop :=
  match c.memberTree service.requestType.resolve.name with
  | none =>
      x.chain = memberPath service.requestType.resolve.name ∧
        x.typeName = service.requestType.resolve.name ∧
        ∃ u w, received.component service.requestType x.chain = some (u, w) ∧ x.dataName = u.name
  | some root => root.First c.memberTypes service.requestType.resolve received x

omit [DecidableEq S] in
theorem component_of_firstVisit {service : Service} {c : Client S Cb} {received : Value}
    {x : Visit} (h : c.FirstVisit service received x) :
    ∃ u w, received.component service.requestType x.chain = some (u, w) ∧ x.dataName = u.name := by
  unfold FirstVisit at h
  cases hroot : c.memberTree service.requestType.resolve.name with
  | none =>
    rw [hroot] at h
    exact h.2.2
  | some root =>
    rw [hroot] at h
    obtain ⟨-, u, w, -, -, hcomponent, -, hdata⟩ := h.visited
    rw [component_resolve] at hcomponent
    exact ⟨u, w, hcomponent, hdata⟩

omit [DecidableEq S] in
/-- The node that is selected is the first visit, and its path leads there. -/
theorem selectMember_eq_some {service : Service} {c : Client S Cb} (hsorted : c.TreesSorted)
    (hclean : c.TreesClean) {received : Value}
    (hadmits : service.requestType.admits received = true) {member : Selected}
    (h : c.selectMember service received = some member)
    (hcomponent : ∃ message, received.component service.requestType (memberPath member.path) =
      some message) :
    ∃ x, c.FirstVisit service received x ∧ memberPath member.path = x.chain ∧
      member.typeName = x.typeName := by
  unfold selectMember getDiscriminator at h
  unfold FirstVisit
  cases hroot : c.memberTree service.requestType.resolve.name with
  | none =>
    rw [hroot] at h
    cases h
    obtain ⟨⟨u, w⟩, hmessage⟩ := hcomponent
    exact ⟨⟨_, _, u.name⟩, ⟨rfl, rfl, u, w, hmessage, rfl⟩, rfl, rfl⟩
  | some root =>
    rw [hroot] at h
    obtain ⟨found, hfound, rfl⟩ := Option.map_eq_some_iff.mp h
    rw [← DynamicType.admits_resolve] at hadmits
    obtain ⟨x, hx, rfl⟩ :=
      (discriminator_eq_some_iff (hsorted _ root hroot) hadmits c.memberTypes found).mp hfound
    obtain ⟨n, u, w, hdescend, -⟩ := hx.visited
    refine ⟨x, hx, ?_, rfl⟩
    apply memberPath_getPath (hclean _ root hroot).2
    intro m hm
    obtain ⟨keys, hkeys, hmem⟩ := mem_of_descend (hclean _ root hroot).1 hdescend hm
    exact hkeys m hmem

omit [DecidableEq S] in
theorem selectMember_of_firstVisit {service : Service} {c : Client S Cb}
    (hsorted : c.TreesSorted) (hclean : c.TreesClean) {received : Value}
    (hadmits : service.requestType.admits received = true) {x : Visit}
    (h : c.FirstVisit service received x) :
    ∃ member, c.selectMember service received = some member ∧
      memberPath member.path = x.chain ∧ member.typeName = x.typeName := by
  unfold FirstVisit at h
  unfold selectMember getDiscriminator
  cases hroot : c.memberTree service.requestType.resolve.name with
  | none =>
    rw [hroot] at h
    obtain ⟨hchain, htype, -⟩ := h
    exact ⟨_, rfl, hchain.symm, htype.symm⟩
  | some root =>
    rw [hroot] at h
    rw [← DynamicType.admits_resolve] at hadmits
    have hfound := (discriminator_eq_some_iff (hsorted _ root hroot) hadmits c.memberTypes
      x.found).mpr ⟨x, h, rfl⟩
    refine ⟨⟨getPath root.typeName x.chain, x.typeName⟩, ?_, ?_, rfl⟩
    · show Option.map _ (root.discriminator c.memberTypes service.requestType.resolve received) = _
      rw [hfound]
      rfl
    · obtain ⟨n, u, w, hdescend, -⟩ := h.visited
      apply memberPath_getPath (hclean _ root hroot).2
      intro m hm
      obtain ⟨keys, hkeys, hmem⟩ := mem_of_descend (hclean _ root hroot).1 hdescend hm
      exact hkeys m hmem

/-! ## The routes -/

/-- After the configurations, the request invokes the entry's callback with the component at the
entry's request path, and a response of type `u` that is given later for the handle is written as
the component at the entry's reply path, whatever happens to other requests in between. -/
def Serves (service : Service) (entries : List (RemapEntry × Cb)) (e : RemapEntry × Cb)
    (u : DynamicType) (sample : S) (received : Value) : Prop :=
  ∀ c : Client S Cb, initial.configure service (configsOf entries) = some c →
    ∃ c' call, c.receive service sample received = .done c' (some call) ∧
      call.callback = e.2 ∧ memberPath call.path = memberPath e.1.request ∧
      received.component service.requestType (memberPath e.1.request) =
        some (call.messageType, call.message) ∧
      ∀ ops : List (Operation S), (∀ op ∈ ops, op.sample ≠ call.handle) →
        ∀ response, u.admits response = true → ∃ c'' written,
          (ops.foldl (perform service) c').receiveResponse service call.handle u response =
            some (c'', written) ∧
          written.relatedSampleIdentity = sample ∧
          written.reply.component service.replyType (memberPath e.1.reply) = some (u, response)

/-- Nothing that was registered is in the way of the entry: the first visit is the one at its
request path, the last callback registered for the type there is its own, and the reply path
registered for the node leads to the same members as its own. -/
structure WellServed (service : Service) (c : Client S Cb) (e : RemapEntry × Cb)
    (received : Value) (x : Visit) : Prop where
  first : c.FirstVisit service received x
  request : x.chain = memberPath e.1.request
  callback : c.callbacks x.dataName = some e.2
  reply : memberPath (c.replyPath service x.typeName) = memberPath e.1.reply

theorem receive_of_select {service : Service} {c : Client S Cb} {received w : Value}
    {member : Selected} {t : DynamicType} {callback : Cb}
    (hmember : c.selectMember service received = some member)
    (hcomponent : received.component service.requestType (memberPath member.path) = some (t, w))
    (hcallback : c.callbacks t.name = some callback) (sample : S) :
    c.receive service sample received = .done (c.rememberReply sample member.typeName)
      (some ⟨callback, member.path, t, w, sample⟩) := by
  unfold receive
  rw [hmember]
  dsimp only [invocation]
  simp only [hcomponent, Option.map_some, rememberReply_callbacks, hcallback]

theorem receive_eq_done {service : Service} {c c' : Client S Cb} {sample : S} {received : Value}
    {call : Invocation S Cb} (h : c.receive service sample received = .done c' (some call)) :
    ∃ member, c.selectMember service received = some member ∧
      received.component service.requestType (memberPath member.path) =
        some (call.messageType, call.message) ∧
      c.callbacks call.messageType.name = some call.callback ∧ call.path = member.path ∧
      call.handle = sample ∧ c' = c.rememberReply sample member.typeName := by
  unfold receive at h
  cases hmember : c.selectMember service received with
  | none =>
    rw [hmember] at h
    cases h
  | some member =>
    rw [hmember] at h
    dsimp only at h
    refine ⟨member, rfl, ?_⟩
    cases hinvocation : (c.rememberReply sample member.typeName).invocation service sample received
        member.path with
    | none =>
      rw [hinvocation] at h
      cases h
    | some invoked =>
      rw [hinvocation] at h
      obtain ⟨rfl, rfl⟩ : _ = c' ∧ invoked = some call := by simpa using h
      obtain ⟨⟨t, w⟩, hcomponent, hcall⟩ := Option.map_eq_some_iff.mp hinvocation
      rw [rememberReply_callbacks] at hcall
      obtain ⟨callback, hcallback, rfl⟩ := Option.map_eq_some_iff.mp hcall
      exact ⟨hcomponent, hcallback, rfl, rfl, rfl⟩

/-- A request of any value is served by an entry if nothing registered is in the way of the entry;
and only then, where the type at the reply path has two values. -/
theorem serves_iff [LawfulXtypes] {service : Service} {entries : List (RemapEntry × Cb)}
    {e : RemapEntry × Cb} {u : DynamicType} {received : Value}
    (h : ∀ e ∈ entries, e.1.Valid service)
    (hu : service.replyType.typeAt (memberPath e.1.reply) = some u)
    (hreceived : service.requestType.admits received = true) (sample : S) :
    ((∃ x, WellServed service (configured service entries : Client S Cb) e received x) →
      Serves service entries e u sample received) ∧
    (TwoValued u →
      (Serves service entries e u sample received ↔
        ∃ x, WellServed service (configured service entries : Client S Cb) e received x)) := by
  have hconfigure : (initial : Client S Cb).configure service (configsOf entries) =
      some (configured service entries) := configure_initial h
  have hsorted := treesSorted_configure hconfigure
  have hclean : (configured service entries : Client S Cb).TreesClean := treesClean_configured h
  have hresolved : u.resolve = u := DynamicType.resolve_of_typeAt hu
  have hnew : (configured service entries : Client S Cb).replyIdType sample = none := by
    rw [(configured_tables service entries).2.2.2.2]
    rfl
  have hforward : (∃ x, WellServed service (configured service entries : Client S Cb) e received
      x) → Serves service entries e u sample received := by
    rintro ⟨x, hx⟩ c hc
    rw [hconfigure] at hc
    cases hc
    obtain ⟨member, hmember, hpath, htype⟩ :=
      selectMember_of_firstVisit hsorted hclean hreceived hx.first
    obtain ⟨t, w, hcomponent, hdata⟩ := component_of_firstVisit hx.first
    have hcallback := hx.callback
    rw [hdata] at hcallback
    have hmessage := hcomponent
    rw [← hpath] at hmessage
    refine ⟨_, _, receive_of_select hmember hmessage hcallback sample, rfl, ?_, ?_, ?_⟩
    · rw [hpath]
      exact hx.request
    · rw [← hx.request]
      exact hcomponent
    · intro ops hops response hresponse
      have hroute := rememberedPath_performAll_ne service
        ((configured service entries : Client S Cb).rememberReply sample member.typeName) hops
      rw [rememberedPath_rememberReply hnew] at hroute
      have hassignable : Xtypes.assignable u u.resolve = true := by
        rw [hresolved]
        exact LawfulXtypes.assignable_self u
      obtain ⟨reply, hreply⟩ :=
        Value.assign_isSome response (DynamicType.component_default hu) hassignable
      obtain ⟨u', hu', hstored⟩ := Value.component_assign hreply
      rw [hu] at hu'
      cases hu'
      rw [← hx.reply, ← htype, ← hroute] at hreply
      exact ⟨_, _, receiveResponse_of_assign hreply, rfl, hstored⟩
  refine ⟨hforward, ?_⟩
  rintro ⟨v₁, v₂, hv₁, hv₂, hne⟩
  refine ⟨?_, hforward⟩
  intro hserves
  obtain ⟨c', call, hreceive, hcallback, hpath, hmessage, hresponses⟩ := hserves _ hconfigure
  obtain ⟨member, hmember, hcomponent, hregistered, hcallpath, hhandle, rfl⟩ :=
    receive_eq_done hreceive
  obtain ⟨x, hx, hchain, htype⟩ :=
    selectMember_eq_some hsorted hclean hreceived hmember ⟨_, hcomponent⟩
  obtain ⟨t, w, hcomponent', hdata⟩ := component_of_firstVisit hx
  rw [hchain, hcomponent', Option.some_inj] at hcomponent
  have htype' : t = call.messageType := congrArg Prod.fst hcomponent
  refine ⟨x, hx, ?_, ?_, ?_⟩
  · rw [← hchain, ← hcallpath]
    exact hpath
  · rw [hdata, htype', ← hcallback]
    exact hregistered
  · have hanswer : ∀ v, u.admits v = true → ∃ r,
        service.replyType.default.assign service.replyType
          (memberPath ((configured service entries : Client S Cb).replyPath service x.typeName))
          u v = some r ∧
        r.component service.replyType (memberPath e.1.reply) = some (u, v) := by
      intro v hv
      obtain ⟨c'', written, hwritten, -, hstored⟩ :=
        hresponses [] (fun op hop => by cases hop) v hv
      rw [List.foldl_nil, receiveResponse_eq, hhandle, rememberedPath_rememberReply hnew,
        htype] at hwritten
      obtain ⟨reply, hreply, heq⟩ := Option.map_eq_some_iff.mp hwritten
      obtain ⟨-, rfl⟩ := Prod.mk.inj heq
      exact ⟨reply, hreply, hstored⟩
    obtain ⟨r₁, hr₁, hc₁⟩ := hanswer v₁ hv₁
    obtain ⟨r₂, hr₂, hc₂⟩ := hanswer v₂ hv₂
    exact DynamicType.eq_of_assign hne hresolved hr₁ hr₂ hc₁ hc₂

/-! ## Examples -/

omit [DecidableEq S] [Xtypes]

def wrapper : DynamicType :=
  .structType "Wrapper" [("x", .structType "Point" [("x", .leafType "int32_t" .int32)])]

/-- The component of a request lies in a member that has the type of a component of the reply. -/
def wrapperService : Service where
  requestType := .structType "Request" [("data", wrapper)]
  replyType := .structType "Reply"
    [("data", wrapper), ("ack", .structType "Ack" [("ok", .leafType "bool" .boolean)])]

def wrapperEntry (reply : String) : RemapEntry × Nat :=
  (⟨⟨some ⟨none, some "Request.data.x", some reply⟩, none, none, none⟩, "Request.data.x", reply⟩, 4)

def wrapperRequest : Value :=
  .struct [("data", .struct [("x", .struct [("x", .leaf (.integral 5))])])]

theorem wrapperEntry_valid {reply : String} (m : String)
    (hfields : pathFields reply = ["Reply", m])
    (hm : (wrapperService.replyType.typeAt [m]).isSome = true) (hne : m ≠ "") :
    (wrapperEntry reply).1.Valid wrapperService where
  remap := rfl
  request := ⟨["data", "x"],
    show pathFields "Request.data.x" = ["Request", "data", "x"] by decide, by decide, rfl⟩
  reply := ⟨[m], hfields, by simpa using Ne.symm hne, hm⟩

def wrapperTree : NavigationNode :=
  .node "" "Request" [("data", .node "data" "Wrapper" [("x", .node "x" "Point" [])])]

theorem memberTree_wrapperEntry :
    (configured wrapperService [wrapperEntry "Reply.ack"] : Client Nat Nat).memberTree "Request" =
      some wrapperTree :=
  rfl

/-- A reply of a type that does not occur on the request path. -/
theorem serves_wrapperEntry :
    @Serves Nat Nat _ firstLabelXtypes wrapperService [wrapperEntry "Reply.ack"]
      (wrapperEntry "Reply.ack") (.structType "Ack" [("ok", .leafType "bool" .boolean)]) 7
      wrapperRequest ∧
    (@Serves Nat Nat _ firstLabelXtypes wrapperService [wrapperEntry "Reply.ack"]
      (wrapperEntry "Reply.ack") (.structType "Ack" [("ok", .leafType "bool" .boolean)]) 7
      wrapperRequest ↔
      ∃ x, @WellServed Nat Nat firstLabelXtypes wrapperService
        (configured wrapperService [wrapperEntry "Reply.ack"]) (wrapperEntry "Reply.ack")
        wrapperRequest x) := by
  have hvalid : ∀ e ∈ [wrapperEntry "Reply.ack"], e.1.Valid wrapperService := by
    intro e he
    obtain rfl := List.mem_singleton.mp he
    exact wrapperEntry_valid "ack" (by decide) rfl (by decide)
  have h := @serves_iff Nat Nat _ firstLabelXtypes lawful_firstLabelXtypes wrapperService
    [wrapperEntry "Reply.ack"] (wrapperEntry "Reply.ack") _ wrapperRequest hvalid rfl
    (by decide) 7
  let _ : Xtypes := firstLabelXtypes
  refine ⟨h.1 ?_, h.2 ?_⟩
  · have hconfigure : (initial : Client Nat Nat).configure wrapperService
        (configsOf [wrapperEntry "Reply.ack"]) = some (configured wrapperService _) :=
      configure_initial hvalid
    have hsorted :=
      treesSorted_configure hconfigure "Request" wrapperTree memberTree_wrapperEntry
    have hadmits : wrapperService.requestType.admits wrapperRequest = true := by decide
    obtain ⟨x, hx, hfound⟩ := (@discriminator_eq_some_iff firstLabelXtypes _ _ _ hsorted hadmits
      ["Point", "Ack"] (["data", "x"], "Point")).mp rfl
    have hchain : x.chain = ["data", "x"] := congrArg Prod.fst hfound
    have htype : x.typeName = "Point" := congrArg Prod.snd hfound
    have hdata : x.dataName = "Point" := by
      obtain ⟨-, u, w, -, -, hcomponent, -, hname⟩ := hx.visited
      rw [hchain] at hcomponent
      rw [hname]
      exact (congrArg (fun c => c.elim "" fun p => p.1.name) hcomponent).symm
    refine ⟨x, hx, ?_, ?_, ?_⟩
    · rw [hchain]
      decide
    · rw [hdata]
      rfl
    · rw [htype]
      decide
  · exact ⟨.struct [("ok", .leaf (.integral 0))], .struct [("ok", .leaf (.integral 1))],
      by decide, by decide, by simp⟩

/-- A reply of the type of the member on the way: the request stops at that member, for whose type
there is no callback. -/
theorem not_serves_wrapperEntry :
    (∀ e ∈ [wrapperEntry "Reply.data"], e.1.Valid wrapperService) ∧
    wrapperService.requestType.admits wrapperRequest = true ∧
    wrapperRequest.Present ["data", "x"] ∧
    ¬ @Serves Nat Nat _ firstLabelXtypes wrapperService [wrapperEntry "Reply.data"]
      (wrapperEntry "Reply.data") wrapper 7 wrapperRequest := by
  have hvalid : ∀ e ∈ [wrapperEntry "Reply.data"], e.1.Valid wrapperService := by
    intro e he
    obtain rfl := List.mem_singleton.mp he
    exact wrapperEntry_valid "data" (by decide) rfl (by decide)
  refine ⟨hvalid, by decide, ⟨_, rfl, _, rfl, trivial⟩, ?_⟩
  · intro hserves
    obtain ⟨c', call, hreceive, -⟩ :=
      hserves (configured wrapperService [wrapperEntry "Reply.data"]) (configure_initial hvalid)
    obtain ⟨member, hmember, hcomponent, hcallback, -⟩ :=
      @receive_eq_done _ _ _ firstLabelXtypes _ _ _ _ _ _ hreceive
    have hselected : (configured wrapperService [wrapperEntry "Reply.data"] :
        Client Nat Nat).selectMember wrapperService wrapperRequest =
          some ⟨"Request.data", "Wrapper"⟩ := by
      decide +kernel
    rw [hselected, Option.some_inj] at hmember
    rw [← hmember] at hcomponent
    have htype : "Wrapper" = call.messageType.name := by
      have hname := congrArg (fun c => c.elim "" fun p => p.1.name) hcomponent
      exact hname
    have hnone : (configured wrapperService [wrapperEntry "Reply.data"] :
        Client Nat Nat).callbacks "Wrapper" = none := rfl
    rw [← htype, hnone] at hcallback
    cases hcallback

end Client

end FastDdsSh
