import FastDdsSh.Server

/-!
# Where a Server puts requests and finds replies

The configurations of a server leave two logs: the paths registered in `type_to_discriminator_`, of
requests and replies alike, and the reply types registered in `request_reply_`.  A request is put,
and its reply is found, where the last entries for the names in question lead.
-/

namespace FastDdsSh

namespace Server

open KeyedStore

variable {H K S : Type}

/-! ## The logs -/

/-- The configured name, where it is another one than `req`. -/
def otherName (configured : Option String) (req : String) : List String :=
  match configured with
  | some other => if other ≠ req then [other] else []
  | none => []

/-- What an entry registers in `type_to_discriminator_`, in order. -/
def discriminatorWrites (service : Service) (e : RemapEntry) : List (String × String) :=
  let req := registeredName service.requestType e.request
  let rep := registeredName service.replyType e.reply
  (req, e.request) :: (otherName e.config.requestType req).map (·, e.request) ++
    (rep, e.reply) :: (otherName e.config.replyType req).map (·, e.reply)

def replyWrites (service : Service) (e : RemapEntry) : List (String × String) :=
  let req := registeredName service.requestType e.request
  let rep := registeredName service.replyType e.reply
  let reqAlias := (otherName e.config.requestType req).headD ""
  (req, rep) :: (otherName e.config.replyType req).map fun _ => (reqAlias, rep)

theorem addConfig_eq {service : Service} {e : RemapEntry} (h : e.Resolves service)
    (s : KeyedServer H K S) :
    s.addConfig service e.config = some { s with
      typeToDiscriminator := s.typeToDiscriminator.writeAll (discriminatorWrites service e)
      requestReply := s.requestReply.writeAll (replyWrites service e) } := by
  obtain ⟨t, ht, hreq⟩ := registeredName_eq h.request
  obtain ⟨u, hu, hrep⟩ := registeredName_eq h.reply
  unfold addConfig discriminatorWrites replyWrites
  rw [h.remap, hreq, hrep]
  simp only [addRequestType, addReplyType, ht, hu, Option.map_some, Option.bind_some]
  cases hrequest : e.config.requestType with
  | none =>
    cases hreply : e.config.replyType with
    | none => rfl
    | some b =>
      by_cases hb : b ≠ stripped t.name
      · simp [otherName, hb]
        rfl
      · simp [otherName, hb]
        rfl
  | some a =>
    by_cases ha : a ≠ stripped t.name
    · cases hreply : e.config.replyType with
      | none =>
        simp [otherName, ha]
        rfl
      | some b =>
        by_cases hb : b ≠ stripped t.name
        · simp [otherName, ha, hb]
          rfl
        · simp [otherName, ha, hb]
          rfl
    · cases hreply : e.config.replyType with
      | none =>
        simp [otherName, ha]
        rfl
      | some b =>
        by_cases hb : b ≠ stripped t.name
        · simp [otherName, ha, hb]
          rfl
        · simp [otherName, ha, hb]
          rfl

theorem configure_eq {service : Service} {entries : List RemapEntry}
    (h : ∀ e ∈ entries, e.Resolves service) (s : KeyedServer H K S) :
    s.configure service (entries.map RemapEntry.config) = some { s with
      typeToDiscriminator :=
        s.typeToDiscriminator.writeAll (entries.flatMap (discriminatorWrites service))
      requestReply := s.requestReply.writeAll (entries.flatMap (replyWrites service)) } := by
  induction entries generalizing s with
  | nil => rfl
  | cons e entries ih =>
    have hhead := addConfig_eq (h e List.mem_cons_self) s
    have htail := ih (fun e' he' => h e' (List.mem_cons_of_mem _ he'))
    unfold configure at htail ⊢
    rw [List.map_cons, List.foldlM_cons, hhead, Option.bind_eq_bind, Option.bind_some, htail]
    simp only [List.flatMap_cons, writeAll_append]

/-! ## The routes -/

/-- Where the last registration under the name of a request of type `t` leads, the name taken
without a leading `::`; an unregistered name leads to the whole request. -/
def requestRoute (service : Service) (entries : List RemapEntry) (t : DynamicType) :
    List String :=
  memberPath ((lastWrite (entries.flatMap (discriminatorWrites service))
    (stripped t.name)).getD "")

/-- Where the last registration under the reply type leads that was last registered for requests of
type `t`, the name taken as it is; the whole reply if there is none. -/
def replyRoute (service : Service) (entries : List RemapEntry) (t : DynamicType) : List String :=
  match lastWrite (entries.flatMap (replyWrites service)) t.name with
  | some rep =>
      memberPath ((lastWrite (entries.flatMap (discriminatorWrites service)) rep).getD "")
  | none => memberPath service.replyType.name

structure WellRouted (service : Service) (entries : List RemapEntry) (e : RemapEntry)
    (t : DynamicType) : Prop where
  request : requestRoute service entries t = memberPath e.request
  reply : replyRoute service entries t = memberPath e.reply

variable [DecidableEq H] [DecidableEq S] [Xtypes]

/-- After the configurations, a call with any value of the entry's request type builds a request
that has it at the request path, and the message made of a reply is the component of the reply at
the reply path. -/
def Routes (service : Service) (entries : List RemapEntry) (e : RemapEntry) (t : DynamicType)
    (handle : H) (client : K) (sample : S) : Prop :=
  ∀ s : KeyedServer H K S, initial.configure service (entries.map RemapEntry.config) = some s →
    ∀ v, t.admits v = true → ∃ s' request,
      s.callService service t v handle client true (some sample) = some (s', request) ∧
      request.component service.requestType (memberPath e.request) = some (t, v) ∧
      s'.lookupCall sample = some handle ∧
      ∀ reply, service.replyType.admits reply = true → reply.Present (memberPath e.reply) →
        ∃ s'' message, s'.deliverReply service sample handle reply =
            some (s'', some (client, message)) ∧
          reply.component service.replyType (memberPath e.reply) = some message

def configured (service : Service) (entries : List RemapEntry) : KeyedServer H K S :=
  { (initial : KeyedServer H K S) with
    typeToDiscriminator := empty.writeAll (entries.flatMap (discriminatorWrites service))
    requestReply := empty.writeAll (entries.flatMap (replyWrites service)) }

omit [DecidableEq H] [DecidableEq S] [Xtypes] in
theorem configure_initial {service : Service} {entries : List RemapEntry}
    (h : ∀ e ∈ entries, e.Valid service) :
    (initial : KeyedServer H K S).configure service (entries.map RemapEntry.config) =
      some (configured service entries) :=
  configure_eq (fun e he => (h e he).resolves) initial

/-- The request of a call is the default request with the value at the request route. -/
theorem callService_configured (service : Service) (entries : List RemapEntry) (t : DynamicType)
    (v : Value) (handle : H) (client : K) (sample : S) :
    ((configured service entries : KeyedServer H K S).callService service t v handle client true
        (some sample)).map Prod.snd =
      service.requestType.default.assign service.requestType (requestRoute service entries t) t
        v := by
  rw [callService_written, Option.map_map]
  simp only [requestRoute, configured, writeAll_empty]
  exact Option.map_id'

/-- What the call leaves for its reply. -/
theorem callService_state {service : Service} {entries : List RemapEntry} {t : DynamicType}
    {v request : Value} {handle : H} {client : K} {sample : S} {s' : KeyedServer H K S}
    (h : (configured service entries).callService service t v handle client true (some sample) =
      some (s', request)) :
    s'.lookupCall sample = some handle ∧ s'.callhandleClient handle = some client ∧
      memberPath (s'.takeReplyPath service sample).1 = replyRoute service entries t := by
  rw [callService_written] at h
  obtain ⟨r, -, heq⟩ := Option.map_eq_some_iff.mp h
  obtain ⟨rfl, -⟩ := Prod.mk.inj heq
  rw [lookupCall, Container.find_keyedStore, takeReplyPath_path]
  obtain ⟨hsample, hclient, hreply, htable⟩ := issueCall_written
    { (configured service entries : KeyedServer H K S) with
      typeToDiscriminator := ((configured service entries :
        KeyedServer H K S).typeToDiscriminator.subscript (stripped t.name) "").2 }
    t.name handle client sample
  rw [hsample, hclient, hreply, htable]
  refine ⟨set_self _ _ _, set_self _ _ _, ?_⟩
  simp only [configured, replyRoute, writeAll_empty]
  cases lastWrite (entries.flatMap (replyWrites service)) t.name with
  | none => rfl
  | some rep =>
    simp only [set_self, getD_subscript, writeAll_empty]

/-- The two halves of a route, read off the calls that were made. -/
theorem routes_configured_iff {service : Service} {entries : List RemapEntry} {e : RemapEntry}
    {t : DynamicType} {handle : H} {client : K} {sample : S}
    (h : ∀ e ∈ entries, e.Valid service) :
    Routes service entries e t handle client sample ↔
      ∀ v, t.admits v = true → ∃ request,
        service.requestType.default.assign service.requestType
            (requestRoute service entries t) t v =
          some request ∧
        request.component service.requestType (memberPath e.request) = some (t, v) ∧
        ∀ reply, service.replyType.admits reply = true → reply.Present (memberPath e.reply) →
          ∃ message, reply.component service.replyType (replyRoute service entries t) =
              some message ∧
            reply.component service.replyType (memberPath e.reply) = some message := by
  constructor
  · intro hroutes v hv
    obtain ⟨s', request, hcall, hrequest, -, hreply⟩ :=
      hroutes (configured service entries) (configure_initial h) v hv
    obtain ⟨-, hclient, hpath⟩ := callService_state hcall
    refine ⟨request, ?_, hrequest, ?_⟩
    · rw [← callService_configured service entries t v handle client sample, hcall]
      rfl
    · intro reply hadmits hpresent
      obtain ⟨s'', message, hdeliver, hmessage⟩ := hreply reply hadmits hpresent
      refine ⟨message, ?_, hmessage⟩
      have hout := deliverReply_of_client service sample hclient reply
      rw [hdeliver, hpath] at hout
      obtain ⟨m, hm, heq⟩ := Option.map_eq_some_iff.mp hout.symm
      rw [hm]
      simpa using heq
  · intro hcalls s hs v hv
    rw [configure_initial h] at hs
    cases hs
    obtain ⟨request, hassign, hrequest, hreply⟩ := hcalls v hv
    rw [← callService_configured service entries t v handle client sample] at hassign
    obtain ⟨⟨s', request'⟩, hcall, heq⟩ := Option.map_eq_some_iff.mp hassign
    obtain rfl : request' = request := heq
    obtain ⟨hsample, hclient, hpath⟩ := callService_state hcall
    refine ⟨s', request', hcall, hrequest, hsample, ?_⟩
    intro reply hadmits hpresent
    obtain ⟨message, hcomponent, hmessage⟩ := hreply reply hadmits hpresent
    have hout := deliverReply_of_client service sample hclient reply
    rw [hpath, hcomponent] at hout
    obtain ⟨⟨s'', out⟩, hdeliver, hsecond⟩ := Option.map_eq_some_iff.mp hout
    have heq : out = some (client, message) := hsecond
    exact ⟨s'', message, by rw [hdeliver, heq], hmessage⟩

/-- A server routes an entry's requests and replies if the last registrations under their names are
the entry's own, or lead to the same members; and only then, where the two types have two values
each and the reply path is taken by some reply. -/
theorem routes_iff [LawfulXtypes] {service : Service} {entries : List RemapEntry}
    {e : RemapEntry} {t u : DynamicType} (h : ∀ e ∈ entries, e.Valid service)
    (ht : service.requestType.typeAt (memberPath e.request) = some t)
    (hu : service.replyType.typeAt (memberPath e.reply) = some u)
    (handle : H) (client : K) (sample : S) :
    (WellRouted service entries e t → Routes service entries e t handle client sample) ∧
    (TwoValued t → TwoValued u →
      (∃ reply, service.replyType.admits reply = true ∧ reply.Present (memberPath e.reply)) →
      (Routes service entries e t handle client sample ↔ WellRouted service entries e t)) := by
  have hresolved : t.resolve = t := DynamicType.resolve_of_typeAt ht
  have hforward : WellRouted service entries e t →
      Routes service entries e t handle client sample := by
    intro hwell
    rw [routes_configured_iff h, hwell.request, hwell.reply]
    intro v hv
    have hassignable : Xtypes.assignable t t.resolve = true := by
      rw [hresolved]
      exact LawfulXtypes.assignable_self t
    obtain ⟨request, hrequest⟩ :=
      Value.assign_isSome v (DynamicType.component_default ht) hassignable
    obtain ⟨t', ht', hcomponent⟩ := Value.component_assign hrequest
    rw [ht] at ht'
    cases ht'
    refine ⟨request, hrequest, hcomponent, ?_⟩
    intro reply hadmits hpresent
    obtain ⟨w, hw, -⟩ := DynamicType.component_of_present hadmits hpresent hu
    exact ⟨(u, w), hw, hw⟩
  refine ⟨hforward, ?_⟩
  rintro ⟨v₁, v₂, hv₁, hv₂, hv⟩ ⟨w₁, w₂, hw₁, hw₂, hw⟩ ⟨reply, hreply, hpresent⟩
  refine ⟨?_, hforward⟩
  rw [routes_configured_iff h]
  intro hcalls
  obtain ⟨r₁, hr₁, hc₁, hreplies⟩ := hcalls v₁ hv₁
  obtain ⟨r₂, hr₂, hc₂, -⟩ := hcalls v₂ hv₂
  refine ⟨DynamicType.eq_of_assign hv hresolved hr₁ hr₂ hc₁ hc₂, ?_⟩
  refine DynamicType.eq_of_component hreply hpresent hu hw₁ hw₂ hw ?_
  intro r hr hrp
  obtain ⟨message, hroute, hmessage⟩ := hreplies r hr hrp
  rw [hroute, hmessage]

/-! ## Examples -/

omit [Xtypes]

def point : DynamicType := .structType "Point" [("x", .leafType "int32_t" .int32)]

def ack : DynamicType := .structType "Ack" [("ok", .leafType "bool" .boolean)]

def pointService : Service where
  requestType := .structType "Request" [("in", point), ("out", point)]
  replyType := .structType "Reply" [("out", point), ("ack", ack)]

def pointEntry (reply : String) : RemapEntry where
  config := ⟨some ⟨none, some "Request.in", some reply⟩, none, none, none⟩
  request := "Request.in"
  reply := reply

theorem pointEntry_valid {reply : String} (m : String) {t : DynamicType}
    (hfields : pathFields reply = ["Reply", m])
    (hm : [("out", point), ("ack", ack)].lookup m = some t) (hne : m ≠ "") :
    (pointEntry reply).Valid pointService where
  remap := rfl
  request := ⟨["in"], show pathFields "Request.in" = ["Request", "in"] by decide, by decide, rfl⟩
  reply := by
    refine ⟨[m], hfields, by simpa using Ne.symm hne, ?_⟩
    simp [DynamicType.typeAt, DynamicType.resolve, pointService, DynamicType.member,
      DynamicType.members, hm]

/-- A reply of another type than the request: the entry is routed, and its types have two values. -/
theorem routes_pointEntry :
    @Routes Nat Nat Nat _ _ firstLabelXtypes pointService [pointEntry "Reply.ack"]
      (pointEntry "Reply.ack") point 1 2 3 ∧
    (@Routes Nat Nat Nat _ _ firstLabelXtypes pointService [pointEntry "Reply.ack"]
        (pointEntry "Reply.ack") point 1 2 3 ↔
      WellRouted pointService [pointEntry "Reply.ack"] (pointEntry "Reply.ack") point) := by
  have hvalid : ∀ e ∈ [pointEntry "Reply.ack"], e.Valid pointService := by
    intro e he
    obtain rfl := List.mem_singleton.mp he
    exact pointEntry_valid "ack" (t := ack) (by decide) rfl (by decide)
  have h := @routes_iff Nat Nat Nat _ _ firstLabelXtypes lawful_firstLabelXtypes pointService
    [pointEntry "Reply.ack"] (pointEntry "Reply.ack") point ack hvalid rfl rfl 1 2 3
  refine ⟨h.1 ⟨by decide, by decide⟩, h.2 ?_ ?_ ?_⟩
  · exact ⟨.struct [("x", .leaf (.integral 0))], .struct [("x", .leaf (.integral 1))],
      by decide, by decide, by simp⟩
  · exact ⟨.struct [("ok", .leaf (.integral 0))], .struct [("ok", .leaf (.integral 1))],
      by decide, by decide, by simp⟩
  · exact ⟨.struct [("out", .struct [("x", .leaf (.integral 0))]),
      ("ack", .struct [("ok", .leaf (.integral 0))])], by decide, _, rfl, trivial⟩

/-- A reply of the type of the request: its registration replaces the request's, and the value of a
call goes to the member named like the reply's. -/
theorem not_routes_pointEntry :
    (∀ e ∈ [pointEntry "Reply.out"], e.Valid pointService) ∧
    ¬ @Routes Nat Nat Nat _ _ firstLabelXtypes pointService [pointEntry "Reply.out"]
      (pointEntry "Reply.out") point 1 2 3 := by
  constructor
  · intro e he
    obtain rfl := List.mem_singleton.mp he
    exact pointEntry_valid "out" (t := point) (by decide) rfl (by decide)
  · intro hroutes
    obtain ⟨s', request, hcall, hrequest, -⟩ := hroutes _ rfl
      (.struct [("x", .leaf (.integral 7))]) (by decide)
    have hbuilt := congrArg (Option.map Prod.snd) hcall
    have heq : some (Value.struct [("in", .struct [("x", .leaf (.integral 0))]),
        ("out", .struct [("x", .leaf (.integral 7))])]) = some request := hbuilt
    cases heq
    have hin := congrArg (Option.map Prod.snd) hrequest
    have hfields : some (Value.struct [("x", .leaf (.integral 0))]) =
        some (Value.struct [("x", .leaf (.integral 7))]) := hin
    simp at hfields

end Server

end FastDdsSh
