import FastDdsSh.SystemHandle

/-!
# Constructors that throw

`Subscriber`, `Client` and `Server` start their cleaner thread in the initialiser list, and only
their destructors join it.  When the body of a constructor throws, the destructor does not run, and
the member `cleaner_thread_` is destroyed while its thread is still joinable, which ends the
process.
-/

namespace FastDdsSh

open Construction Transition

/-! ## What the bodies leave alone -/

def Context.CleanerRuns (c : Context) : Prop :=
  ∃ id, c.cleanerThread = some id ∧ id ∈ c.joinable

section Bodies

variable {α β : Type}

theorem onParticipant_keeps (call : EStateM Thrown Participant α) :
    Keeps Context.CleanerRuns (Body.onParticipant call) := by
  intro c hc
  unfold Body.onParticipant
  cases call c.participant with
  | ok a p => exact hc
  | error e p => exact hc

theorem callCreateBuilder_keeps (t : DynamicType) :
    Keeps Context.CleanerRuns (callCreateBuilder t) := by
  unfold callCreateBuilder
  apply Keeps.bind Keeps.get
  intro c
  exact Keeps.bind (Keeps.modify fun _ hc => hc) fun _ => Keeps.pure _

theorem registerType_keeps (a : TypeAnswers) (builder : Option Builder) (topicName : String)
    (t : DynamicType) : Keeps Context.CleanerRuns (registerType a builder topicName t) := by
  cases builder with
  | none => exact Keeps.throw _
  | some builder => exact onParticipant_keeps _

theorem requireParticipant_keeps (what : String) :
    Keeps Context.CleanerRuns (requireParticipant what) := by
  unfold requireParticipant
  apply Keeps.bind Keeps.get
  intro c
  exact Keeps.ite (Keeps.throw _) (Keeps.pure _)

theorem endpoint_keeps (a : EntityAnswers) (noEndpoint : String) (topic : Nat) :
    Keeps Context.CleanerRuns (match a.endpoint with
      | none => throw (.middleware noEndpoint)
      | some endpoint => do
          Body.onParticipant (modify (Participant.associate topic endpoint))
          return (topic, endpoint)) := by
  cases a.endpoint with
  | none => exact Keeps.throw _
  | some endpoint => exact Keeps.bind (onParticipant_keeps _) fun _ => Keeps.pure _

theorem createEntities_keeps (a : EntityAnswers) (topicName typeName noGroup noEndpoint : String) :
    Keeps Context.CleanerRuns (createEntities a topicName typeName noGroup noEndpoint) := by
  unfold createEntities
  have hrest := endpoint_keeps a noEndpoint
  apply Keeps.throwIf
  intro _
  dsimp only
  cases a.topicDescription with
  | some topic => exact Keeps.bind (Keeps.pure _) hrest
  | none =>
    cases a.topic with
    | some topic => exact Keeps.bind (Keeps.pure _) hrest
    | none => exact Keeps.bind (Keeps.throw _) hrest

theorem topicBody_keeps (a : TopicAnswers) (topicName : String) (messageType : DynamicType)
    (noParticipant group endpoint : String) :
    Keeps Context.CleanerRuns
      (topicBody a topicName messageType noParticipant group endpoint) := by
  unfold topicBody
  apply Keeps.bind (callCreateBuilder_keeps _)
  intro builder
  apply Keeps.bind (registerType_keeps _ _ _ _)
  intro _
  apply Keeps.bind (onParticipant_keeps _)
  intro _
  apply Keeps.bind (requireParticipant_keeps _)
  intro _
  apply Keeps.bind (createEntities_keeps _ _ _ _ _)
  intro entities
  exact Keeps.bind Keeps.get fun _ => Keeps.pure _

theorem serviceBody_keeps {T : Type} (a : ServiceAnswers) (texts : ServiceTexts)
    (serviceName : String) (service : Service) (addConfig : Option T) :
    Keeps Context.CleanerRuns (serviceBody a texts serviceName service addConfig) := by
  unfold serviceBody
  apply Keeps.bind
  · apply Keeps.modify
    intro c hc
    exact hc
  intro _
  cases addConfig with
  | none => exact Keeps.throw _
  | some tables =>
    apply Keeps.bind (callCreateBuilder_keeps _)
    intro builderRequest
    apply Keeps.bind (callCreateBuilder_keeps _)
    intro builderReply
    apply Keeps.bind (registerType_keeps _ _ _ _)
    intro _
    apply Keeps.bind (registerType_keeps _ _ _ _)
    intro _
    apply Keeps.bind (onParticipant_keeps _)
    intro _
    apply Keeps.bind (onParticipant_keeps _)
    intro _
    apply Keeps.bind (requireParticipant_keeps _)
    intro _
    apply Keeps.bind (createEntities_keeps _ _ _ _ _)
    intro request
    apply Keeps.bind (createEntities_keeps _ _ _ _ _)
    intro reply
    exact Keeps.bind Keeps.get fun _ => Keeps.pure _

end Bodies

/-! ## Unwinding -/

/-- The body, run after the members have been initialised, throws what the handle would catch. -/
def Body.Throws {α : Type} (body : Body α) (c : Context) : Prop :=
  ∃ what c', body (initialise receiverMembers c) = .error (.middleware what) c'

theorem cleanerRuns_initialise (c : Context) :
    (initialise receiverMembers c).CleanerRuns :=
  ⟨c.started, rfl, List.mem_append_right _ List.mem_cons_self⟩

theorem cleanerThreadMember_destroy (c : Context) (h : c.CleanerRuns) :
    cleanerThreadMember.destroy c = none := by
  obtain ⟨id, hid, hmem⟩ := h
  unfold cleanerThreadMember
  simp only [hid]
  rw [if_pos hmem]

theorem loggerMember_destroy (c c' : Context) (h : c.CleanerRuns)
    (hdestroy : loggerMember.destroy c = some c') : c'.CleanerRuns := by
  obtain rfl : c = c' := Option.some.inj hdestroy
  exact h

/-- A body that throws ends the process, whatever it throws and whatever it has done before. -/
theorem build_receiver_eq_none {α : Type} {body : Body α} {c c' : Context} {e : Thrown}
    (hbody : Keeps Context.CleanerRuns body)
    (herror : body (initialise receiverMembers c) = .error e c') :
    build receiverMembers body c = none := by
  have hafter : ∀ m ∈ [loggerMember], ∀ c c', Context.CleanerRuns c → m.destroy c = some c' →
      Context.CleanerRuns c' := by
    intro m hm c c' hc hdestroy
    rw [List.mem_singleton.mp hm] at hdestroy
    exact loggerMember_destroy c c' hc hdestroy
  show build ([plainMembers] ++ cleanerThreadMember :: [loggerMember]) body c = none
  exact build_eq_none (cleanerRuns_initialise c) hbody hafter cleanerThreadMember_destroy herror

/-- Unwinding is never survived: what is built is an object. -/
theorem build_receiver_ok {α : Type} {body : Body α} {c : Context}
    {result : EStateM.Result Thrown Context α} (hbody : Keeps Context.CleanerRuns body)
    (hbuild : build receiverMembers body c = some result) :
    ∃ a c', result = .ok a c' := by
  cases hrun : body (initialise receiverMembers c) with
  | ok a c' =>
    unfold build at hbuild
    rw [hrun] at hbuild
    exact ⟨a, c', (Option.some.inj hbuild).symm⟩
  | error e c' =>
    rw [build_receiver_eq_none hbody hrun] at hbuild
    cases hbuild

namespace SystemHandle

variable {H K S Cb : Type}

theorem make_eq_none {α : Type} {h : SystemHandle H K S Cb} {body : Body α}
    {keep : α → SystemHandle H K S Cb → SystemHandle H K S Cb}
    (hbody : Keeps Context.CleanerRuns body) (hthrow : body.Throws h.context) :
    h.make receiverMembers body keep = none := by
  obtain ⟨what, c', herror⟩ := hthrow
  unfold make
  rw [build_receiver_eq_none hbody herror]

theorem make_returns_true {α : Type} {h h' : SystemHandle H K S Cb} {body : Body α}
    {keep : α → SystemHandle H K S Cb → SystemHandle H K S Cb} {result : Bool}
    (hbody : Keeps Context.CleanerRuns body)
    (hmake : h.make receiverMembers body keep = some (result, h')) : result = true := by
  unfold make at hmake
  cases hbuild : build receiverMembers body h.context with
  | none =>
    rw [hbuild] at hmake
    cases hmake
  | some built =>
    obtain ⟨a, c', rfl⟩ := build_receiver_ok hbody hbuild
    rw [hbuild] at hmake
    cases hmake
    rfl

/-! ## Containment -/

/-- The call constructs a `Subscriber`, a `Client` or a `Server`, and the body of the constructor
throws a `DDSMiddlewareException`. -/
def Throws (h : SystemHandle H K S Cb) : Call Cb → Prop
  | .advertise _ _ _ => False
  | .subscribe a topicName messageType => (subscriberBody a topicName messageType).Throws h.context
  | .createClientProxy a serviceName service callback config =>
      h.clients serviceName = none ∧
        (clientBody (S := S) a serviceName service callback config).Throws h.context
  | .createServiceProxy a serviceName service config =>
      h.servers serviceName = none ∧
        (serverBody (H := H) (K := K) (S := S) a serviceName service config).Throws h.context

/-- The collections of the handle, the entities associated to topics and the running threads are the
same. -/
structure Unchanged (h h' : SystemHandle H K S Cb) : Prop where
  publishers : h'.publishers = h.publishers
  subscribers : h'.subscribers = h.subscribers
  clients : h'.clients = h.clients
  servers : h'.servers = h.servers
  topicToEntities : h'.participant.topicToEntities = h.participant.topicToEntities
  threads : h'.joinable = h.joinable

/-- The call returns `false`, or a null pointer, and leaves things as they were. -/
def Contained (h : SystemHandle H K S Cb) (call : Call Cb) : Prop :=
  ∃ h', h.perform call = some (false, h') ∧ h.Unchanged h'

theorem perform_eq_none {h : SystemHandle H K S Cb} {call : Call Cb} (hthrows : h.Throws call) :
    h.perform call = none := by
  cases call with
  | advertise a topicName messageType => exact hthrows.elim
  | subscribe a topicName messageType =>
    show h.subscribe a topicName messageType = none
    unfold subscribe
    exact make_eq_none (topicBody_keeps _ _ _ _ _ _) hthrows
  | createClientProxy a serviceName service callback config =>
    show h.createClientProxy a serviceName service callback config = none
    unfold createClientProxy
    rw [hthrows.1]
    exact make_eq_none (serviceBody_keeps _ _ _ _ _) hthrows.2
  | createServiceProxy a serviceName service config =>
    show h.createServiceProxy a serviceName service config = none
    unfold createServiceProxy
    rw [hthrows.1]
    exact make_eq_none (serviceBody_keeps _ _ _ _ _) hthrows.2

/-- A constructor that throws ends the process in every state of the handle. -/
theorem failedConstruction_aborts (h : SystemHandle H K S Cb) (call : Call Cb)
    (hthrows : h.Throws call) : h.perform call = none ∧ ¬ h.Contained call := by
  have hnone := perform_eq_none hthrows
  constructor
  · exact hnone
  · intro hcontained
    obtain ⟨h', hsome, -⟩ := hcontained
    rw [hnone] at hsome
    cases hsome

/-- `subscribe` never returns `false`: its `catch` block is not reached. -/
theorem subscribe_returns_true {h h' : SystemHandle H K S Cb} {a : TopicAnswers}
    {topicName : String} {messageType : DynamicType} {result : Bool}
    (hcall : h.subscribe a topicName messageType = some (result, h')) : result = true := by
  unfold subscribe at hcall
  exact make_returns_true (topicBody_keeps _ _ _ _ _ _) hcall

/-- `create_service_proxy` never returns `nullptr`. -/
theorem createServiceProxy_returns_true {h h' : SystemHandle H K S Cb} {a : ServiceAnswers}
    {serviceName : String} {service : Service} {config : ServiceConfig} {result : Bool}
    (hcall : h.createServiceProxy a serviceName service config = some (result, h')) :
    result = true := by
  unfold createServiceProxy at hcall
  cases hserver : h.servers serviceName with
  | none =>
    rw [hserver] at hcall
    exact make_returns_true (serviceBody_keeps _ _ _ _ _) hcall
  | some server =>
    rw [hserver] at hcall
    obtain ⟨tables, -, hresult⟩ := Option.map_eq_some_iff.mp hcall
    cases hresult
    rfl

def noDataReader : Call Nat :=
  .subscribe ⟨⟨true, true, true⟩, ⟨true, none, some 0, none⟩⟩ "chatter"
    (.leafType "std::string" (.string 0))

theorem initial_throws_noDataReader :
    (SystemHandle.initial : SystemHandle Nat Nat Nat Nat).Throws noDataReader :=
  ⟨_, _, rfl⟩

theorem failedConstruction_aborts_noDataReader :
    (SystemHandle.initial : SystemHandle Nat Nat Nat Nat).perform noDataReader = none ∧
      ¬ (SystemHandle.initial : SystemHandle Nat Nat Nat Nat).Contained noDataReader :=
  failedConstruction_aborts .initial noDataReader initial_throws_noDataReader

/-- A failed construction is not contained in the first state already. -/
theorem not_contained_noDataReader :
    ¬ ∀ (h : SystemHandle Nat Nat Nat Nat) (call : Call Nat), machine.Reachable h →
      h.Throws call → h.Contained call := by
  intro hall
  have hcontained := hall .initial noDataReader (Machine.ReachableVia.init rfl)
    initial_throws_noDataReader
  obtain ⟨h', hsome, -⟩ := hcontained
  rw [perform_eq_none initial_throws_noDataReader] at hsome
  cases hsome

end SystemHandle

end FastDdsSh
