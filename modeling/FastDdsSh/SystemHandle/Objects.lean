import FastDdsSh.Participant.Registration
import FastDdsSh.SystemHandle.Builders
import FastDdsSh.SystemHandle.Containment

/-!
# The objects of a system handle

What the calls of the core make of a handle over a whole run, as long as a name stands for one type
and a topic is used with one type: each object has been made with data of the DDS type that its
messages are converted to, each `Client` and `Server` has the tables of the configurations it was
given, and there is one cleaner thread for each object that is to have one.
-/

namespace FastDdsSh

open Construction Transition

/-! ## Types and topics -/

structure Named (typeOf : String → DynamicType) (builders : KeyedStore String Builder)
    (p : Participant) : Prop where
  participant : p.ddsParticipant = true
  builders : ∀ topicName builder, builders (typeOf topicName).name = some builder →
    (typeOf topicName).getBuilder = some builder.type
  types : ∀ topicName type, p.types (typeOf topicName).name = some type →
    (typeOf topicName).getBuilder = some type
  topics : ∀ topicName typeName, p.topicToType topicName = some typeName →
    typeName = (typeOf topicName).name ∧ (p.types typeName).isSome = true

def Participant.Provided (p : Participant) (topicName : String) (t : DynamicType) : Prop :=
  p.topicToType topicName = some t.name ∧
    ∃ type, t.getBuilder = some type ∧ p.types t.name = some type

theorem Participant.Provided.mono {p p' : Participant} {topicName : String} {t : DynamicType}
    (h : p.Provided topicName t) (hextends : p.Extends p') : p'.Provided topicName t := by
  obtain ⟨htopic, type, hbuilder, htype⟩ := h
  exact ⟨hextends.topicToType _ _ htopic, type, hbuilder, hextends.types _ _ htype⟩

/-- Data for the topic is of the DDS type that values of the type are converted to. -/
def Participant.Creates (p : Participant) (topicName : String) (t : DynamicType) : Prop :=
  ∃ type, t.getBuilder = some type ∧ createDynamicData topicName p = .ok type p

theorem Participant.Provided.creates {p : Participant} {topicName : String} {t : DynamicType}
    (h : p.Provided topicName t) : p.Creates topicName t := by
  obtain ⟨htopic, type, hbuilder, htype⟩ := h
  refine ⟨type, hbuilder, ?_⟩
  rw [createDynamicData_eq, htopic]
  dsimp only
  rw [htype]

structure Progress (typeOf : String → DynamicType) (c₀ : Context) (topics : List String)
    (c : Context) : Prop where
  named : Named typeOf c.builders c.participant
  extends' : c₀.participant.Extends c.participant
  provided : ∀ topicName ∈ topics, c.participant.Provided topicName (typeOf topicName)
  started : c.started = c₀.started
  joinable : c.joinable = c₀.joinable
  cleanerThread : c.cleanerThread = c₀.cleanerThread

variable {typeOf : String → DynamicType} {c₀ c : Context} {topics : List String}

theorem Named.progress (h : Named typeOf c.builders c.participant) : Progress typeOf c [] c :=
  ⟨h, .refl _, List.forall_mem_nil _, rfl, rfl, rfl⟩

theorem Progress.start (h : Progress typeOf c₀ topics c) : Progress typeOf c₀ [] c :=
  { h with provided := List.forall_mem_nil _ }

/-- The participant goes on, and nothing else. -/
theorem Progress.setParticipant (h : Progress typeOf c₀ topics c) {p : Participant}
    (hnamed : Named typeOf c.builders p) (hextends : c.participant.Extends p) :
    Progress typeOf c₀ topics { c with participant := p } where
  named := hnamed
  extends' := h.extends'.trans hextends
  provided topicName htopic := (h.provided topicName htopic).mono hextends
  started := h.started
  joinable := h.joinable
  cleanerThread := h.cleanerThread

theorem Progress.cons (h : Progress typeOf c₀ topics c) {topicName : String}
    (htopic : c.participant.Provided topicName (typeOf topicName)) :
    Progress typeOf c₀ (topicName :: topics) c :=
  { h with provided := List.forall_mem_cons.mpr ⟨htopic, h.provided⟩ }

/-! ## The parts of the bodies -/

def OneTypePerName (typeOf : String → DynamicType) : Prop :=
  ∀ topicName topicName', (typeOf topicName).name = (typeOf topicName').name →
    (typeOf topicName).getBuilder = (typeOf topicName').getBuilder

theorem callCreateBuilder_triple (hnames : OneTypePerName typeOf) (topicName : String) :
    Triple (Progress typeOf c₀ topics) (callCreateBuilder (typeOf topicName))
      (fun builder c => Progress typeOf c₀ topics c ∧
        ∀ b, builder = some b → (typeOf topicName).getBuilder = some b.type)
      (Progress typeOf c₀ []) := by
  intro c hc
  rw [callCreateBuilder_eq]
  show Progress typeOf c₀ topics _ ∧ _
  unfold createBuilder
  cases hkept : c.builders (typeOf topicName).name with
  | some builder =>
    refine ⟨hc, fun b hb => ?_⟩
    cases hb
    exact hc.named.builders topicName builder hkept
  | none =>
    cases htype : (typeOf topicName).getBuilder with
    | none => exact ⟨hc, fun b hb => by cases hb⟩
    | some type =>
      refine ⟨{ hc with named := { hc.named with builders := ?_ } }, fun b hb => ?_⟩
      · intro other builder hbuilder
        replace hbuilder : (c.builders.set (typeOf topicName).name _) (typeOf other).name =
          some builder := hbuilder
        by_cases hname : (typeOf other).name = (typeOf topicName).name
        · rw [hname, KeyedStore.set_self] at hbuilder
          cases hbuilder
          rw [hnames other topicName hname, htype]
        · rw [KeyedStore.set_ne _ _ hname] at hbuilder
          exact hc.named.builders other builder hbuilder
      · cases hb
        rfl

theorem Named.mapTopic {builders : KeyedStore String Builder} {p : Participant} {r : Registration}
    (h : Named typeOf builders p) (hname : r.typeName = (typeOf r.topicName).name)
    (htype : (p.types r.typeName).isSome = true) : Named typeOf builders (p.mapTopic r) := by
  refine { h with topics := fun topicName typeName htopic => ?_ }
  replace htopic : p.topicToType.set r.topicName r.typeName topicName = some typeName := htopic
  by_cases heq : topicName = r.topicName
  · rw [heq, KeyedStore.set_self] at htopic
    cases htopic
    rw [heq]
    exact ⟨hname, htype⟩
  · rw [KeyedStore.set_ne _ _ heq] at htopic
    exact h.topics topicName typeName htopic

theorem Named.enter (hnames : OneTypePerName typeOf) {builders : KeyedStore String Builder}
    {p : Participant} {r : Registration} (h : Named typeOf builders p)
    (hname : r.typeName = (typeOf r.topicName).name)
    (hbuilder : (typeOf r.topicName).getBuilder = some r.builder.type) :
    Named typeOf builders (p.enter r) := by
  refine ⟨h.participant, h.builders, ?_, ?_⟩
  · intro topicName type htype
    replace htype : p.types.set r.typeName r.builder.type (typeOf topicName).name = some type :=
      htype
    by_cases heq : (typeOf topicName).name = r.typeName
    · rw [heq, KeyedStore.set_self] at htype
      cases htype
      rw [hnames topicName r.topicName (heq.trans hname), hbuilder]
    · rw [KeyedStore.set_ne _ _ heq] at htype
      exact h.types topicName type htype
  · intro topicName typeName htopic
    replace htopic : p.topicToType.set r.topicName r.typeName topicName = some typeName := htopic
    by_cases heq : topicName = r.topicName
    · rw [heq, KeyedStore.set_self] at htopic
      cases htopic
      rw [heq]
      exact ⟨hname, KeyedStore.isSome_set p.types _ (.inl rfl)⟩
    · rw [KeyedStore.set_ne _ _ heq] at htopic
      obtain ⟨hrest, hknown⟩ := h.topics topicName typeName htopic
      exact ⟨hrest, KeyedStore.isSome_set p.types _ (.inr hknown)⟩

/-- A registration that returns provides the type, and one that throws does no harm. -/
theorem registerType_triple (hnames : OneTypePerName typeOf) (a : TypeAnswers)
    (builder : Option Builder) (topicName : String)
    (hbuilder : ∀ b, builder = some b → (typeOf topicName).getBuilder = some b.type) :
    Triple (Progress typeOf c₀ topics) (registerType a builder topicName (typeOf topicName))
      (fun _ c => Progress typeOf c₀ (topicName :: topics) c) (Progress typeOf c₀ []) := by
  intro c hc
  cases builder with
  | none => exact hc.start
  | some builder =>
    let r : Registration := ⟨topicName, (typeOf topicName).name, builder, a⟩
    have hextends := Participant.extends_perform hc.named.participant r
    have houtcome := Participant.register_outcome hc.named.participant r
    unfold Participant.perform at hextends
    have hcall : Participant.registerDynamicType a topicName (typeOf topicName).name builder =
      Participant.register r := rfl
    unfold registerType Body.onParticipant
    simp only [hcall]
    generalize Participant.register r c.participant = result at houtcome hextends
    have hprovided {p : Participant} (htopic : p.topicToType topicName = some r.typeName)
        (hnamed : Named typeOf c.builders p) : p.Provided topicName (typeOf topicName) := by
      obtain ⟨-, hknown⟩ := hnamed.topics _ _ htopic
      obtain ⟨type, htype⟩ := Option.isSome_iff_exists.mp hknown
      exact ⟨htopic, type, hnamed.types topicName type htype, htype⟩
    have hentered := hc.named.enter hnames (r := r) rfl (hbuilder builder rfl)
    cases houtcome with
    | mapped htopic =>
      obtain ⟨rfl, -⟩ := hc.named.topics topicName _ htopic
      exact hc.cons (hprovided htopic hc.named)
    | known htopic htype =>
      have hnamed := hc.named.mapTopic (r := r) rfl (by rw [htype]; rfl)
      exact (hc.setParticipant hnamed hextends).cons
        (hprovided (KeyedStore.set_self _ _ _) hnamed)
    | notBuilt htopic htype hbuilt => exact hc.start
    | refused htopic htype hbuilt hregistered => exact (hc.setParticipant hentered hextends).start
    | entered htopic htype hbuilt hregistered =>
      exact (hc.setParticipant hentered hextends).cons
        (hprovided (KeyedStore.set_self _ _ _) hentered)

theorem createDynamicData_triple (topicName : String) :
    Triple (Progress typeOf c₀ topics)
      (Body.onParticipant (Participant.createDynamicData topicName))
      (fun _ => Progress typeOf c₀ topics) (Progress typeOf c₀ []) := by
  intro c hc
  unfold Body.onParticipant
  simp only [Participant.createDynamicData_eq]
  cases c.participant.topicToType topicName with
  | none => exact hc.start
  | some typeName =>
    dsimp only
    cases c.participant.types typeName with
    | none => exact hc.start
    | some type => exact hc

theorem requireParticipant_triple (what : String) :
    Triple (Progress typeOf c₀ topics) (requireParticipant what)
      (fun _ => Progress typeOf c₀ topics) (Progress typeOf c₀ []) := by
  unfold requireParticipant
  apply Triple.bind (Triple.get (Q := fun _ => Progress typeOf c₀ topics) fun _ hc => hc)
  intro c
  exact Triple.ite (Triple.throw fun _ hc => hc.start) (Triple.pure fun _ hc => hc)

theorem Participant.extends_associate (topic entity : Nat) (p : Participant) :
    p.Extends (p.associate topic entity) := by
  unfold associate
  split
  · exact ⟨rfl, fun _ _ h => h, fun _ _ h => h⟩
  · split
    · exact .refl p
    · exact ⟨rfl, fun _ _ h => h, fun _ _ h => h⟩

theorem Named.associate {builders : KeyedStore String Builder} {p : Participant}
    (h : Named typeOf builders p) (topic entity : Nat) :
    Named typeOf builders (p.associate topic entity) := by
  unfold Participant.associate
  split
  · exact ⟨h.participant, h.builders, h.types, h.topics⟩
  · split
    · exact h
    · exact ⟨h.participant, h.builders, h.types, h.topics⟩

theorem createEntities_triple (a : EntityAnswers)
    (topicName typeName noGroup noEndpoint : String) :
    Triple (Progress typeOf c₀ topics) (createEntities a topicName typeName noGroup noEndpoint)
      (fun _ => Progress typeOf c₀ topics) (Progress typeOf c₀ []) := by
  have hassociate (topic endpoint : Nat) : Triple (Progress typeOf c₀ topics)
      (Body.onParticipant (modify (Participant.associate topic endpoint)))
      (fun _ => Progress typeOf c₀ topics) (Progress typeOf c₀ []) := fun c hc =>
    hc.setParticipant (hc.named.associate topic endpoint)
      (Participant.extends_associate topic endpoint c.participant)
  have hstart : ∀ c, Progress typeOf c₀ topics c → Progress typeOf c₀ [] c := fun _ hc => hc.start
  have hfound (topic : Nat) : Triple (Progress typeOf c₀ topics) (pure topic : Body Nat)
      (fun _ => Progress typeOf c₀ topics) (Progress typeOf c₀ []) := Triple.pure fun _ hc => hc
  unfold createEntities
  apply Triple.ite (Triple.throw_bind hstart)
  dsimp only
  cases a.endpoint with
  | none =>
    have hrest (topic : Nat) : Triple (Progress typeOf c₀ topics)
        (throw (.middleware noEndpoint) : Body (Nat × Nat)) (fun _ => Progress typeOf c₀ topics)
        (Progress typeOf c₀ []) := Triple.throw hstart
    cases a.topicDescription with
    | some topic => exact Triple.bind (hfound topic) hrest
    | none =>
      cases a.topic with
      | some topic => exact Triple.bind (hfound topic) hrest
      | none => exact Triple.throw_bind hstart
  | some endpoint =>
    have hrest (topic : Nat) : Triple (Progress typeOf c₀ topics)
        (do Body.onParticipant (modify (Participant.associate topic endpoint))
            return (topic, endpoint)) (fun _ => Progress typeOf c₀ topics)
        (Progress typeOf c₀ []) :=
      Triple.bind (hassociate topic endpoint) fun _ => Triple.pure fun _ hc => hc
    cases a.topicDescription with
    | some topic => exact Triple.bind (hfound topic) hrest
    | none =>
      cases a.topic with
      | some topic => exact Triple.bind (hfound topic) hrest
      | none => exact Triple.throw_bind hstart

/-! ## The bodies -/

theorem topicBody_triple (hnames : OneTypePerName typeOf) (a : TopicAnswers) (topicName : String)
    (noParticipant group endpoint : String) :
    Triple (Progress typeOf c₀ [])
      (topicBody a topicName (typeOf topicName) noParticipant group endpoint)
      (fun proxy c => Progress typeOf c₀ [topicName] c ∧ proxy.topicName = topicName ∧
        proxy.messageType = typeOf topicName ∧ proxy.cleanerThread = c₀.cleanerThread)
      (Progress typeOf c₀ []) := by
  unfold topicBody
  apply Triple.bind (callCreateBuilder_triple hnames topicName)
  intro builder
  refine Triple.of_and fun hbuilder => ?_
  apply Triple.bind (registerType_triple hnames a.type builder topicName hbuilder)
  intro _
  apply Triple.bind (createDynamicData_triple topicName)
  intro _
  apply Triple.bind (requireParticipant_triple noParticipant)
  intro _
  apply Triple.bind (createEntities_triple a.entities topicName _ _ _)
  intro entities
  apply Triple.bind (Triple.get (Q := fun c' c => Progress typeOf c₀ [topicName] c ∧ c' = c)
    fun _ hc => ⟨hc, rfl⟩)
  intro c
  apply Triple.pure
  rintro _ ⟨hc, rfl⟩
  exact ⟨hc, rfl, rfl, hc.cleanerThread⟩

def requestTopic (serviceName : String) : String :=
  serviceName ++ "_Request"

def replyTopic (serviceName : String) : String :=
  serviceName ++ "_Reply"

theorem serviceBody_triple {T : Type} (hnames : OneTypePerName typeOf) (a : ServiceAnswers)
    (texts : ServiceTexts) (serviceName : String) {service : Service}
    (hrequest : service.requestType = typeOf (requestTopic serviceName))
    (hreply : service.replyType = typeOf (replyTopic serviceName)) (addConfig : Option T) :
    Triple (Progress typeOf c₀ []) (serviceBody a texts serviceName service addConfig)
      (fun proxy c => Progress typeOf c₀ [replyTopic serviceName, requestTopic serviceName] c ∧
        proxy.service = service ∧ addConfig = some proxy.tables ∧
        proxy.cleanerThread = c₀.cleanerThread)
      (Progress typeOf c₀ []) := by
  have hlock : ∀ c, Progress typeOf c₀ [] c →
      Progress typeOf c₀ [] { c with mtxLocked := true } := fun _ hc =>
    ⟨hc.named, hc.extends', hc.provided, hc.started, hc.joinable, hc.cleanerThread⟩
  unfold serviceBody
  apply Triple.bind (Triple.modify (Q := fun _ => Progress typeOf c₀ []) hlock)
  intro _
  cases addConfig with
  | none => exact Triple.throw fun _ hc => hc
  | some tables =>
    dsimp only
    rw [hrequest, hreply]
    apply Triple.bind (callCreateBuilder_triple hnames (requestTopic serviceName))
    intro builderRequest
    refine Triple.of_and fun hbuilderRequest => ?_
    apply Triple.bind (callCreateBuilder_triple hnames (replyTopic serviceName))
    intro builderReply
    refine Triple.of_and fun hbuilderReply => ?_
    apply Triple.bind (registerType_triple hnames a.requestType builderRequest
      (requestTopic serviceName) hbuilderRequest)
    intro _
    apply Triple.bind (registerType_triple hnames a.replyType builderReply
      (replyTopic serviceName) hbuilderReply)
    intro _
    apply Triple.bind (createDynamicData_triple _)
    intro _
    apply Triple.bind (createDynamicData_triple _)
    intro _
    apply Triple.bind (requireParticipant_triple _)
    intro _
    apply Triple.bind (createEntities_triple a.request _ _ _ _)
    intro request
    apply Triple.bind (createEntities_triple a.reply _ _ _ _)
    intro reply
    apply Triple.bind (Triple.get (Q := fun c' c =>
      Progress typeOf c₀ [replyTopic serviceName, requestTopic serviceName] c ∧ c' = c)
      fun _ hc => ⟨hc, rfl⟩)
    intro c
    apply Triple.pure
    rintro _ ⟨hc, rfl⟩
    exact ⟨hc, rfl, rfl, hc.cleanerThread⟩

/-! ## The handle -/

section Handle

variable {H K S Cb : Type}

def Call.Consistent (typeOf : String → DynamicType) : Call Cb → Prop
  | .advertise _ topicName messageType | .subscribe _ topicName messageType =>
      messageType = typeOf topicName
  | .createClientProxy _ serviceName service _ _ | .createServiceProxy _ serviceName service _ =>
      service.requestType = typeOf (requestTopic serviceName) ∧
        service.replyType = typeOf (replyTopic serviceName)

namespace SystemHandle

inductive Owner where
  | subscriber (i : Nat)
  | client (serviceName : String)
  | server (serviceName : String)
  deriving DecidableEq, Repr

def cleanerThread (h : SystemHandle H K S Cb) : Owner → Option (Option Nat)
  | .subscriber i => (h.subscribers[i]?).map TopicProxy.cleanerThread
  | .client serviceName => (h.clients serviceName).map ServiceProxy.cleanerThread
  | .server serviceName => (h.servers serviceName).map ServiceProxy.cleanerThread

structure Serves (typeOf : String → DynamicType) (p : Participant) (serviceName : String)
    (service : Service) : Prop where
  requestType : service.requestType = typeOf (requestTopic serviceName)
  replyType : service.replyType = typeOf (replyTopic serviceName)
  request : p.Provided (requestTopic serviceName) (typeOf (requestTopic serviceName))
  reply : p.Provided (replyTopic serviceName) (typeOf (replyTopic serviceName))

/-- The objects have their types, and the tables of the configurations that they were given. -/
structure Typed (typeOf : String → DynamicType) (h : SystemHandle H K S Cb) : Prop where
  named : Named typeOf h.builders h.participant
  topics : ∀ p ∈ h.publishers ++ h.subscribers, p.messageType = typeOf p.topicName ∧
    h.participant.Provided p.topicName (typeOf p.topicName)
  clients : ∀ serviceName x, h.clients serviceName = some x →
    Serves typeOf h.participant serviceName x.service ∧
      ∃ configs, Client.initial.configure x.service configs = some x.tables
  servers : ∀ serviceName x, h.servers serviceName = some x →
    Serves typeOf h.participant serviceName x.service ∧
      ∃ configs, Server.initial.configure x.service configs = some x.tables

structure Threaded (h : SystemHandle H K S Cb) : Prop where
  joinable : ∀ id, id ∈ h.joinable ↔ ∃ o, h.cleanerThread o = some (some id)
  distinct : ∀ o o' id, h.cleanerThread o = some (some id) →
    h.cleanerThread o' = some (some id) → o = o'
  running : ∀ o, h.cleanerThread o ≠ some none
  started : ∀ id ∈ h.joinable, id < h.started

variable {h h' : SystemHandle H K S Cb}

theorem Serves.mono {p p' : Participant} {serviceName : String} {service : Service}
    (hserves : Serves typeOf p serviceName service) (hextends : p.Extends p') :
    Serves typeOf p' serviceName service :=
  { hserves with
    request := hserves.request.mono hextends
    reply := hserves.reply.mono hextends }

/-- Types are added, while the objects stay. -/
theorem Typed.withContext (htyped : h.Typed typeOf) (hnamed : Named typeOf c.builders c.participant)
    (hextends : h.participant.Extends c.participant) : (h.withContext c).Typed typeOf where
  named := hnamed
  topics p hp := ⟨(htyped.topics p hp).1, (htyped.topics p hp).2.mono hextends⟩
  clients serviceName x hx :=
    ⟨(htyped.clients serviceName x hx).1.mono hextends, (htyped.clients serviceName x hx).2⟩
  servers serviceName x hx :=
    ⟨(htyped.servers serviceName x hx).1.mono hextends, (htyped.servers serviceName x hx).2⟩

/-- One more object has the thread that was started for it. -/
theorem Threaded.add (hthreaded : h.Threaded) {o : Owner} (hnew : h.cleanerThread o = none)
    (ho : h'.cleanerThread o = some (some h.started))
    (hrest : ∀ o', o' ≠ o → h'.cleanerThread o' = h.cleanerThread o')
    (hjoinable : h'.joinable = h.joinable ++ [h.started]) (hstarted : h'.started = h.started + 1) :
    h'.Threaded := by
  have hold {o' : Owner} {id : Nat} (ho' : h.cleanerThread o' = some (some id)) :
      id < h.started ∧ h'.cleanerThread o' = some (some id) := by
    refine ⟨hthreaded.started id ((hthreaded.joinable id).mpr ⟨o', ho'⟩), ?_⟩
    rw [hrest o' fun heq => by rw [heq, hnew] at ho'; cases ho']
    exact ho'
  have hcases {o' : Owner} {id : Nat} (ho' : h'.cleanerThread o' = some (some id)) :
      (o' = o ∧ id = h.started) ∨ h.cleanerThread o' = some (some id) := by
    by_cases heq : o' = o
    · rw [heq, ho] at ho'
      cases ho'
      exact .inl ⟨heq, rfl⟩
    · rw [hrest o' heq] at ho'
      exact .inr ho'
  refine ⟨fun id => ?_, fun o₁ o₂ id h₁ h₂ => ?_, fun o' hnone => ?_, fun id hid => ?_⟩
  · rw [hjoinable, List.mem_append, List.mem_singleton, hthreaded.joinable]
    constructor
    · rintro (⟨o', ho'⟩ | rfl)
      · exact ⟨o', (hold ho').2⟩
      · exact ⟨o, ho⟩
    · rintro ⟨o', ho'⟩
      rcases hcases ho' with ⟨-, rfl⟩ | ho'
      · exact .inr rfl
      · exact .inl ⟨o', ho'⟩
  · rcases hcases h₁ with ⟨rfl, rfl⟩ | h₁
    · rcases hcases h₂ with ⟨rfl, -⟩ | h₂
      · rfl
      · exact absurd (hold h₂).1 (Nat.lt_irrefl _)
    · rcases hcases h₂ with ⟨rfl, rfl⟩ | h₂
      · exact absurd (hold h₁).1 (Nat.lt_irrefl _)
      · exact hthreaded.distinct o₁ o₂ id h₁ h₂
  · by_cases heq : o' = o
    · rw [heq, ho] at hnone
      cases hnone
    · rw [hrest o' heq] at hnone
      exact hthreaded.running o' hnone
  · rw [hjoinable, List.mem_append, List.mem_singleton] at hid
    rw [hstarted]
    rcases hid with hid | rfl
    · exact Nat.lt_succ_of_lt (hthreaded.started id hid)
    · exact Nat.lt_succ_self _

theorem Threaded.of_same (hthreaded : h.Threaded)
    (hcleaner : ∀ o, h'.cleanerThread o = h.cleanerThread o) (hjoinable : h'.joinable = h.joinable)
    (hstarted : h'.started = h.started) : h'.Threaded := by
  refine ⟨fun id => ?_, fun o o' id ho ho' => ?_, fun o hnone => ?_, fun id hid => ?_⟩
  · simp only [hjoinable, hcleaner, hthreaded.joinable]
  · rw [hcleaner] at ho ho'
    exact hthreaded.distinct o o' id ho ho'
  · rw [hcleaner] at hnone
    exact hthreaded.running o hnone
  · rw [hjoinable] at hid
    rw [hstarted]
    exact hthreaded.started id hid

/-! ## One call -/

section Make

variable {α : Type} {body : Body α} {keep : α → SystemHandle H K S Cb → SystemHandle H K S Cb}
  {result : Bool} {Q : Context → α → Prop}

/-- A constructor with a cleaner thread has returned. -/
theorem make_receiver (htyped : h.Typed typeOf) (hkeeps : Keeps Context.CleanerRuns body)
    (hbody : ∀ c₀, Triple (Progress typeOf c₀ []) body
      (fun a c => Progress typeOf c₀ topics c ∧ Q c₀ a) (Progress typeOf c₀ []))
    (hmake : h.make receiverMembers body keep = some (result, h')) :
    ∃ a c, h' = keep a (h.withContext c) ∧
      Progress typeOf (initialise receiverMembers h.context) topics c ∧
      Q (initialise receiverMembers h.context) a := by
  have hstart : Progress typeOf (initialise receiverMembers h.context) []
      (initialise receiverMembers h.context) := Named.progress htyped.named
  unfold make at hmake
  cases hbuild : build receiverMembers body h.context with
  | none =>
    rw [hbuild] at hmake
    cases hmake
  | some built =>
    obtain ⟨a, c, rfl⟩ := build_receiver_ok hkeeps hbuild
    rw [hbuild] at hmake
    cases hmake
    unfold build at hbuild
    cases hrun : body (initialise receiverMembers h.context) with
    | error e c' =>
      rw [hrun] at hbuild
      obtain ⟨s, -, hcon⟩ := Option.map_eq_some_iff.mp hbuild
      cases hcon
    | ok a' c' =>
      rw [hrun] at hbuild
      cases hbuild
      obtain ⟨hprogress, hq⟩ := (hbody _).of_eq_ok hstart hrun
      exact ⟨a, c, rfl, hprogress, hq⟩

/-- The constructor of a `Publisher` has returned, or what it threw was caught. -/
theorem make_publisher (htyped : h.Typed typeOf)
    (hbody : ∀ c₀, Triple (Progress typeOf c₀ []) body
      (fun a c => Progress typeOf c₀ topics c ∧ Q c₀ a) (Progress typeOf c₀ []))
    (hmake : h.make publisherMembers body keep = some (result, h')) :
    (∃ a c, h' = keep a (h.withContext c) ∧
        Progress typeOf (initialise publisherMembers h.context) topics c ∧
        Q (initialise publisherMembers h.context) a) ∨
      ∃ c, h' = h.withContext c ∧
        Progress typeOf (initialise publisherMembers h.context) [] c := by
  have hstart : Progress typeOf (initialise publisherMembers h.context) []
      (initialise publisherMembers h.context) := Named.progress htyped.named
  unfold make build at hmake
  cases hrun : body (initialise publisherMembers h.context) with
  | ok a c =>
    rw [hrun] at hmake
    cases hmake
    obtain ⟨hprogress, hq⟩ := (hbody _).of_eq_ok hstart hrun
    exact .inl ⟨a, c, rfl, hprogress, hq⟩
  | error e c =>
    have hprogress := (hbody _).of_eq_error hstart hrun
    rw [hrun] at hmake
    cases e with
    | middleware what =>
      cases hmake
      exact .inr ⟨c, rfl, hprogress⟩
    | other => cases hmake
    | invalidPointer => cases hmake

end Make

structure Sound (typeOf : String → DynamicType) (h : SystemHandle H K S Cb) : Prop where
  typed : h.Typed typeOf
  threaded : h.Threaded

theorem sound_initial (typeOf : String → DynamicType) :
    Sound typeOf (initial : SystemHandle H K S Cb) := by
  have hcleaner (o : Owner) : (initial : SystemHandle H K S Cb).cleanerThread o = none := by
    cases o <;> rfl
  refine ⟨⟨⟨rfl, ?_, ?_, ?_⟩, List.forall_mem_nil _, ?_, ?_⟩, ⟨fun id => ?_, ?_, ?_, ?_⟩⟩
  · exact fun _ _ hbuilder => by cases hbuilder
  · exact fun _ _ htype => by cases htype
  · exact fun _ _ htopic => by cases htopic
  · exact fun _ _ hx => by cases hx
  · exact fun _ _ hx => by cases hx
  · constructor
    · intro hid
      cases hid
    · rintro ⟨o, ho⟩
      rw [hcleaner] at ho
      cases ho
  · intro o o' id ho
    rw [hcleaner] at ho
    cases ho
  · intro o ho
    rw [hcleaner] at ho
    cases ho
  · exact fun _ hid => by cases hid

theorem Sound.advertise (hnames : OneTypePerName typeOf) (hsound : h.Sound typeOf)
    {a : TopicAnswers} {topicName : String} {result : Bool}
    (hcall : h.advertise a topicName (typeOf topicName) = some (result, h')) :
    h'.Sound typeOf := by
  have hbody (c₀ : Context) : Triple (Progress typeOf c₀ []) _ _ _ :=
    topicBody_triple hnames a topicName
      "Trying to create a publisher without a DDS participant!" "publisher" "datawriter"
  rcases make_publisher hsound.typed hbody hcall with
    ⟨p, c, rfl, hprogress, hname, htype, -⟩ | ⟨c, rfl, hprogress⟩
  · have hcontext := hsound.typed.withContext hprogress.named hprogress.extends'
    refine ⟨{ hcontext with topics := fun p' hp' => ?_ }, ?_⟩
    · replace hp' : p' ∈ (h.publishers ++ [p]) ++ h.subscribers := hp'
      rcases List.mem_append.mp hp' with hp' | hp'
      · rcases List.mem_append.mp hp' with hp' | hp'
        · exact hcontext.topics p' (List.mem_append_left _ hp')
        · obtain rfl := List.mem_singleton.mp hp'
          rw [hname]
          exact ⟨htype, hprogress.provided topicName List.mem_cons_self⟩
      · exact hcontext.topics p' (List.mem_append_right _ hp')
    · exact hsound.threaded.of_same (fun o => by cases o <;> rfl) hprogress.joinable
        hprogress.started
  · exact ⟨hsound.typed.withContext hprogress.named hprogress.extends',
      hsound.threaded.of_same (fun o => by cases o <;> rfl) hprogress.joinable hprogress.started⟩

theorem Sound.subscribe (hnames : OneTypePerName typeOf) (hsound : h.Sound typeOf)
    {a : TopicAnswers} {topicName : String} {result : Bool}
    (hcall : h.subscribe a topicName (typeOf topicName) = some (result, h')) :
    h'.Sound typeOf := by
  have hbody (c₀ : Context) : Triple (Progress typeOf c₀ []) _ _ _ :=
    topicBody_triple hnames a topicName
      "Trying to create a subscriber without a DDS participant!" "subscriber" "datareader"
  obtain ⟨p, c, rfl, hprogress, hname, htype, hthread⟩ :=
    make_receiver hsound.typed (topicBody_keeps _ _ _ _ _ _) hbody hcall
  have hcontext := hsound.typed.withContext hprogress.named hprogress.extends'
  refine ⟨{ hcontext with topics := fun p' hp' => ?_ }, ?_⟩
  · replace hp' : p' ∈ h.publishers ++ (h.subscribers ++ [p]) := hp'
    rw [← List.append_assoc] at hp'
    rcases List.mem_append.mp hp' with hp' | hp'
    · exact hcontext.topics p' hp'
    · obtain rfl := List.mem_singleton.mp hp'
      rw [hname]
      exact ⟨htype, hprogress.provided topicName List.mem_cons_self⟩
  · have hlast : (h.subscribers ++ [p])[h.subscribers.length]? = some p :=
      List.getElem?_concat_length
    refine hsound.threaded.add (o := .subscriber h.subscribers.length) ?_ ?_ ?_
      hprogress.joinable hprogress.started
    · show (h.subscribers[h.subscribers.length]?).map _ = none
      rw [List.getElem?_eq_none (le_refl _)]
      rfl
    · show ((h.subscribers ++ [p])[h.subscribers.length]?).map _ = _
      rw [hlast]
      exact congrArg some hthread
    · intro o' ho'
      cases o' with
      | subscriber i =>
        show ((h.subscribers ++ [p])[i]?).map _ = (h.subscribers[i]?).map _
        have hne : i ≠ h.subscribers.length := fun heq => ho' (congrArg Owner.subscriber heq)
        by_cases hlt : i < h.subscribers.length
        · rw [List.getElem?_append_left hlt]
        · have hi : h.subscribers.length < i := by omega
          rw [List.getElem?_eq_none (by simp; omega), List.getElem?_eq_none (by omega)]
      | client serviceName => rfl
      | server serviceName => rfl

/-- Another configuration after some. -/
theorem configure_client_concat {service : Service} {client : Client S Cb}
    {configs : List (ServiceConfig × Cb)} {config : ServiceConfig} {callback : Cb}
    {added : Client S Cb × Bool}
    (hconfigure : Client.initial.configure service configs = some client)
    (hadd : client.addConfig service callback config = some added) :
    Client.initial.configure service (configs ++ [(config, callback)]) = some added.1 := by
  unfold Client.configure at hconfigure ⊢
  rw [List.foldlM_append, hconfigure]
  show ((client.addConfig service callback config).map Prod.fst).bind some = _
  rw [hadd]
  rfl

theorem configure_server_concat {service : Service} {server server' : KeyedServer H K S}
    {configs : List ServiceConfig} {config : ServiceConfig}
    (hconfigure : Server.initial.configure service configs = some server)
    (hadd : server.addConfig service config = some server') :
    Server.initial.configure service (configs ++ [config]) = some server' := by
  unfold Server.configure at hconfigure ⊢
  rw [List.foldlM_append, hconfigure]
  show (server.addConfig service config).bind some = _
  rw [hadd]
  rfl

/-- A name is entered in a map of services. -/
theorem forall_set {X : Type} {m : KeyedStore String X} {p : String → X → Prop}
    (h : ∀ serviceName x, m serviceName = some x → p serviceName x) {serviceName : String} {x : X}
    (hx : p serviceName x) :
    ∀ name y, m.set serviceName x name = some y → p name y := by
  intro name y hy
  by_cases hname : name = serviceName
  · rw [hname, KeyedStore.set_self] at hy
    cases hy
    rw [hname]
    exact hx
  · rw [KeyedStore.set_ne _ _ hname] at hy
    exact h name y hy

theorem cleanerThread_withContext (h : SystemHandle H K S Cb) (c : Context) (o : Owner) :
    (h.withContext c).cleanerThread o = h.cleanerThread o := by
  cases o <;> rfl

theorem cleanerThread_setClient (h : SystemHandle H K S Cb) (serviceName : String)
    (x : ServiceProxy (Client S Cb)) (o : Owner) :
    cleanerThread { h with clients := h.clients.set serviceName x } o =
      if o = .client serviceName then some x.cleanerThread else h.cleanerThread o := by
  cases o with
  | client name =>
    show (h.clients.set serviceName x name).map _ = _
    by_cases hname : name = serviceName
    · rw [hname, KeyedStore.set_self, if_pos rfl]
      rfl
    · rw [KeyedStore.set_ne _ _ hname, if_neg fun heq => hname (Owner.client.inj heq)]
      rfl
  | subscriber i => rfl
  | server name => rfl

theorem cleanerThread_setServer (h : SystemHandle H K S Cb) (serviceName : String)
    (x : ServiceProxy (KeyedServer H K S)) (o : Owner) :
    cleanerThread { h with servers := h.servers.set serviceName x } o =
      if o = .server serviceName then some x.cleanerThread else h.cleanerThread o := by
  cases o with
  | server name =>
    show (h.servers.set serviceName x name).map _ = _
    by_cases hname : name = serviceName
    · rw [hname, KeyedStore.set_self, if_pos rfl]
      rfl
    · rw [KeyedStore.set_ne _ _ hname, if_neg fun heq => hname (Owner.server.inj heq)]
      rfl
  | subscriber i => rfl
  | client name => rfl

/-- An object keeps its thread when its tables change. -/
theorem Threaded.of_if (hthreaded : h.Threaded) {o : Owner} {thread : Option Nat}
    (ho : h.cleanerThread o = some thread)
    (hcleaner : ∀ o', h'.cleanerThread o' = if o' = o then some thread else h.cleanerThread o')
    (hjoinable : h'.joinable = h.joinable) (hstarted : h'.started = h.started) :
    h'.Threaded := by
  refine hthreaded.of_same (fun o' => ?_) hjoinable hstarted
  rw [hcleaner]
  by_cases heq : o' = o
  · rw [if_pos heq, heq, ho]
  · exact if_neg heq

theorem Sound.createClientProxy (hnames : OneTypePerName typeOf) (hsound : h.Sound typeOf)
    {a : ServiceAnswers} {serviceName : String} {service : Service} {callback : Cb}
    {config : ServiceConfig} {result : Bool}
    (hrequest : service.requestType = typeOf (requestTopic serviceName))
    (hreply : service.replyType = typeOf (replyTopic serviceName))
    (hcall : h.createClientProxy a serviceName service callback config = some (result, h')) :
    h'.Sound typeOf := by
  unfold SystemHandle.createClientProxy at hcall
  cases hclient : h.clients serviceName with
  | none =>
    rw [hclient] at hcall
    have hbody (texts : ServiceTexts) (c₀ : Context) :
        Triple (Progress typeOf c₀ []) _ _ _ :=
      serviceBody_triple hnames a texts serviceName hrequest hreply
        ((Client.initial.addConfig (S := S) service callback config).map Prod.fst)
    obtain ⟨client, c, rfl, hprogress, rfl, htables, hthread⟩ :=
      make_receiver hsound.typed (serviceBody_keeps _ _ _ _ _) (hbody _) hcall
    have hcontext := hsound.typed.withContext hprogress.named hprogress.extends'
    obtain ⟨added, hadded, htables⟩ := Option.map_eq_some_iff.mp htables
    refine ⟨{ hcontext with clients := ?_ }, ?_⟩
    · refine forall_set hcontext.clients ⟨⟨hrequest, hreply, ?_, ?_⟩, [(config, callback)], ?_⟩
      · exact hprogress.provided _ (List.mem_cons_of_mem _ List.mem_cons_self)
      · exact hprogress.provided _ List.mem_cons_self
      · rw [← htables]
        have hnone : (Client.initial : Client S Cb).configure client.service [] =
            some .initial := rfl
        exact configure_client_concat hnone hadded
    · refine hsound.threaded.add (o := .client serviceName) ?_ ?_ ?_ hprogress.joinable
        hprogress.started
      · show (h.clients serviceName).map _ = none
        rw [hclient]
        rfl
      · rw [cleanerThread_setClient (h.withContext c), if_pos rfl]
        exact congrArg some hthread
      · intro o ho
        rw [cleanerThread_setClient (h.withContext c), if_neg ho, cleanerThread_withContext]
  | some client =>
    rw [hclient] at hcall
    obtain ⟨added, hadded, heq⟩ := Option.map_eq_some_iff.mp hcall
    obtain ⟨-, rfl⟩ := Prod.mk.inj heq
    obtain ⟨hserves, configs, hconfigs⟩ := hsound.typed.clients serviceName client hclient
    refine ⟨{ hsound.typed with clients := ?_ }, ?_⟩
    · exact forall_set hsound.typed.clients
        ⟨hserves, _, configure_client_concat hconfigs hadded⟩
    · have ho : h.cleanerThread (.client serviceName) = some client.cleanerThread := by
        show (h.clients serviceName).map _ = _
        rw [hclient]
        rfl
      exact hsound.threaded.of_if ho (cleanerThread_setClient h serviceName _) rfl rfl

theorem Sound.createServiceProxy (hnames : OneTypePerName typeOf) (hsound : h.Sound typeOf)
    {a : ServiceAnswers} {serviceName : String} {service : Service} {config : ServiceConfig}
    {result : Bool} (hrequest : service.requestType = typeOf (requestTopic serviceName))
    (hreply : service.replyType = typeOf (replyTopic serviceName))
    (hcall : h.createServiceProxy a serviceName service config = some (result, h')) :
    h'.Sound typeOf := by
  unfold SystemHandle.createServiceProxy at hcall
  cases hserver : h.servers serviceName with
  | none =>
    rw [hserver] at hcall
    have hbody (texts : ServiceTexts) (c₀ : Context) :
        Triple (Progress typeOf c₀ []) _ _ _ :=
      serviceBody_triple hnames a texts serviceName hrequest hreply
        ((Server.initial : KeyedServer H K S).addConfig service config)
    obtain ⟨server, c, rfl, hprogress, rfl, htables, hthread⟩ :=
      make_receiver hsound.typed (serviceBody_keeps _ _ _ _ _) (hbody _) hcall
    have hcontext := hsound.typed.withContext hprogress.named hprogress.extends'
    refine ⟨{ hcontext with servers := ?_ }, ?_⟩
    · refine forall_set hcontext.servers ⟨⟨hrequest, hreply, ?_, ?_⟩, [config], ?_⟩
      · exact hprogress.provided _ (List.mem_cons_of_mem _ List.mem_cons_self)
      · exact hprogress.provided _ List.mem_cons_self
      · have hnone : (Server.initial : KeyedServer H K S).configure server.service [] =
            some .initial := rfl
        exact configure_server_concat hnone htables
    · refine hsound.threaded.add (o := .server serviceName) ?_ ?_ ?_ hprogress.joinable
        hprogress.started
      · show (h.servers serviceName).map _ = none
        rw [hserver]
        rfl
      · rw [cleanerThread_setServer (h.withContext c), if_pos rfl]
        exact congrArg some hthread
      · intro o ho
        rw [cleanerThread_setServer (h.withContext c), if_neg ho, cleanerThread_withContext]
  | some server =>
    rw [hserver] at hcall
    obtain ⟨tables, hadded, heq⟩ := Option.map_eq_some_iff.mp hcall
    obtain ⟨-, rfl⟩ := Prod.mk.inj heq
    obtain ⟨hserves, configs, hconfigs⟩ := hsound.typed.servers serviceName server hserver
    refine ⟨{ hsound.typed with servers := ?_ }, ?_⟩
    · exact forall_set hsound.typed.servers
        ⟨hserves, _, configure_server_concat hconfigs hadded⟩
    · have ho : h.cleanerThread (.server serviceName) = some server.cleanerThread := by
        show (h.servers serviceName).map _ = _
        rw [hserver]
        rfl
      exact hsound.threaded.of_if ho (cleanerThread_setServer h serviceName _) rfl rfl

/-! ## Runs -/

theorem sound_of_reachable (hnames : OneTypePerName typeOf)
    (hreach : machine.ReachableVia (fun _ call => call.Consistent typeOf) h) :
    h.Sound typeOf := by
  refine hreach.invariant ?_ ?_
  · intro h hinitial
    rw [hinitial]
    exact sound_initial typeOf
  · intro h call h' hsound hconsistent hstep
    obtain ⟨⟨result, h''⟩, hcall, rfl⟩ := Option.map_eq_some_iff.mp hstep
    cases call with
    | advertise a topicName messageType =>
      obtain rfl : messageType = typeOf topicName := hconsistent
      exact hsound.advertise hnames hcall
    | subscribe a topicName messageType =>
      obtain rfl : messageType = typeOf topicName := hconsistent
      exact hsound.subscribe hnames hcall
    | createClientProxy a serviceName service callback config =>
      exact hsound.createClientProxy hnames hconsistent.1 hconsistent.2 hcall
    | createServiceProxy a serviceName service config =>
      exact hsound.createServiceProxy hnames hconsistent.1 hconsistent.2 hcall

/-- Each object has been given data for its topics of the DDS types that its messages are converted
to, and what it needs besides. -/
structure Ready (h : SystemHandle H K S Cb) : Prop where
  topics : ∀ p ∈ h.publishers ++ h.subscribers, h.participant.Creates p.topicName p.messageType
  clients : ∀ serviceName x, h.clients serviceName = some x →
    h.participant.Creates (requestTopic serviceName) x.service.requestType ∧
      h.participant.Creates (replyTopic serviceName) x.service.replyType ∧
      ∃ configs, Client.initial.configure x.service configs = some x.tables
  servers : ∀ serviceName x, h.servers serviceName = some x →
    h.participant.Creates (requestTopic serviceName) x.service.requestType ∧
      h.participant.Creates (replyTopic serviceName) x.service.replyType ∧
      ∃ configs, Server.initial.configure x.service configs = some x.tables
  threads : h.Threaded

/-- If a name stands for one type and a topic is used with one type, then whatever the core asks
for, and whatever fails on the way, the objects that the handle has are ready, as long as the
process goes on. -/
theorem objects_ready (hnames : OneTypePerName typeOf)
    (hreach : machine.ReachableVia (fun _ call => call.Consistent typeOf) h) : h.Ready := by
  have hsound := sound_of_reachable hnames hreach
  refine ⟨fun p hp => ?_, fun serviceName x hx => ?_, fun serviceName x hx => ?_,
    hsound.threaded⟩
  · obtain ⟨htype, hprovided⟩ := hsound.typed.topics p hp
    rw [htype]
    exact hprovided.creates
  · obtain ⟨hserves, hconfigs⟩ := hsound.typed.clients serviceName x hx
    rw [hserves.requestType, hserves.replyType]
    exact ⟨hserves.request.creates, hserves.reply.creates, hconfigs⟩
  · obtain ⟨hserves, hconfigs⟩ := hsound.typed.servers serviceName x hx
    rw [hserves.requestType, hserves.replyType]
    exact ⟨hserves.request.creates, hserves.reply.creates, hconfigs⟩

def chatterTypes (topicName : String) : DynamicType :=
  if topicName = "chatter" then .structType "Chatter" [("text", .leafType "string" (.string 0))]
  else .structType "Number" [("n", .leafType "int32_t" .int32)]

theorem oneTypePerName_chatterTypes : OneTypePerName chatterTypes := by
  intro topicName topicName' hname
  unfold chatterTypes at hname ⊢
  split_ifs at hname ⊢
  · rfl
  · exact absurd hname (by decide)
  · exact absurd hname (by decide)
  · rfl

/-- The data writer of a publisher is not created, and then it is; the service is configured twice
at the client. -/
def chatterCalls : List (Call Nat) :=
  let entities : EntityAnswers := ⟨true, none, some 0, some 1⟩
  let types : TypeAnswers := ⟨true, false, true⟩
  let service : Service := 
    ⟨chatterTypes (requestTopic "add"), chatterTypes (replyTopic "add")⟩
  [.advertise ⟨types, { entities with endpoint := none }⟩ "chatter" (chatterTypes "chatter"),
    .advertise ⟨types, entities⟩ "chatter" (chatterTypes "chatter"),
    .subscribe ⟨types, entities⟩ "chatter" (chatterTypes "chatter"),
    .createServiceProxy ⟨types, types, entities, entities⟩ "add" service ⟨none, none, none, none⟩,
    .createClientProxy ⟨types, types, entities, entities⟩ "add" service 4 ⟨none, none, none, none⟩,
    .createClientProxy ⟨types, types, entities, entities⟩ "add" service 5 ⟨none, none, none, none⟩]

theorem objects_ready_chatterCalls :
    ∃ h : SystemHandle Nat Nat Nat Nat, h.publishers.length = 1 ∧ h.joinable = [0, 1, 2] ∧
      h.Ready := by
  have hrun : ((machine : Machine (SystemHandle Nat Nat Nat Nat) (Call Nat)).run .initial
      chatterCalls).map (fun h => (h.publishers.length, h.joinable)) = some (1, [0, 1, 2]) := by
    decide +kernel
  obtain ⟨h, hh, hfinal⟩ := Option.map_eq_some_iff.mp hrun
  obtain ⟨hpublishers, hjoinable⟩ := Prod.ext_iff.mp hfinal
  have hconsistent : ∀ call ∈ chatterCalls, call.Consistent chatterTypes := by
    unfold chatterCalls
    simp only [List.forall_mem_cons]
    exact ⟨rfl, rfl, rfl, ⟨rfl, rfl⟩, ⟨rfl, rfl⟩, ⟨rfl, rfl⟩, List.forall_mem_nil _⟩
  exact ⟨h, hpublishers, hjoinable, objects_ready oneTypePerName_chatterTypes
    (Machine.ReachableVia.of_run (Machine.ReachableVia.init rfl) chatterCalls hconsistent hh)⟩

end SystemHandle

end Handle

end FastDdsSh
