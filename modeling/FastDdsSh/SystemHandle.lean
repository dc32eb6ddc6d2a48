import FastDdsSh.Client
import FastDdsSh.Lib.Construction
import FastDdsSh.Lib.Transition
import FastDdsSh.Participant
import FastDdsSh.Server

/-!
# The system handle

`SystemHandle` creates a `Publisher`, `Subscriber`, `Client` or `Server` when the core asks for it.
Their constructors share the `Participant`, and create their DDS entities one after another; what
the DDS library answers is an argument.  Topics and entities are numbers, which stand for pointers.
-/

namespace FastDdsSh

open Construction Transition

/-! ## Constructors -/

/-- What the constructors work on: the builders that `Conversion` keeps, the participant, the
threads (numbered as they are started; `joinable` are those not joined), and of the object under
construction its `mtx_` and its `cleaner_thread_`. -/
structure Context where
  builders : KeyedStore String Builder
  participant : Participant
  started : Nat
  joinable : List Nat
  mtxLocked : Bool
  cleanerThread : Option Nat

abbrev Body (α : Type) := EStateM Thrown Context α

def Body.onParticipant {α : Type} (call : EStateM Thrown Participant α) : Body α := fun c =>
  match call c.participant with
  | .ok a p => .ok a { c with participant := p }
  | .error e p => .error e { c with participant := p }

/-- The answers for one side of an object: is the publisher or subscriber created, the topic that
`lookup_topicdescription` finds, the topic that is created otherwise, and the data writer or
reader. -/
structure EntityAnswers where
  group : Bool
  topicDescription : Option Nat
  topic : Option Nat
  endpoint : Option Nat
  deriving DecidableEq, Repr

/-- `Conversion::create_builder`; a null builder is found out by the caller. -/
def callCreateBuilder (t : DynamicType) : Body (Option Builder) := do
  let result := createBuilder (← get).builders t
  modify fun c => { c with builders := result.2 }
  return result.1

def registerType (a : TypeAnswers) (builder : Option Builder) (topicName : String)
    (t : DynamicType) : Body PUnit :=
  match builder with
  | some builder =>
      Body.onParticipant (Participant.registerDynamicType a topicName t.name builder)
  -- "Cannot create builder"
  | none => throw (.middleware ("Cannot create builder for type " ++ t.name))

def requireParticipant (what : String) : Body PUnit := do
  if (← get).participant.ddsParticipant = false then
    throw (.middleware what)

/-- A publisher or subscriber, its topic and its data writer or reader, which is associated to the
topic; `noGroup` and `noEndpoint` are the messages. -/
def createEntities (a : EntityAnswers) (topicName typeName noGroup noEndpoint : String) :
    Body (Nat × Nat) := do
  -- entities that were created before are not taken back
  if a.group = false then
    throw (.middleware noGroup)
  let topic ← match a.topicDescription, a.topic with
    -- a topic that is found is used, whatever its type is
    | some topic, _ | none, some topic => pure topic
    | none, none =>
        throw (.middleware ("Fast DDS topic '" ++ topicName ++ "' with type '" ++ typeName ++
          "' was not created"))
  match a.endpoint with
  | none => throw (.middleware noEndpoint)
  | some endpoint =>
      -- for the destructor to know when the topic has no entity left
      Body.onParticipant (modify (Participant.associate topic endpoint))
      return (topic, endpoint)

/-- `cleaner_thread_(&...::cleaner_function, this)`.  A `std::thread` that is destroyed while it is
joinable ends the process. -/
def cleanerThreadMember : Member Context where
  construct c :=
    { c with
      started := c.started + 1
      joinable := c.joinable ++ [c.started]
      cleanerThread := some c.started }
  destroy c :=
    match c.cleanerThread with
    | some id => if id ∈ c.joinable then none else some c
    | none => some c

def plainMembers : Member Context where
  construct c := { c with mtxLocked := false, cleanerThread := none }
  destroy c := some c

def loggerMember : Member Context where
  construct c := c
  destroy c := some c

def receiverMembers : List (Member Context) :=
  [plainMembers, cleanerThreadMember, loggerMember]

def publisherMembers : List (Member Context) :=
  [plainMembers, loggerMember]

structure TopicAnswers where
  type : TypeAnswers
  entities : EntityAnswers
  deriving DecidableEq, Repr

structure ServiceAnswers where
  requestType : TypeAnswers
  replyType : TypeAnswers
  request : EntityAnswers
  reply : EntityAnswers
  deriving DecidableEq, Repr

/-- A `Publisher` or a `Subscriber`: what it is for, its DDS entities and its thread. -/
structure TopicProxy where
  topicName : String
  messageType : DynamicType
  topic : Nat
  endpoint : Nat
  cleanerThread : Option Nat

structure ServiceProxy (T : Type) where
  service : Service
  tables : T
  request : Nat × Nat
  reply : Nat × Nat
  cleanerThread : Option Nat

def topicBody (a : TopicAnswers) (topicName : String) (messageType : DynamicType)
    (noParticipant group endpoint : String) : Body TopicProxy := do
  let builder ← callCreateBuilder messageType
  registerType a.type builder topicName messageType
  let _ ← Body.onParticipant (Participant.createDynamicData topicName)
  requireParticipant noParticipant
  let entities ← createEntities a.entities topicName messageType.name
    ("Fast DDS " ++ group ++ " for topic '" ++ topicName ++ "' was not created")
    ("Fast DDS " ++ endpoint ++ " for topic '" ++ topicName ++ "' was not created")
  return ⟨topicName, messageType, entities.1, entities.2, (← get).cleanerThread⟩

def publisherBody (a : TopicAnswers) (topicName : String) (messageType : DynamicType) :
    Body TopicProxy :=
  topicBody a topicName messageType "Trying to create a publisher without a DDS participant!"
    "publisher" "datawriter"

def subscriberBody (a : TopicAnswers) (topicName : String) (messageType : DynamicType) :
    Body TopicProxy :=
  topicBody a topicName messageType "Trying to create a subscriber without a DDS participant!"
    "subscriber" "datareader"

structure ServiceTexts where
  noRequestGroup : String
  noRequestEndpoint : String
  noReplyGroup : String
  noReplyEndpoint : String

def serviceBody {T : Type} (a : ServiceAnswers) (texts : ServiceTexts) (serviceName : String)
    (service : Service) (addConfig : Option T) : Body (ServiceProxy T) := do
  -- `mtx_.lock()`, to be released when both endpoints are matched
  modify fun c => { c with mtxLocked := true }
  match addConfig with
  -- `add_config` throws on a path that leads nowhere
  | none => throw .other
  | some tables =>
      let builderRequest ← callCreateBuilder service.requestType
      -- both builders are made before either is looked at
      let builderReply ← callCreateBuilder service.replyType
      registerType a.requestType builderRequest (serviceName ++ "_Request") service.requestType
      registerType a.replyType builderReply (serviceName ++ "_Reply") service.replyType
      let _ ← Body.onParticipant (Participant.createDynamicData (serviceName ++ "_Request"))
      let _ ← Body.onParticipant (Participant.createDynamicData (serviceName ++ "_Reply"))
      requireParticipant "Trying to create a server without a DDS participant!"
      let request ← createEntities a.request (serviceName ++ "_Request") service.requestType.name
        texts.noRequestGroup texts.noRequestEndpoint
      let reply ← createEntities a.reply (serviceName ++ "_Reply") service.replyType.name
        texts.noReplyGroup texts.noReplyEndpoint
      return ⟨service, tables, request, reply, (← get).cleanerThread⟩

section Services

variable {H K S Cb : Type}

def clientBody (a : ServiceAnswers) (serviceName : String) (service : Service) (callback : Cb)
    (config : ServiceConfig) : Body (ServiceProxy (Client S Cb)) :=
  serviceBody a
    { noRequestGroup := "Fast DDS subscriber for service '" ++ serviceName ++
        "' request was not created"
      noRequestEndpoint := "Fast DDS datareader for service '" ++ serviceName ++
        "'request was not created"
      noReplyGroup := "Fast DDS publisher for service '" ++ serviceName ++ "' reply was not created"
      noReplyEndpoint := "Fast DDS datawriter for service '" ++ serviceName ++
        "' reply was not created" }
    serviceName service ((Client.initial.addConfig service callback config).map Prod.fst)

def serverBody (a : ServiceAnswers) (serviceName : String) (service : Service)
    (config : ServiceConfig) : Body (ServiceProxy (KeyedServer H K S)) :=
  serviceBody a
    { noRequestGroup := "Fast DDS publisher for service '" ++ serviceName ++
        "' request was not created"
      noRequestEndpoint := "Fast DDS datawriter for service '" ++ serviceName ++
        "' request was not created"
      noReplyGroup := "Fast DDS subscriber for service '" ++ serviceName ++
        "' reply was not created"
      noReplyEndpoint := "Fast DDS datareader for service '" ++ serviceName ++
        "'reply was not created" }
    serviceName service (Server.initial.addConfig service config)

/-! ## The handle -/

structure SystemHandle (H K S Cb : Type) where
  builders : KeyedStore String Builder
  participant : Participant
  publishers : List TopicProxy
  subscribers : List TopicProxy
  clients : KeyedStore String (ServiceProxy (Client S Cb))
  servers : KeyedStore String (ServiceProxy (KeyedServer H K S))
  started : Nat
  joinable : List Nat

namespace SystemHandle

/-- After `configure` with a participant that could be created. -/
def initial : SystemHandle H K S Cb where
  builders := .empty
  participant := .initial
  publishers := []
  subscribers := []
  clients := .empty
  servers := .empty
  started := 0
  joinable := []

def context (h : SystemHandle H K S Cb) : Context :=
  ⟨h.builders, h.participant, h.started, h.joinable, false, none⟩

def withContext (h : SystemHandle H K S Cb) (c : Context) : SystemHandle H K S Cb :=
  { h with
    builders := c.builders
    participant := c.participant
    started := c.started
    joinable := c.joinable }

/-- `std::make_shared` within the `try` block: `keep` puts the object where it belongs, and a
`DDSMiddlewareException` is caught.  `none` is the end of the process or another exception. -/
def make {α : Type} (h : SystemHandle H K S Cb) (members : List (Member Context)) (body : Body α)
    (keep : α → SystemHandle H K S Cb → SystemHandle H K S Cb) :
    Option (Bool × SystemHandle H K S Cb) :=
  match build members body h.context with
  | some (.ok a c) => some (true, keep a (h.withContext c))
  -- the object was not made, but its participant has been changed
  | some (.error (.middleware _) c) => some (false, h.withContext c)
  | _ => none

def subscribe (h : SystemHandle H K S Cb) (a : TopicAnswers) (topicName : String)
    (messageType : DynamicType) : Option (Bool × SystemHandle H K S Cb) :=
  h.make receiverMembers (subscriberBody a topicName messageType) fun subscriber h =>
    { h with subscribers := h.subscribers ++ [subscriber] }

def advertise (h : SystemHandle H K S Cb) (a : TopicAnswers) (topicName : String)
    (messageType : DynamicType) : Option (Bool × SystemHandle H K S Cb) :=
  h.make publisherMembers (publisherBody a topicName messageType) fun publisher h =>
    { h with publishers := h.publishers ++ [publisher] }

def createClientProxy (h : SystemHandle H K S Cb) (a : ServiceAnswers) (serviceName : String)
    (service : Service) (callback : Cb) (config : ServiceConfig) :
    Option (Bool × SystemHandle H K S Cb) :=
  match h.clients serviceName with
  | none =>
      h.make receiverMembers (clientBody a serviceName service callback config) fun client h =>
        { h with clients := h.clients.set serviceName client }
  -- a client that is there gets another configuration
  | some client =>
      (client.tables.addConfig client.service callback config).map fun added =>
        (added.2, { h with
          clients := h.clients.set serviceName { client with tables := added.1 } })

def createServiceProxy (h : SystemHandle H K S Cb) (a : ServiceAnswers) (serviceName : String)
    (service : Service) (config : ServiceConfig) : Option (Bool × SystemHandle H K S Cb) :=
  match h.servers serviceName with
  | none =>
      h.make receiverMembers (serverBody a serviceName service config) fun server h =>
        { h with servers := h.servers.set serviceName server }
  -- `add_config` of a `Server` returns `true`
  | some server =>
      (server.tables.addConfig server.service config).map fun tables =>
        (true, { h with servers := h.servers.set serviceName { server with tables := tables } })

end SystemHandle

inductive Call (Cb : Type) where
  | advertise (a : TopicAnswers) (topicName : String) (messageType : DynamicType)
  | subscribe (a : TopicAnswers) (topicName : String) (messageType : DynamicType)
  | createClientProxy (a : ServiceAnswers) (serviceName : String) (service : Service)
      (callback : Cb) (config : ServiceConfig)
  | createServiceProxy (a : ServiceAnswers) (serviceName : String) (service : Service)
      (config : ServiceConfig)

namespace SystemHandle

def perform (h : SystemHandle H K S Cb) : Call Cb → Option (Bool × SystemHandle H K S Cb)
  | .advertise a topicName messageType => h.advertise a topicName messageType
  | .subscribe a topicName messageType => h.subscribe a topicName messageType
  | .createClientProxy a serviceName service callback config =>
      h.createClientProxy a serviceName service callback config
  | .createServiceProxy a serviceName service config =>
      h.createServiceProxy a serviceName service config

/-- Any sequence of calls with any answers of the library, as long as the process goes on. -/
def machine : Machine (SystemHandle H K S Cb) (Call Cb) where
  init h := h = .initial
  step h call := (h.perform call).map Prod.snd

end SystemHandle

end Services

end FastDdsSh
