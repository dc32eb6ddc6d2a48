import FastDdsSh.Navigation
import FastDdsSh.Service

/-!
# Client

A `Client` receives the requests of DDS clients, gives each to the callback of an Integration
Service server and writes the response back.  `S` and `Cb` stand for sample identities and callback
pointers.  The handle that a callback gets is the sample identity of the request.
-/

namespace FastDdsSh

structure Client (S Cb : Type) where
  typeToDiscriminator : KeyedStore String String
  memberTypes : List String
  callbacks : KeyedStore String Cb
  requestReply : KeyedStore String String
  memberTree : KeyedStore String NavigationNode
  replyIdType : KeyedStore S String

namespace Client

variable {S Cb : Type}

def initial : Client S Cb where
  typeToDiscriminator := .empty
  memberTypes := []
  callbacks := .empty
  requestReply := .empty
  memberTree := .empty
  replyIdType := .empty

/-! ## Configuration -/

def addMemberType (c : Client S Cb) (typeName disc : String) : Client S Cb :=
  { c with
    typeToDiscriminator := c.typeToDiscriminator.set typeName disc
    memberTypes := c.memberTypes ++ [typeName] }

def addMember (c : Client S Cb) (t : DynamicType) (path : String) : Client S Cb :=
  -- the root that is kept under the type's name, or one made for it
  let root := (c.memberTree t.name).getD .fresh
  { c with memberTree := c.memberTree.set t.name (root.fillRootNode t path) }

def addRequestConfig (service : Service) (callback : Cb) (c : Client S Cb) (disc : String) :
    Option (Client S Cb × String) :=
  (service.requestType.resolveDiscriminatorType disc).map fun memberType =>
    let typeName := stripped memberType.name
    let c := c.addMemberType typeName disc
    let c := { c with callbacks := c.callbacks.set typeName callback }
    (c.addMember service.requestType disc, typeName)

/-- `add_member_config` for a reply.  It is refused after the type has been registered. -/
def addReplyConfig (service : Service) (req : String) (c : Client S Cb) (disc : String) :
    Option (Client S Cb × Bool) :=
  (service.replyType.resolveDiscriminatorType disc).map fun memberType =>
    let typeName := stripped memberType.name
    let c := c.addMemberType typeName disc
    -- "request type cannot be empty" is logged, with the type registered already
    if req = "" then (c, false)
    else
      let c := { c with requestReply := c.requestReply.set req typeName }
      (c.addMember service.replyType disc, true)

inductive Progress where
  | refused
  | callbackSet (set : Bool)
  deriving DecidableEq, Repr

def addRequestKey (service : Service) (callback : Cb) (c : Client S Cb) :
    Option String → Option (Client S Cb × String × Bool)
  | none => some (c, "", false)
  | some disc => (addRequestConfig service callback c disc).map fun (c, req) => (c, req, true)

def addReplyKey (service : Service) (req : String) (set : Bool) (c : Client S Cb) :
    Option String → Option (Client S Cb × Progress)
  | none => some (c, .callbackSet set)
  | some disc =>
      (addReplyConfig service req c disc).map fun (c, added) =>
        (c, if added = true then .callbackSet set else .refused)

/-- The keys `type`, or `request_type` and `reply_type`, of one level of the configuration. -/
def addKeys (service : Service) (callback : Cb) (c : Client S Cb)
    (type requestType replyType : Option String) : Option (Client S Cb × Progress) :=
  match type with
  | some disc =>
      (addRequestConfig service callback c disc).map fun (c, _) => (c, .callbackSet true)
  -- `req` stays empty without the key `request_type`
  | none =>
      (addRequestKey service callback c requestType).bind fun (c, req, set) =>
        addReplyKey service req set c replyType

def addRemap (service : Service) (callback : Cb) (c : Client S Cb) :
    Option Remap → Option (Client S Cb × Progress)
  | none => some (c, .callbackSet false)
  | some remap => addKeys service callback c remap.type remap.requestType remap.replyType

/-- `Client::add_config`; the second level is read if the first has set no callback. -/
def addConfig (service : Service) (callback : Cb) (c : Client S Cb) (config : ServiceConfig) :
    Option (Client S Cb × Bool) :=
  (addRemap service callback c config.remap).bind fun (c, progress) =>
    match progress with
    | .refused => some (c, false)
    | .callbackSet true => some (c, true)
    -- only a request sets a callback, so the second level is read after a reply alone
    | .callbackSet false =>
        (addKeys service callback c config.type config.requestType config.replyType).map
          fun (c, progress) => (c, decide (progress = .callbackSet true))

def configure (service : Service) (c : Client S Cb) (configs : List (ServiceConfig × Cb)) :
    Option (Client S Cb) :=
  configs.foldlM (fun c (config, callback) => (addConfig service callback c config).map Prod.fst) c

/-! ## Requests and responses -/

variable [DecidableEq S]

def rememberReply (c : Client S Cb) (sample : S) (typeName : String) : Client S Cb :=
  match c.requestReply typeName with
  | some rep => { c with replyIdType := c.replyIdType.set sample rep }
  | none => c

structure Invocation (S Cb : Type) where
  callback : Cb
  path : String
  messageType : DynamicType
  message : Value
  handle : S
  deriving Repr, BEq

/-- What becomes of a request: `nullNode` is the use of a null node, `exception` a path that leads
nowhere. -/
inductive Reception (S Cb : Type) where
  | nullNode
  | exception (c : Client S Cb)
  | done (c : Client S Cb) (invoked : Option (Invocation S Cb))

def selectMember (service : Service) (c : Client S Cb) (received : Value) :
    Option NavigationNode.Selected :=
  NavigationNode.getDiscriminator c.memberTree service.requestType.resolve received c.memberTypes

def invocation [Xtypes] (service : Service) (c : Client S Cb) (sample : S) (received : Value)
    (path : String) : Option (Option (Invocation S Cb)) :=
  (received.component service.requestType (memberPath path)).map fun (t, message) =>
    (c.callbacks t.name).map fun callback => ⟨callback, path, t, message, sample⟩

def receive [Xtypes] (service : Service) (c : Client S Cb) (sample : S) (received : Value) :
    Reception S Cb :=
  match c.selectMember service received with
  -- `member->type_name` of a null pointer
  | none => .nullNode
  | some member =>
      -- the reply type is remembered before it is known whether there is a callback
      let c := c.rememberReply sample member.typeName
      match c.invocation service sample received member.path with
      | none => .exception c
      | some invoked => .done c invoked

def takeReplyPath (service : Service) (c : Client S Cb) (sample : S) : String × Client S Cb :=
  match c.replyIdType sample with
  | some rep =>
      -- `operator[]`: a type without a path gets the empty one
      let found := c.typeToDiscriminator.subscript rep ""
      (found.1,
        { c with typeToDiscriminator := found.2, replyIdType := c.replyIdType.erase sample })
  -- nothing was remembered, and the response is the whole reply
  | none => (service.replyType.name, c)

def buildReply [Xtypes] (service : Service) (path : String) (t : DynamicType) (response : Value) :
    Option Value :=
  service.replyType.default.assign service.replyType (memberPath path) t response

structure WrittenReply (S : Type) where
  relatedSampleIdentity : S
  reply : Value
  deriving Repr, BEq

def receiveResponse [Xtypes] (service : Service) (c : Client S Cb) (sample : S) (t : DynamicType)
    (response : Value) : Option (Client S Cb × WrittenReply S) :=
  let found := c.takeReplyPath service sample
  (buildReply service found.1 t response).map fun reply => (found.2, ⟨sample, reply⟩)

inductive Operation (S : Type) where
  | receive (sample : S) (received : Value)
  | receiveResponse (sample : S) (t : DynamicType) (response : Value)

def Operation.sample : Operation S → S
  | receive sample _ => sample
  | receiveResponse sample _ _ => sample

def perform [Xtypes] (service : Service) (c : Client S Cb) : Operation S → Client S Cb
  | .receive sample received =>
      match c.receive service sample received with
      | .nullNode => c
      | .exception c' => c'
      | .done c' _ => c'
  | .receiveResponse sample _ _ => (c.takeReplyPath service sample).2

/-! ## What the critical sections read and write -/

def replyPath (service : Service) (c : Client S Cb) (typeName : String) : String :=
  match c.requestReply typeName with
  | some rep => (c.typeToDiscriminator rep).getD ""
  | none => service.replyType.name

def rememberedPath (service : Service) (c : Client S Cb) (sample : S) : String :=
  match c.replyIdType sample with
  | some rep => (c.typeToDiscriminator rep).getD ""
  | none => service.replyType.name

theorem takeReplyPath_path (service : Service) (c : Client S Cb) (sample : S) :
    (c.takeReplyPath service sample).1 = c.rememberedPath service sample := by
  unfold takeReplyPath rememberedPath
  split
  · exact KeyedStore.subscript_fst _ _ _
  · rfl

/-- For a new sample the path is remembered that belongs to the type of the node. -/
theorem rememberedPath_rememberReply {c : Client S Cb} {sample : S}
    (h : c.replyIdType sample = none)
    (service : Service) (typeName : String) :
    (c.rememberReply sample typeName).rememberedPath service sample =
      c.replyPath service typeName := by
  unfold rememberReply replyPath rememberedPath
  cases hreply : c.requestReply typeName with
  | none => simp only [h]
  | some rep => simp only [KeyedStore.set_self]

/-- Remembering the reply type of one request does not touch those of others. -/
theorem rememberedPath_rememberReply_ne {sample sample' : S} (h : sample' ≠ sample)
    (service : Service) (c : Client S Cb) (typeName : String) :
    (c.rememberReply sample typeName).rememberedPath service sample' =
      c.rememberedPath service sample' := by
  unfold rememberReply rememberedPath
  cases c.requestReply typeName with
  | none => rfl
  | some rep => simp only [KeyedStore.set_ne _ _ h]

/-- Nor does answering it. -/
theorem rememberedPath_takeReplyPath_ne {sample sample' : S} (h : sample' ≠ sample)
    (service : Service) (c : Client S Cb) :
    (c.takeReplyPath service sample).2.rememberedPath service sample' =
      c.rememberedPath service sample' := by
  unfold takeReplyPath
  split
  · unfold rememberedPath
    simp only [KeyedStore.erase_ne _ h, KeyedStore.getD_subscript]
  · rfl

theorem replyPath_rememberReply (service : Service) (c : Client S Cb) (sample : S)
    (typeName typeName' : String) :
    (c.rememberReply sample typeName).replyPath service typeName' =
      c.replyPath service typeName' := by
  unfold rememberReply replyPath
  cases c.requestReply typeName <;> rfl

theorem replyPath_takeReplyPath (service : Service) (c : Client S Cb) (sample : S)
    (typeName : String) :
    (c.takeReplyPath service sample).2.replyPath service typeName =
      c.replyPath service typeName := by
  unfold takeReplyPath
  split
  · unfold replyPath
    simp only [KeyedStore.getD_subscript]
  · rfl

theorem replyIdType_rememberReply_ne {sample sample' : S} (h : sample' ≠ sample) (c : Client S Cb)
    (typeName : String) :
    (c.rememberReply sample typeName).replyIdType sample' = c.replyIdType sample' := by
  unfold rememberReply
  split
  · exact KeyedStore.set_ne _ _ h
  · rfl

theorem replyIdType_takeReplyPath (service : Service) {c : Client S Cb} (sample : S) {sample' : S}
    (h : c.replyIdType sample' = none) :
    (c.takeReplyPath service sample).2.replyIdType sample' = none := by
  unfold takeReplyPath
  split
  · by_cases hsame : sample' = sample
    · rw [hsame]
      exact KeyedStore.erase_self _ _
    · exact (KeyedStore.erase_ne _ hsame).trans h
  · exact h

theorem selectMember_rememberReply (service : Service) (c : Client S Cb) (sample : S)
    (typeName : String) (received : Value) :
    (c.rememberReply sample typeName).selectMember service received =
      c.selectMember service received := by
  unfold rememberReply
  split <;> rfl

theorem selectMember_takeReplyPath (service : Service) (c : Client S Cb) (sample : S)
    (received : Value) :
    (c.takeReplyPath service sample).2.selectMember service received =
      c.selectMember service received := by
  unfold takeReplyPath
  split <;> rfl

theorem rememberReply_callbacks (c : Client S Cb) (sample : S) (typeName : String) :
    (c.rememberReply sample typeName).callbacks = c.callbacks := by
  unfold rememberReply
  split <;> rfl

/-- The operations of other requests do not touch what is remembered for a sample. -/
theorem rememberedPath_perform_ne [Xtypes] (service : Service) (c : Client S Cb)
    {op : Operation S} {sample : S} (h : op.sample ≠ sample) :
    (c.perform service op).rememberedPath service sample = c.rememberedPath service sample := by
  cases op with
  | receive sample' received =>
    have hne : sample ≠ sample' := Ne.symm h
    show (match c.receive service sample' received with
      | .nullNode => c
      | .exception c' => c'
      | .done c' _ => c').rememberedPath service sample = _
    unfold receive
    cases c.selectMember service received with
    | none => rfl
    | some member =>
      have hsame := rememberedPath_rememberReply_ne hne service c member.typeName
      dsimp only
      cases (c.rememberReply sample' member.typeName).invocation service sample' received
          member.path with
      | none => exact hsame
      | some invoked => exact hsame
  | receiveResponse sample' t response =>
    exact rememberedPath_takeReplyPath_ne (Ne.symm h) service c

theorem rememberedPath_performAll_ne [Xtypes] (service : Service) (c : Client S Cb)
    {ops : List (Operation S)} {sample : S} (h : ∀ op ∈ ops, op.sample ≠ sample) :
    (ops.foldl (perform service) c).rememberedPath service sample =
      c.rememberedPath service sample := by
  induction ops generalizing c with
  | nil => rfl
  | cons op ops ih =>
    rw [List.foldl_cons, ih _ fun op' hop' => h op' (List.mem_cons_of_mem _ hop'),
      rememberedPath_perform_ne service c (h op List.mem_cons_self)]

theorem receiveResponse_eq [Xtypes] (service : Service) (c : Client S Cb) (sample : S)
    (t : DynamicType) (response : Value) :
    c.receiveResponse service sample t response =
      (buildReply service (c.rememberedPath service sample) t response).map fun reply =>
        ((c.takeReplyPath service sample).2, ⟨sample, reply⟩) := by
  rw [← takeReplyPath_path]
  rfl

theorem receiveResponse_of_assign [Xtypes] {service : Service} {c : Client S Cb} {sample : S}
    {t : DynamicType} {response reply : Value}
    (h : service.replyType.default.assign service.replyType
      (memberPath (c.rememberedPath service sample)) t response = some reply) :
    c.receiveResponse service sample t response =
      some ((c.takeReplyPath service sample).2, ⟨sample, reply⟩) := by
  rw [receiveResponse_eq, buildReply, h, Option.map_some]

end Client

end FastDdsSh
