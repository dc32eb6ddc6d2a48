import FastDdsSh.Lib.Container
import FastDdsSh.Service

/-!
# Server

A `Server` sends the requests of Integration Service clients to a DDS server and gives its replies
back to them.  `H`, `K` and `S` stand for call handles, `ServiceClient` pointers and sample
identities, `N`, `M` and `L` for the maps from names, from call handles and from sample identities.
`none` is an exception.
-/

namespace FastDdsSh

structure Server (N M L : Type → Type) (H K : Type) where
  typeToDiscriminator : N String
  requestReply : N String
  callhandleClient : M K
  sampleCallhandle : L H
  replyIdType : L String

/-- A server of whose maps only what is found in them is known. -/
abbrev KeyedServer (H K S : Type) := Server (KeyedStore String) (KeyedStore H) (KeyedStore S) H K

namespace Server

open Container

variable {N M L : Type → Type} {H K S : Type}

def initial : KeyedServer H K S where
  typeToDiscriminator := .empty
  requestReply := .empty
  callhandleClient := .empty
  sampleCallhandle := .empty
  replyIdType := .empty

variable [Container N String]

def setDiscriminator (s : Server N M L H K) (typeName disc : String) : Server N M L H K :=
  { s with typeToDiscriminator := set s.typeToDiscriminator typeName disc }

def setReply (s : Server N M L H K) (request reply : String) : Server N M L H K :=
  { s with requestReply := set s.requestReply request reply }

def addType (service : Service) (config : ServiceConfig) (s : Server N M L H K) (disc : String) :
    Option (Server N M L H K) :=
  (service.requestType.resolveDiscriminatorType disc).map fun memberType =>
    let req := stripped memberType.name
    let s := s.setDiscriminator req disc
    match config.type with
    -- an alias for the path from another name of the type
    | some other => if other ≠ req then s.setDiscriminator other disc else s
    | none => s

def addRequestType (service : Service) (config : ServiceConfig) (s : Server N M L H K) :
    Option String → Option (Server N M L H K × String × String)
  | none => some (s, "", "")
  | some disc =>
      (service.requestType.resolveDiscriminatorType disc).map fun memberType =>
        let req := stripped memberType.name
        let s := s.setDiscriminator req disc
        match config.requestType with
        -- the alias is handed on, for the reply type to be entered under it too
        | some other =>
            if other ≠ req then (s.setDiscriminator other disc, req, other) else (s, req, "")
        | none => (s, req, "")

/-- The part for `remap.dds.reply_type`.  The configured name is compared with the request's. -/
def addReplyType (service : Service) (config : ServiceConfig) (s : Server N M L H K)
    (req reqAlias : String) : Option String → Option (Server N M L H K)
  | none => some s
  | some disc =>
      (service.replyType.resolveDiscriminatorType disc).map fun memberType =>
        let rep := stripped memberType.name
        -- `req` is the empty name if there is no key for the request
        let s := (s.setReply req rep).setDiscriminator rep disc
        match config.replyType with
        | some other =>
            -- `req`, not `rep`; and `req_alias` is empty if no alias was read
            if other ≠ req then (s.setDiscriminator other disc).setReply reqAlias rep else s
        | none => s

def addConfig (service : Service) (s : Server N M L H K) (config : ServiceConfig) :
    Option (Server N M L H K) :=
  match config.remap with
  | none => some s
  | some remap =>
      match remap.type with
      -- the key `type` is for requests, and the other keys are not looked at beside it
      | some disc => addType service config s disc
      | none =>
          (addRequestType service config s remap.requestType).bind fun (s, req, reqAlias) =>
            addReplyType service config s req reqAlias remap.replyType

def configure (service : Service) (s : Server N M L H K) (configs : List ServiceConfig) :
    Option (Server N M L H K) :=
  configs.foldlM (addConfig service) s

variable [Container M H] [Container L S]

/-- What `call_service` does under `mtx_` once the request is converted: `written` is the sample
identity of the write, `none` if the write fails. -/
def issueCall (s : Server N M L H K) (typeName : String) (handle : H) (client : K)
    (written : Option S) : Server N M L H K :=
  -- before the write, and not taken back if it fails
  let s := { s with callhandleClient := set s.callhandleClient handle client }
  match written with
  | none => s
  | some sample =>
      let s := { s with sampleCallhandle := set s.sampleCallhandle sample handle }
      match find s.requestReply typeName with
      | some rep => { s with replyIdType := set s.replyIdType sample rep }
      | none => s

/-- `Server::call_service` for data `v` of type `t`, with the service request it builds;
`converted` is the result of `xtypes_to_fastdds`. -/
def callService [Xtypes] (service : Service) (s : Server N M L H K) (t : DynamicType) (v : Value)
    (handle : H) (client : K) (converted : Bool) (written : Option S) :
    Option (Server N M L H K × Value) :=
  -- the subscript enters an empty path for a name that is not registered
  let found := subscript s.typeToDiscriminator (stripped t.name) ""
  (service.requestType.default.assign service.requestType (memberPath found.1) t v).map
    fun request =>
      let s := { s with typeToDiscriminator := found.2 }
      (if converted then s.issueCall t.name handle client written else s, request)

def lookupCall (s : Server N M L H K) (sample : S) : Option H :=
  find s.sampleCallhandle sample

/-- The path of the reply for a sample identity; an entry of `reply_id_type_` is consumed. -/
def takeReplyPath (service : Service) (s : Server N M L H K) (sample : S) :
    String × Server N M L H K :=
  match find s.replyIdType sample with
  | some rep =>
      let found := subscript s.typeToDiscriminator rep ""
      (found.1,
        { s with typeToDiscriminator := found.2, replyIdType := erase s.replyIdType sample })
  | none => (service.replyType.name, s)

/-- The second critical section of `Server::receive` for the converted reply `received`, with the
client that is called and the type and value of the message it gets. -/
def deliverReply [Xtypes] (service : Service) (s : Server N M L H K) (sample : S) (handle : H)
    (received : Value) : Option (Server N M L H K × Option (K × DynamicType × Value)) :=
  let found := s.takeReplyPath service sample
  let s := found.2
  (received.component service.replyType (memberPath found.1)).map fun message =>
    match find s.callhandleClient handle with
    | some client =>
        ({ s with
            callhandleClient := erase s.callhandleClient handle
            sampleCallhandle := erase s.sampleCallhandle sample }, some (client, message))
    -- the call handle is kept where there is no client for it
    | none => (s, none)

/-! ## What the critical sections read and write -/

variable [DecidableEq H] [DecidableEq S]

theorem callService_written [Xtypes] (service : Service) (s : KeyedServer H K S) (t : DynamicType)
    (v : Value) (handle : H) (client : K) (sample : S) :
    s.callService service t v handle client true (some sample) =
      (service.requestType.default.assign service.requestType
        (memberPath ((s.typeToDiscriminator (stripped t.name)).getD "")) t v).map fun request =>
          ({ s with
              typeToDiscriminator :=
                (s.typeToDiscriminator.subscript (stripped t.name) "").2 }.issueCall
            t.name handle client (some sample), request) := by
  simp only [callService, subscript_keyedStore, KeyedStore.subscript_fst, if_true]

omit [DecidableEq H] in
theorem takeReplyPath_path (service : Service) (s : KeyedServer H K S) (sample : S) :
    (s.takeReplyPath service sample).1 =
      match s.replyIdType sample with
      | some rep => (s.typeToDiscriminator rep).getD ""
      | none => service.replyType.name := by
  simp only [takeReplyPath, find_keyedStore, subscript_keyedStore]
  cases s.replyIdType sample with
  | some rep => exact KeyedStore.subscript_fst _ _ _
  | none => rfl

omit [DecidableEq H] in
theorem takeReplyPath_callhandleClient (service : Service) (s : KeyedServer H K S) (sample : S) :
    (s.takeReplyPath service sample).2.callhandleClient = s.callhandleClient := by
  unfold takeReplyPath
  split <;> rfl

omit [DecidableEq H] in
theorem takeReplyPath_sampleCallhandle (service : Service) (s : KeyedServer H K S) (sample : S) :
    (s.takeReplyPath service sample).2.sampleCallhandle = s.sampleCallhandle := by
  unfold takeReplyPath
  split <;> rfl

/-- A written call is found under its sample and its handle, and remembers the reply type. -/
theorem issueCall_written (s : KeyedServer H K S) (typeName : String) (handle : H) (client : K)
    (sample : S) :
    (s.issueCall typeName handle client (some sample)).sampleCallhandle =
        s.sampleCallhandle.set sample handle ∧
      (s.issueCall typeName handle client (some sample)).callhandleClient =
        s.callhandleClient.set handle client ∧
      (s.issueCall typeName handle client (some sample)).replyIdType =
        (match s.requestReply typeName with
        | some rep => s.replyIdType.set sample rep
        | none => s.replyIdType) ∧
      (s.issueCall typeName handle client (some sample)).typeToDiscriminator =
        s.typeToDiscriminator := by
  cases h : s.requestReply typeName <;> simp [issueCall, h]

theorem deliverReply_of_client [Xtypes] (service : Service) {s : KeyedServer H K S} (sample : S)
    {handle : H} {client : K} (hclient : s.callhandleClient handle = some client)
    (received : Value) :
    (s.deliverReply service sample handle received).map Prod.snd =
      (received.component service.replyType
        (memberPath (s.takeReplyPath service sample).1)).map fun message =>
          some (client, message) := by
  have hsame := takeReplyPath_callhandleClient service s sample
  rw [← hsame] at hclient
  unfold deliverReply
  rw [Option.map_map]
  congr 1
  funext message
  simp only [Function.comp_apply, find_keyedStore, hclient]

/-- The handle is consumed by the reply that finds its client, and by no other. -/
theorem deliverReply_cases [Xtypes] {service : Service} {s s' : KeyedServer H K S} {sample : S}
    {handle : H} {received : Value} {out : Option (K × DynamicType × Value)}
    (h : s.deliverReply service sample handle received = some (s', out)) :
    (∃ client message, s.callhandleClient handle = some client ∧ out = some (client, message) ∧
      s'.callhandleClient = s.callhandleClient.erase handle ∧
      s'.sampleCallhandle = s.sampleCallhandle.erase sample) ∨
    (s.callhandleClient handle = none ∧ out = none ∧
      s'.callhandleClient = s.callhandleClient ∧ s'.sampleCallhandle = s.sampleCallhandle) := by
  have hclients := takeReplyPath_callhandleClient service s sample
  have hsamples := takeReplyPath_sampleCallhandle service s sample
  unfold deliverReply at h
  obtain ⟨message, -, heq⟩ := Option.map_eq_some_iff.mp h
  rw [hclients, find_keyedStore] at heq
  cases hclient : s.callhandleClient handle with
  | some client =>
    rw [hclient] at heq
    obtain ⟨rfl, rfl⟩ := Prod.mk.inj heq
    exact .inl ⟨client, message, rfl, rfl, rfl, by rw [← hsamples, ← erase_keyedStore]⟩
  | none =>
    rw [hclient] at heq
    obtain ⟨rfl, rfl⟩ := Prod.mk.inj heq
    exact .inr ⟨rfl, rfl, hclients, hsamples⟩

end Server

end FastDdsSh
