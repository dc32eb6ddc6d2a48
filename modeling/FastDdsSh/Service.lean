import FastDdsSh.DataAccess

/-!
# Service types and their configuration

What `Client` and `Server` are constructed for, and the keys of the YAML node that their
`add_config` reads.
-/

namespace FastDdsSh

structure Service where
  requestType : DynamicType
  replyType : DynamicType

structure Remap where
  type : Option String
  requestType : Option String
  replyType : Option String
  deriving DecidableEq, Repr

structure ServiceConfig where
  remap : Option Remap
  type : Option String
  requestType : Option String
  replyType : Option String
  deriving DecidableEq, Repr

/-- The configuration remaps the request to the member at `request` and the reply to the one at
`reply`, both valid paths. -/
structure ServiceConfig.Remaps (config : ServiceConfig) (service : Service)
    (request reply : String) : Prop where
  remap : config.remap = some ⟨none, some request, some reply⟩
  request : service.requestType.ValidPath request
  reply : service.replyType.ValidPath reply

def registeredName (t : DynamicType) (path : String) : String :=
  stripped ((t.resolveDiscriminatorType path).elim "" DynamicType.name)

structure RemapEntry where
  config : ServiceConfig
  request : String
  reply : String

def RemapEntry.Valid (service : Service) (e : RemapEntry) : Prop :=
  e.config.Remaps service e.request e.reply

/-- The paths of an entry resolve to types, so that `add_config` does not throw. -/
structure RemapEntry.Resolves (service : Service) (e : RemapEntry) : Prop where
  remap : e.config.remap = some ⟨none, some e.request, some e.reply⟩
  request : (service.requestType.resolveDiscriminatorType e.request).isSome = true
  reply : (service.replyType.resolveDiscriminatorType e.reply).isSome = true

theorem RemapEntry.Valid.resolves {service : Service} {e : RemapEntry} (h : e.Valid service) :
    e.Resolves service :=
  ⟨h.remap, h.request.resolveDiscriminatorType_isSome, h.reply.resolveDiscriminatorType_isSome⟩

theorem registeredName_eq {t : DynamicType} {path : String}
    (h : (t.resolveDiscriminatorType path).isSome = true) :
    ∃ u, t.resolveDiscriminatorType path = some u ∧ registeredName t path = stripped u.name := by
  obtain ⟨u, hu⟩ := Option.isSome_iff_exists.mp h
  exact ⟨u, hu, by rw [registeredName, hu]; rfl⟩

def TwoValued (t : DynamicType) : Prop :=
  ∃ v w, t.admits v = true ∧ t.admits w = true ∧ v ≠ w

end FastDdsSh
