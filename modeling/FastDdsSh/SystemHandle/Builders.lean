import FastDdsSh.Conversion.Counterpart
import FastDdsSh.SystemHandle

/-!
# What becomes of a null builder

The constructors of `Publisher`, `Subscriber`, `Client` and `Server` throw a
`DDSMiddlewareException` if `create_builder` gives them a null builder.
-/

namespace FastDdsSh

open Construction

def Thrown.IsMiddleware (e : Thrown) : Prop :=
  ∃ what, e = .middleware what

theorem registerType_none_raises (a : TypeAnswers) (topicName : String) (t : DynamicType)
    (c : Context) : Raises Thrown.IsMiddleware (registerType a none topicName t) c :=
  ⟨_, c, rfl, _, rfl⟩

/-- With a participant, a registration that does not return throws a `DDSMiddlewareException`. -/
theorem registerType_returns_or_raises (a : TypeAnswers) (builder : Option Builder)
    (topicName : String) (t : DynamicType) {c : Context}
    (hc : c.participant.ddsParticipant = true) :
    (∃ c', registerType a builder topicName t c = .ok ⟨⟩ c') ∨
      Raises Thrown.IsMiddleware (registerType a builder topicName t) c := by
  cases builder with
  | none => exact .inr (registerType_none_raises a topicName t c)
  | some builder =>
    unfold registerType Raises Body.onParticipant
    simp only [Participant.registerDynamicType_eq]
    split_ifs with htopic htype hbuilt hdds hregistered
    · exact .inl ⟨_, rfl⟩
    · exact .inl ⟨_, rfl⟩
    · exact .inr ⟨_, _, rfl, _, rfl⟩
    · rw [hc] at hdds
      cases hdds
    · exact .inr ⟨_, _, rfl, _, rfl⟩
    · exact .inl ⟨_, rfl⟩

theorem callCreateBuilder_eq (t : DynamicType) (c : Context) :
    callCreateBuilder t c =
      .ok (createBuilder c.builders t).1 { c with builders := (createBuilder c.builders t).2 } :=
  rfl

/-- The body of `Publisher` and `Subscriber`, with a null builder. -/
theorem topicBody_raises {c : Context} {t : DynamicType}
    (h : (createBuilder c.builders t).1 = none) (a : TopicAnswers)
    (topicName noParticipant group endpoint : String) :
    Raises Thrown.IsMiddleware (topicBody a topicName t noParticipant group endpoint) c := by
  unfold topicBody
  apply Raises.bind_right (callCreateBuilder_eq t c)
  rw [h]
  exact Raises.bind_left (registerType_none_raises _ _ _ _)

/-- The body of `Client` and `Server`, with a null builder for the request or the reply. -/
theorem serviceBody_raises {T : Type} {c : Context} {service : Service}
    (hc : c.participant.ddsParticipant = true)
    (h : (createBuilder c.builders service.requestType).1 = none ∨
      (createBuilder (createBuilder c.builders service.requestType).2 service.replyType).1 = none)
    (a : ServiceAnswers) (texts : ServiceTexts) (serviceName : String) (tables : T) :
    Raises Thrown.IsMiddleware (serviceBody a texts serviceName service (some tables)) c := by
  have hlock : (modify fun c : Context => { c with mtxLocked := true } : Body PUnit) c =
      .ok ⟨⟩ { c with mtxLocked := true } := rfl
  unfold serviceBody
  apply Raises.bind_right hlock
  apply Raises.bind_right (callCreateBuilder_eq _ _)
  apply Raises.bind_right (callCreateBuilder_eq _ _)
  -- whether the request's type is registered or not, the reply's builder is looked at after it
  rcases registerType_returns_or_raises a.requestType
      (createBuilder c.builders service.requestType).1 (serviceName ++ "_Request")
      service.requestType
      (c := ⟨(createBuilder (createBuilder c.builders service.requestType).2 service.replyType).2,
        c.participant, c.started, c.joinable, true, c.cleanerThread⟩) hc with
    ⟨c', hreturns⟩ | hraises
  · apply Raises.bind_right hreturns
    rcases h with h | h
    · rw [h] at hreturns
      cases hreturns
    · apply Raises.bind_left
      dsimp only
      rw [h]
      exact registerType_none_raises _ _ _ _
  · exact Raises.bind_left hraises

/-- Whenever `create_builder` gives a constructor a null builder, the constructor throws. -/
def NullBuildersReported (c : Context) : Prop :=
  (∀ t, (createBuilder c.builders t).1 = none → ∀ a topicName,
    Raises Thrown.IsMiddleware (publisherBody a topicName t) c ∧
      Raises Thrown.IsMiddleware (subscriberBody a topicName t) c) ∧
  ∀ service : Service, (createBuilder c.builders service.requestType).1 = none ∨
      (createBuilder (createBuilder c.builders service.requestType).2 service.replyType).1 = none →
    ∀ {T : Type} a texts serviceName (tables : T),
      Raises Thrown.IsMiddleware (serviceBody a texts serviceName service (some tables)) c

/-- `create_builder` is all or nothing exactly if the type that the builder is made from leads to a
bitset, or has a counterpart for each component; the constructors report every null builder. -/
theorem createBuilder_allOrNothing_iff (earlier : List DynamicType) (t : DynamicType) :
    (AllOrNothing (buildersAfter earlier) t ↔
      (builderSource earlier t).leadsToBitset = true ∨
        t.agrees (builderSource earlier t) = true) ∧
    ∀ c : Context, c.participant.ddsParticipant = true → NullBuildersReported c := by
  constructor
  · exact allOrNothing_iff earlier t
  · intro c hc
    constructor
    · intro t h a topicName
      exact ⟨topicBody_raises h _ _ _ _ _, topicBody_raises h _ _ _ _ _⟩
    · intro service h T a texts serviceName tables
      exact serviceBody_raises hc h a texts serviceName tables

def statusType : DynamicType :=
  .structType "Status" [("code", .leafType "int32_t" .int32), ("flags", .bitsetType "Flags")]

theorem hasComponent_flags : statusType.HasComponent (.bitsetType "Flags") :=
  .member (List.mem_cons_of_mem _ List.mem_cons_self) .refl

/-- The builder for the structure has only the number. -/
theorem not_createBuilder_allOrNothing :
    ¬ ∀ (earlier : List DynamicType) (t : DynamicType),
      AllOrNothing (buildersAfter earlier) t := by
  intro h
  have hnull := (h [] statusType).refused "Flags" hasComponent_flags
  cases hnull

end FastDdsSh
