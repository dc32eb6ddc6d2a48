import FastDdsSh.Client.Routing

/-!
# What a rejected configuration leaves behind

`add_config` returns `false` for a configuration without keys, and for one that has a reply type but
no request type for it to belong to.  The second is noticed after the reply type has been
registered.
-/

namespace FastDdsSh

namespace Client

variable {S Cb : Type}

structure SameTables (c c' : Client S Cb) : Prop where
  typeToDiscriminator : c'.typeToDiscriminator = c.typeToDiscriminator
  memberTypes : c'.memberTypes = c.memberTypes
  callbacks : c'.callbacks = c.callbacks
  requestReply : c'.requestReply = c.requestReply
  memberTree : c'.memberTree = c.memberTree

/-! ## When a reply is refused -/

/-- No request type is named: the key is missing, or leads to a type that has no name. -/
def lacksRequest (service : Service) (requestType : Option String) : Bool :=
  requestType.all fun disc =>
    (service.requestType.resolveDiscriminatorType disc).any fun t => decide (stripped t.name = "")

def refusesReply (service : Service) (type requestType replyType : Option String) : Bool :=
  type.isNone && lacksRequest service requestType &&
    replyType.any fun disc => (service.replyType.resolveDiscriminatorType disc).isSome

def isBlank (type requestType replyType : Option String) : Bool :=
  type.isNone && requestType.isNone && replyType.isNone

def refusesConfig (service : Service) (config : ServiceConfig) : Bool :=
  (config.remap.any fun remap =>
    refusesReply service remap.type remap.requestType remap.replyType) ||
  ((config.remap.all fun remap => isBlank remap.type remap.requestType remap.replyType) &&
    refusesReply service config.type config.requestType config.replyType)

/-! ## One member -/

section Members

variable {service : Service} {callback : Cb} {c c' : Client S Cb} {disc req : String}

theorem addRequestConfig_spec (h : addRequestConfig service callback c disc = some (c', req)) :
    c.memberTypes.length < c'.memberTypes.length ∧
      (req = "" ↔ lacksRequest service (some disc) = true) := by
  obtain ⟨t, ht, heq⟩ := Option.map_eq_some_iff.mp h
  cases heq
  constructor
  · show c.memberTypes.length < (c.memberTypes ++ [stripped t.name]).length
    rw [List.length_append, List.length_singleton]
    omega
  · rw [lacksRequest, Option.all_some, ht, Option.any_some, decide_eq_true_iff]

/-- The member type is registered whether or not the reply is refused. -/
theorem addReplyConfig_spec {added : Bool}
    (h : addReplyConfig service req c disc = some (c', added)) :
    c.memberTypes.length < c'.memberTypes.length ∧ (added = false ↔ req = "") := by
  obtain ⟨t, -, heq⟩ := Option.map_eq_some_iff.mp h
  have hlength : c.memberTypes.length < (c.memberTypes ++ [stripped t.name]).length := by
    rw [List.length_append, List.length_singleton]
    omega
  by_cases hreq : req = ""
  · rw [if_pos hreq] at heq
    cases heq
    exact ⟨hlength, iff_of_true rfl hreq⟩
  · rw [if_neg hreq] at heq
    cases heq
    exact ⟨hlength, iff_of_false (by decide) hreq⟩

theorem addReplyConfig_isSome (req : String) (c : Client S Cb) :
    (addReplyConfig service req c disc).isSome =
      (service.replyType.resolveDiscriminatorType disc).isSome := by
  rw [addReplyConfig, Option.isSome_map]

end Members

/-! ## One level -/

section Levels

variable {service : Service} {callback : Cb} {type requestType replyType : Option String}

theorem addRequestKey_spec {c c' : Client S Cb} {req : String} {set : Bool}
    (h : addRequestKey service callback c requestType = some (c', req, set)) :
    c.memberTypes.length ≤ c'.memberTypes.length ∧
      (req = "" ↔ lacksRequest service requestType = true) ∧ set = requestType.isSome := by
  cases requestType with
  | none =>
    cases h
    exact ⟨le_refl _, iff_of_true rfl rfl, rfl⟩
  | some disc =>
    obtain ⟨⟨c₁, req₁⟩, hconfig, heq⟩ := Option.map_eq_some_iff.mp h
    cases heq
    have hspec := addRequestConfig_spec hconfig
    exact ⟨hspec.1.le, hspec.2, rfl⟩

theorem addRequestKey_of_lacksRequest (callback : Cb)
    (h : lacksRequest service requestType = true) (c : Client S Cb) :
    ∃ c' set, addRequestKey service callback c requestType = some (c', "", set) := by
  cases requestType with
  | none => exact ⟨c, false, rfl⟩
  | some disc =>
    rw [lacksRequest, Option.all_some, Option.any_eq_true] at h
    obtain ⟨t, ht, hname⟩ := h
    have hname : stripped t.name = "" := of_decide_eq_true hname
    obtain ⟨c', hc'⟩ : ∃ c', addRequestConfig service callback c disc = some (c', "") := by
      rw [addRequestConfig, ht, Option.map_some, hname]
      exact ⟨_, rfl⟩
    exact ⟨c', true, by rw [addRequestKey, hc']; rfl⟩

/-- Nothing more has been done when a reply is refused than to register its type. -/
theorem addKeys_refused {c c' : Client S Cb}
    (h : addKeys service callback c type requestType replyType = some (c', .refused)) :
    refusesReply service type requestType replyType = true ∧
      c.memberTypes.length < c'.memberTypes.length := by
  cases type with
  | some disc =>
    obtain ⟨⟨c₁, req⟩, -, heq⟩ := Option.map_eq_some_iff.mp h
    cases heq
  | none =>
    obtain ⟨⟨c₁, req, set⟩, hrequest, hreply⟩ := Option.bind_eq_some_iff.mp h
    cases replyType with
    | none => cases hreply
    | some disc =>
      obtain ⟨⟨c₂, added⟩, hadded, heq⟩ := Option.map_eq_some_iff.mp hreply
      obtain ⟨rfl, hprogress⟩ := Prod.mk.inj heq
      -- only `add_reply_config` can refuse, and it does with `req` empty
      have hfalse : added = false := by
        cases added with
        | false => rfl
        | true => cases hprogress
      have hrequestSpec := addRequestKey_spec hrequest
      have hreplySpec := addReplyConfig_spec hadded
      have hresolves : (service.replyType.resolveDiscriminatorType disc).isSome = true := by
        rw [← addReplyConfig_isSome req c₁, hadded]
        rfl
      constructor
      · show (true && lacksRequest service requestType &&
          (service.replyType.resolveDiscriminatorType disc).isSome) = true
        rw [hrequestSpec.2.1.mp (hreplySpec.2.mp hfalse), hresolves]
        rfl
      · exact lt_of_le_of_lt hrequestSpec.1 hreplySpec.1

theorem addKeys_of_refusesReply (callback : Cb)
    (h : refusesReply service type requestType replyType = true) (c : Client S Cb) :
    ∃ c', addKeys service callback c type requestType replyType = some (c', .refused) := by
  rw [refusesReply, Bool.and_eq_true, Bool.and_eq_true] at h
  obtain ⟨⟨htype, hlacks⟩, hreply⟩ := h
  obtain rfl := Option.isNone_iff_eq_none.mp htype
  obtain ⟨c₁, set, hrequest⟩ := addRequestKey_of_lacksRequest callback hlacks c
  cases replyType with
  | none => cases hreply
  | some disc =>
    obtain ⟨t, ht⟩ := Option.isSome_iff_exists.mp hreply
    -- the type is registered before `req` is looked at
    refine ⟨c₁.addMemberType (stripped t.name) disc, ?_⟩
    show (addRequestKey service callback c requestType).bind _ = _
    rw [hrequest, Option.bind_some]
    show Option.map _ (addReplyConfig service "" c₁ disc) = _
    rw [addReplyConfig, ht]
    rfl

/-- No callback is set by a level that goes through only if there are no keys, and then nothing is
done. -/
theorem addKeys_unset {c c' : Client S Cb}
    (h : addKeys service callback c type requestType replyType = some (c', .callbackSet false)) :
    isBlank type requestType replyType = true ∧ c' = c := by
  cases type with
  | some disc =>
    obtain ⟨⟨c₁, req⟩, -, heq⟩ := Option.map_eq_some_iff.mp h
    cases heq
  | none =>
    obtain ⟨⟨c₁, req, set⟩, hrequest, hreply⟩ := Option.bind_eq_some_iff.mp h
    obtain ⟨-, hname, hset⟩ := addRequestKey_spec hrequest
    cases replyType with
    | none =>
      cases hreply
      cases requestType with
      | none =>
        cases hrequest
        exact ⟨rfl, rfl⟩
      | some disc => cases hset
    | some disc =>
      obtain ⟨⟨c₂, added⟩, hadded, heq⟩ := Option.map_eq_some_iff.mp hreply
      obtain ⟨-, hprogress⟩ := Prod.mk.inj heq
      cases added with
      | false => cases hprogress
      | true =>
        -- a reply that is added belongs to a request, whose callback is set
        have hset' : set = false := by simpa using hprogress
        exfalso
        cases requestType with
        | none =>
          have hreq := hname.mpr rfl
          exact absurd ((addReplyConfig_spec hadded).2.mpr hreq) (by decide)
        | some disc' =>
          rw [hset'] at hset
          cases hset

theorem addKeys_of_isBlank (callback : Cb) (h : isBlank type requestType replyType = true)
    (c : Client S Cb) :
    addKeys service callback c type requestType replyType = some (c, .callbackSet false) := by
  rw [isBlank, Bool.and_eq_true, Bool.and_eq_true] at h
  obtain ⟨⟨htype, hrequest⟩, hreply⟩ := h
  obtain rfl := Option.isNone_iff_eq_none.mp htype
  obtain rfl := Option.isNone_iff_eq_none.mp hrequest
  obtain rfl := Option.isNone_iff_eq_none.mp hreply
  rfl

end Levels

/-! ## Both levels -/

/-- A configuration whose reply is refused has registered the reply type. -/
theorem addConfig_of_refusesConfig {service : Service} {config : ServiceConfig}
    (h : refusesConfig service config = true) (callback : Cb) (c : Client S Cb) :
    ∃ c', addConfig service callback c config = some (c', false) ∧
      c.memberTypes.length < c'.memberTypes.length := by
  rw [refusesConfig, Bool.or_eq_true, Bool.and_eq_true] at h
  -- the level of the remap is read first, and the other one only if it is blank
  rcases h with h | ⟨hblank, h⟩
  · rw [Option.any_eq_true] at h
    obtain ⟨remap, hremap, hrefuses⟩ := h
    obtain ⟨c', hc'⟩ := addKeys_of_refusesReply callback hrefuses c
    refine ⟨c', ?_, (addKeys_refused hc').2⟩
    unfold addConfig
    rw [hremap, addRemap, hc']
    rfl
  -- a blank level goes through with nothing written
  · have hremap : addRemap service callback c config.remap = some (c, .callbackSet false) := by
      cases hconfig : config.remap with
      | none => rfl
      | some remap =>
        rw [hconfig, Option.all_some] at hblank
        exact addKeys_of_isBlank callback hblank c
    obtain ⟨c', hc'⟩ := addKeys_of_refusesReply callback h c
    refine ⟨c', ?_, (addKeys_refused hc').2⟩
    unfold addConfig
    rw [hremap, Option.bind_some]
    dsimp only
    rw [hc']
    rfl

/-- Otherwise a rejected configuration has not been written at all. -/
theorem eq_of_addConfig_false {service : Service} {config : ServiceConfig} {callback : Cb}
    {c c' : Client S Cb} (h : addConfig service callback c config = some (c', false))
    (hrefuses : refusesConfig service config = false) : c' = c := by
  rw [refusesConfig, Bool.or_eq_false_iff] at hrefuses
  obtain ⟨hfirst, hsecond⟩ := hrefuses
  obtain ⟨⟨c₁, progress⟩, hremap, hrest⟩ := Option.bind_eq_some_iff.mp h
  -- `false` comes from a refusal, which is ruled out, or from two blank levels
  cases progress with
  | refused =>
    exfalso
    cases hconfig : config.remap with
    | none =>
      rw [hconfig] at hremap
      cases hremap
    | some remap =>
      rw [hconfig] at hremap hfirst
      rw [Option.any_some, (addKeys_refused hremap).1] at hfirst
      cases hfirst
  | callbackSet set =>
    cases set with
    | true => cases hrest
    | false =>
      have hblank : (config.remap.all fun remap =>
          isBlank remap.type remap.requestType remap.replyType) = true ∧ c₁ = c := by
        cases hconfig : config.remap with
        | none =>
          rw [hconfig] at hremap
          cases hremap
          exact ⟨rfl, rfl⟩
        | some remap =>
          rw [hconfig] at hremap
          exact addKeys_unset hremap
      obtain ⟨hall, rfl⟩ := hblank
      rw [hall, Bool.true_and] at hsecond
      obtain ⟨⟨c₂, progress⟩, hkeys, heq⟩ := Option.map_eq_some_iff.mp hrest
      obtain ⟨rfl, hprogress⟩ := Prod.mk.inj heq
      cases progress with
      | refused =>
        rw [(addKeys_refused hkeys).1] at hsecond
        cases hsecond
      | callbackSet set =>
        cases set with
        | true => exact absurd hprogress (by decide)
        | false => exact (addKeys_unset hkeys).2

/-- A configuration that is rejected leaves the tables as they were, from whatever state, exactly if
the rejection is not the refusal of a reply. -/
theorem rejected_sameTables_iff (service : Service) (callback : Cb) (c : Client S Cb)
    (config : ServiceConfig) :
    (∀ c', addConfig service callback c config = some (c', false) → SameTables c c') ↔
      refusesConfig service config = false := by
  constructor
  · intro hsame
    rw [← Bool.not_eq_true]
    intro hrefuses
    obtain ⟨c', hc', hgrows⟩ := addConfig_of_refusesConfig hrefuses callback c
    -- `member_types` has grown
    have hlength := congrArg List.length (hsame c' hc').memberTypes
    omega
  · intro hrefuses c' hc'
    rw [eq_of_addConfig_false hc' hrefuses]
    exact ⟨rfl, rfl, rfl, rfl, rfl⟩

/-- Only the reply is remapped.  The call is rejected, and the type of the member is one that
requests are searched for from then on. -/
theorem not_rejected_sameTables :
    ∃ c' : Client Nat Nat,
      addConfig wrapperService 4 (initial : Client Nat Nat)
          ⟨some ⟨none, none, some "Reply.data"⟩, none, some "Request", some "Reply"⟩ =
        some (c', false) ∧
      c'.memberTypes = ["Wrapper"] ∧
      c'.typeToDiscriminator "Wrapper" = some "Reply.data" ∧
      ¬ SameTables (initial : Client Nat Nat) c' := by
  refine ⟨(initial : Client Nat Nat).addMemberType "Wrapper" "Reply.data", ?_, rfl, rfl, ?_⟩
  · rfl
  · intro h
    have hmemberTypes : ["Wrapper"] = ([] : List String) := h.memberTypes
    cases hmemberTypes

end Client

end FastDdsSh
