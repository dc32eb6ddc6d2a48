import FastDdsSh.Client

/-!
# When a request has a node

`Client::receive` uses the node that `get_discriminator` gives without a check.  There is one unless
the navigation tree of the request type has no node that is present in the request and of a
registered type; with a union, that is up to the sender.
-/

namespace FastDdsSh

namespace Client

variable {S Cb : Type}

/-! ## Configuration keeps what its parts keep -/

section Preservation

variable {P : Client S Cb → Prop} {service : Service}

theorem addConfig_preserves
    (hrequest : ∀ c callback disc out, P c →
      addRequestConfig service callback c disc = some out → P out.1)
    (hreply : ∀ c req disc out, P c → addReplyConfig service req c disc = some out → P out.1)
    {c : Client S Cb} {callback : Cb} {config : ServiceConfig} {out : Client S Cb × Bool}
    (hc : P c) (h : addConfig service callback c config = some out) : P out.1 := by
  have hkeys : ∀ c type requestType replyType out, P c →
      addKeys service callback c type requestType replyType = some out → P out.1 := by
    intro c type requestType replyType out hc h
    unfold addKeys at h
    split at h
    · obtain ⟨mid, hmid, rfl⟩ := Option.map_eq_some_iff.mp h
      exact hrequest _ _ _ mid hc hmid
    · obtain ⟨⟨c₁, req, set⟩, hfirst, hsecond⟩ := Option.bind_eq_some_iff.mp h
      have hc₁ : P c₁ := by
        cases requestType with
        | none =>
          cases hfirst
          exact hc
        | some disc =>
          obtain ⟨mid, hmid, heq⟩ := Option.map_eq_some_iff.mp hfirst
          cases heq
          exact hrequest _ _ _ mid hc hmid
      cases replyType with
      | none =>
        cases hsecond
        exact hc₁
      | some disc =>
        obtain ⟨mid, hmid, rfl⟩ := Option.map_eq_some_iff.mp hsecond
        exact hreply _ _ _ mid hc₁ hmid
  unfold addConfig at h
  obtain ⟨⟨c₁, progress⟩, hfirst, hsecond⟩ := Option.bind_eq_some_iff.mp h
  have hc₁ : P c₁ := by
    cases hremap : config.remap with
    | none =>
      rw [hremap] at hfirst
      cases hfirst
      exact hc
    | some remap =>
      rw [hremap] at hfirst
      exact hkeys _ _ _ _ _ hc hfirst
  cases progress with
  | refused =>
    cases hsecond
    exact hc₁
  | callbackSet set =>
    cases set with
    | true =>
      cases hsecond
      exact hc₁
    | false =>
      obtain ⟨mid, hmid, rfl⟩ := Option.map_eq_some_iff.mp hsecond
      exact hkeys _ _ _ _ mid hc₁ hmid

/-- The run lemma of `add_config`. -/
theorem configure_preserves
    (hrequest : ∀ c callback disc out, P c →
      addRequestConfig service callback c disc = some out → P out.1)
    (hreply : ∀ c req disc out, P c → addReplyConfig service req c disc = some out → P out.1)
    {c c' : Client S Cb} {configs : List (ServiceConfig × Cb)} (hc : P c)
    (h : c.configure service configs = some c') : P c' := by
  induction configs generalizing c with
  | nil =>
    cases h
    exact hc
  | cons head configs ih =>
    unfold configure at h ih
    rw [List.foldlM_cons] at h
    obtain ⟨c₁, hfirst, hrest⟩ := Option.bind_eq_some_iff.mp h
    obtain ⟨out, hout, rfl⟩ := Option.map_eq_some_iff.mp hfirst
    exact ih (addConfig_preserves hrequest hreply hc hout) hrest

end Preservation

/-! ## The trees of a client are in order -/

def TreesSorted (c : Client S Cb) : Prop :=
  ∀ name root, c.memberTree name = some root → root.Sorted

theorem treesSorted_addMember {c : Client S Cb} (h : c.TreesSorted) (t : DynamicType)
    (path : String) : (c.addMember t path).TreesSorted := by
  intro name root hroot
  by_cases hname : name = t.name
  · rw [hname] at hroot
    have heq : some (((c.memberTree t.name).getD .fresh).fillRootNode t path) = some root := by
      rw [← hroot]
      exact (KeyedStore.set_self _ _ _).symm
    cases heq
    apply NavigationNode.sorted_fillRootNode
    cases hold : c.memberTree t.name with
    | none => exact NavigationNode.every_fresh List.Pairwise.nil
    | some old => exact h _ old hold
  · have heq : c.memberTree name = some root := by
      rw [← hroot]
      exact (KeyedStore.set_ne _ _ hname).symm
    exact h name root heq

theorem treesSorted_configure {service : Service} {configs : List (ServiceConfig × Cb)}
    {c : Client S Cb} (h : initial.configure service configs = some c) : c.TreesSorted := by
  have hinitial : (initial : Client S Cb).TreesSorted := by
    intro name root hroot
    cases hroot
  refine configure_preserves ?_ ?_ hinitial h
  · intro c callback disc out hc hout
    obtain ⟨u, -, rfl⟩ := Option.map_eq_some_iff.mp hout
    apply treesSorted_addMember
    exact hc
  · intro c req disc out hc hout
    obtain ⟨u, -, rfl⟩ := Option.map_eq_some_iff.mp hout
    show TreesSorted (if req = "" then _ else _ : Client S Cb × Bool).1
    split
    · exact hc
    · apply treesSorted_addMember
      exact hc

/-! ## Dispatch -/

variable [DecidableEq S] [Xtypes]

/-- A component of the request on one of the registered paths, the request itself and the members on
the way included, is present and has a registered type; or no path of the request type is known. -/
def HasMember (service : Service) (c : Client S Cb) (received : Value) : Prop :=
  ∀ root, c.memberTree service.requestType.resolve.name = some root →
    ∃ chain n u w, root.descend chain = some n ∧ received.Present chain ∧
      received.component service.requestType chain = some (u, w) ∧ u.name ∈ c.memberTypes

theorem component_resolve (t : DynamicType) (v : Value) (path : List String) :
    v.component t.resolve path = v.component t path := by
  cases path with
  | nil => rw [Value.component, Value.component, DynamicType.resolve_resolve]
  | cons m ms => rw [Value.component, Value.component, DynamicType.resolve_resolve]

omit [DecidableEq S] in
theorem selectMember_isSome_iff {service : Service} {c : Client S Cb} (hc : c.TreesSorted)
    {received : Value} (h : service.requestType.admits received = true) :
    (c.selectMember service received).isSome = true ↔ c.HasMember service received := by
  unfold selectMember NavigationNode.getDiscriminator HasMember
  cases hroot : c.memberTree service.requestType.resolve.name with
  | none =>
    constructor
    · intro _ root heq
      cases heq
    · intro _
      rfl
  | some root =>
    have hsorted := hc _ root hroot
    rw [← DynamicType.admits_resolve] at h
    have hnone := NavigationNode.discriminator_eq_none_iff hsorted h c.memberTypes
    show (Option.map _ (root.discriminator c.memberTypes service.requestType.resolve
      received)).isSome = true ↔ _
    rw [Option.isSome_map, Option.isSome_iff_ne_none, Ne, hnone]
    constructor
    · intro hsome root' heq
      cases heq
      simp only [not_forall, not_not] at hsome
      obtain ⟨x, ⟨n, u, w, hdescend, hpresent, hcomponent, -, hdata⟩, hmem⟩ := hsome
      rw [component_resolve] at hcomponent
      rw [hdata] at hmem
      exact ⟨x.chain, n, u, w, hdescend, hpresent, hcomponent, hmem⟩
    · intro hmember hnever
      obtain ⟨chain, n, u, w, hdescend, hpresent, hcomponent, hmem⟩ := hmember root rfl
      rw [← component_resolve] at hcomponent
      exact hnever ⟨chain, n.typeName, u.name⟩
        ⟨n, u, w, hdescend, hpresent, hcomponent, rfl, rfl⟩ hmem

/-- In every state that configurations lead to, a request of any value has a node, and its reception
does not use a null one, if and only if a component of it is on a registered path and of a
registered type. -/
theorem dispatch_iff_hasMember {service : Service} {configs : List (ServiceConfig × Cb)}
    {c : Client S Cb} (hc : initial.configure service configs = some c) {received : Value}
    (h : service.requestType.admits received = true) (sample : S) :
    (c.selectMember service received ≠ none ↔ c.HasMember service received) ∧
    (c.receive service sample received ≠ .nullNode ↔ c.HasMember service received) := by
  have hiff := selectMember_isSome_iff (treesSorted_configure hc) h
  rw [Option.isSome_iff_ne_none] at hiff
  refine ⟨hiff, ?_⟩
  rw [← hiff]
  unfold receive
  cases hselect : c.selectMember service received with
  | none => exact ⟨fun hne => absurd rfl hne, fun hne => absurd rfl hne⟩
  | some member =>
    refine ⟨fun _ hnone => (by cases hnone), fun _ => ?_⟩
    dsimp only
    split
    · intro heq
      cases heq
    · intro heq
      cases heq

/-! ## Examples -/

omit [DecidableEq S] [Xtypes]

def commandService : Service where
  requestType := .unionType "Request" (.leafType "int32_t" .int32)
    [("move", .structType "Move" [("x", .leafType "int32_t" .int32)]),
      ("stop", .structType "Stop" [("hard", .leafType "bool" .boolean)])]
    [⟨[1], false⟩, ⟨[2], false⟩]
  replyType := .structType "Reply" [("ack", .structType "Ack" [("ok", .leafType "bool" .boolean)])]

def moveConfig : ServiceConfig :=
  ⟨some ⟨none, some "Request.move", some "Reply.ack"⟩, none, none, none⟩

def moveRequest : Value := .union 1 "move" (.struct [("x", .leaf (.integral 5))])

def stopRequest : Value := .union 2 "stop" (.struct [("hard", .leaf (.integral 1))])

def moveClient : Client Nat Nat :=
  ((initial.configure commandService [(moveConfig, 0)]).getD initial)

theorem configure_moveConfig :
    (initial : Client Nat Nat).configure commandService [(moveConfig, 0)] = some moveClient := by
  rfl

theorem dispatch_moveRequest :
    @HasMember Nat Nat firstLabelXtypes commandService moveClient moveRequest ∧
      @receive Nat Nat _ firstLabelXtypes commandService moveClient 7 moveRequest ≠ .nullNode := by
  obtain ⟨hselect, hreceive⟩ := @dispatch_iff_hasMember Nat Nat _ firstLabelXtypes commandService
    [(moveConfig, 0)] moveClient configure_moveConfig moveRequest (by decide) 7
  have hnode : (moveClient.selectMember commandService moveRequest).isSome = true := by
    decide +kernel
  have hmember := hselect.mp (Option.isSome_iff_ne_none.mp hnode)
  exact ⟨hmember, hreceive.mpr hmember⟩

/-- The other command has no node, and receiving it uses a null one. -/
theorem nullNode_stopRequest :
    (initial : Client Nat Nat).configure commandService [(moveConfig, 0)] = some moveClient ∧
    commandService.requestType.admits stopRequest = true ∧
    moveClient.selectMember commandService stopRequest = none ∧
    @receive Nat Nat _ firstLabelXtypes commandService moveClient 7 stopRequest = .nullNode := by
  refine ⟨rfl, by decide, rfl, rfl⟩

end Client

end FastDdsSh
