import FastDdsSh.Client.Routing
import FastDdsSh.Client.Search

/-!
# The order of the configurations

Entries whose member types all have different names write to different keys of the tables, and a
tree does not depend on the order in which its paths come.  Clients configured with the same entries
in another order differ at most in the order of `member_types_`, which is only ever searched.
-/

namespace FastDdsSh

namespace NavigationNode

/-! ## The list of names is used as a set -/

section Members

variable {memberTypes memberTypes' : List String}

mutual

theorem discriminator_congr (h : ∀ name, name ∈ memberTypes ↔ name ∈ memberTypes') :
    ∀ (n : NavigationNode) (t : DynamicType) (v : Value),
    n.discriminator memberTypes t v = n.discriminator memberTypes' t v
  | node _ typeName children, t, v => by
    unfold discriminator
    by_cases hname : t.resolve.name ∈ memberTypes
    · rw [if_pos hname, if_pos ((h _).mp hname)]
    · rw [if_neg hname, if_neg fun h' => hname ((h _).mpr h')]
      split
      · exact discriminatorOfCase_congr h children t _ _
      · exact discriminatorOfMembers_congr h children t _
      · rfl

theorem discriminatorOfCase_congr (h : ∀ name, name ∈ memberTypes ↔ name ∈ memberTypes') :
    ∀ (children : List (String × NavigationNode)) (t : DynamicType) (v : Value) (c : String),
      discriminatorOfCase memberTypes children t v c =
        discriminatorOfCase memberTypes' children t v c
  | [], t, v, c => by rw [discriminatorOfCase, discriminatorOfCase]
  | (m, child) :: rest, t, v, c => by
    rw [discriminatorOfCase, discriminatorOfCase, discriminatorOfCase_congr h rest t v c]
    cases activeMember t v m with
    | none => rfl
    | some member =>
      rw [Option.bind_some, Option.bind_some]
      simp only [discriminator_congr h child member.1 member.2]

theorem discriminatorOfMembers_congr (h : ∀ name, name ∈ memberTypes ↔ name ∈ memberTypes') :
    ∀ (children : List (String × NavigationNode)) (t : DynamicType) (v : Value),
      discriminatorOfMembers memberTypes children t v =
        discriminatorOfMembers memberTypes' children t v
  | [], t, v => by rw [discriminatorOfMembers, discriminatorOfMembers]
  | (m, child) :: rest, t, v => by
    rw [discriminatorOfMembers, discriminatorOfMembers, discriminatorOfMembers_congr h rest t v]
    cases activeMember t v m with
    | none => rfl
    | some member =>
      rw [Option.bind_some, Option.bind_some]
      simp only [discriminator_congr h child member.1 member.2]

end

theorem getDiscriminator_congr (h : ∀ name, name ∈ memberTypes ↔ name ∈ memberTypes')
    (memberMap : KeyedStore String NavigationNode) (t : DynamicType)
    (v : Value) :
    getDiscriminator memberMap t v memberTypes = getDiscriminator memberMap t v memberTypes' := by
  unfold getDiscriminator
  cases memberMap t.name with
  | none => rfl
  | some root =>
    dsimp only
    rw [discriminator_congr h root t v]

end Members

end NavigationNode

namespace Client

open KeyedStore NavigationNode

variable {S Cb : Type}

/-! ## The order of the paths -/

theorem pathsFor_perm {calls calls' : List (DynamicType × String)} (h : calls.Perm calls')
    (name : String) : (pathsFor name calls).Perm (pathsFor name calls') :=
  (h.filter _).map _

/-- Where types with one name are one type, the order of the calls makes no difference. -/
theorem foldl_addTree_perm {calls calls' : List (DynamicType × String)} (h : calls.Perm calls')
    (htypes : ∀ call ∈ calls, ∀ call' ∈ calls, call.1.name = call'.1.name → call.1 = call'.1) :
    calls.foldl addTree .empty = calls'.foldl addTree .empty := by
  funext name
  -- the type that the calls for this name are for, any type if there are none
  obtain ⟨t, ht⟩ : ∃ t, ∀ call ∈ calls, call.1.name = name → call.1 = t := by
    by_cases hcalled : ∃ call ∈ calls, call.1.name = name
    · obtain ⟨call, hmem, hname⟩ := hcalled
      exact ⟨call.1, fun call' hmem' hname' =>
        htypes call' hmem' call hmem (hname'.trans hname.symm)⟩
    · exact ⟨.leafType "" .boolean, fun call hmem hname => absurd ⟨call, hmem, hname⟩ hcalled⟩
  have hpaths := pathsFor_perm h name
  have hnil : pathsFor name calls = [] ↔ pathsFor name calls' = [] := by
    rw [← List.length_eq_zero_iff, hpaths.length_eq, List.length_eq_zero_iff]
  -- the tree for a name depends on the set of its paths alone
  rw [addTree_apply ht, addTree_apply fun call hcall => ht call (h.mem_iff.mpr hcall),
    grow_congr fun _ => hpaths.mem_iff]
  by_cases hempty : pathsFor name calls = []
  · rw [if_pos hempty, if_pos (hnil.mp hempty)]
  · rw [if_neg hempty, if_neg fun hempty' => hempty (hnil.mpr hempty')]

theorem memberTree_registerNames (service : Service) (c : Client S Cb) (e : RemapEntry × Cb) :
    (registerNames service c e).memberTree = c.memberTree := by
  simp only [registerNames]

theorem configured_memberTree (service : Service) (entries : List (RemapEntry × Cb)) :
    (configured service entries : Client S Cb).memberTree =
      (entries.flatMap fun e => treeWrites service e.1).foldl addTree .empty := by
  induction entries using List.reverseRecOn with
  | nil => rfl
  | append_singleton entries e ih =>
    have hlast : (configured service (entries ++ [e]) : Client S Cb) =
        applyEntry service (configured service entries) e := by
      unfold configured
      rw [List.foldl_append, List.foldl_cons, List.foldl_nil]
    -- registering the names of an entry leaves the trees to its `add_member` calls
    rw [hlast, applyEntry, memberTree_foldl_addMember, List.flatMap_append, List.foldl_append,
      List.flatMap_singleton, memberTree_registerNames, ih]

/-! ## The names of the member types -/

def memberTypeNames (service : Service) (entries : List (RemapEntry × Cb)) : List String :=
  entries.flatMap fun e => [requestName service e.1, replyName service e.1]

theorem keys_discriminators (service : Service) (entries : List (RemapEntry × Cb)) :
    (entries.flatMap fun e => [(requestName service e.1, e.1.request),
      (replyName service e.1, e.1.reply)]).map Prod.fst = memberTypeNames service entries := by
  simp only [List.map_flatMap, List.map_cons, List.map_nil, memberTypeNames]

theorem keys_callbacks (service : Service) (entries : List (RemapEntry × Cb)) :
    (entries.map fun e => (requestName service e.1, e.2)).map Prod.fst =
      entries.map fun e => requestName service e.1 := by
  simp only [List.map_map, Function.comp_def]

theorem requestNames_sublist (service : Service) (entries : List (RemapEntry × Cb)) :
    (entries.map fun e => requestName service e.1).Sublist (memberTypeNames service entries) := by
  induction entries with
  | nil => exact .slnil
  | cons e entries ih => exact (ih.cons (replyName service e.1)).cons_cons (requestName service e.1)

theorem repliedNames_sublist (service : Service) (entries : List (RemapEntry × Cb)) :
    ((entries.flatMap fun e => replyWrites service e.1).map Prod.fst).Sublist
      (entries.map fun e => requestName service e.1) := by
  induction entries with
  | nil => exact .slnil
  | cons e entries ih =>
    rw [List.flatMap_cons, List.map_append, List.map_cons, replyWrites]
    -- no reply type is registered for a request type without a name
    by_cases hempty : requestName service e.1 = ""
    · rw [if_pos hempty, List.map_nil, List.nil_append]
      exact ih.cons _
    · rw [if_neg hempty, List.map_singleton, List.singleton_append]
      dsimp only
      exact ih.cons_cons _

/-! ## Clients that differ in the order of the names -/

/-- The same client but for the order of `member_types_`. -/
structure Alike (c c' : Client S Cb) : Prop where
  tables : c' = { c with memberTypes := c'.memberTypes }
  memberTypes : ∀ name, name ∈ c.memberTypes ↔ name ∈ c'.memberTypes

section Alike

variable [DecidableEq S]

/-- Receptions with one outcome: the callback that is called with what, and the reply path that is
remembered for the request. -/
inductive SameOutcome (service : Service) (sample : S) : Reception S Cb → Reception S Cb → Prop
  | nullNode : SameOutcome service sample .nullNode .nullNode
  | exception {c c' : Client S Cb}
      (path : c.rememberedPath service sample = c'.rememberedPath service sample) :
      SameOutcome service sample (.exception c) (.exception c')
  | done {c c' : Client S Cb} (invoked : Option (Invocation S Cb))
      (path : c.rememberedPath service sample = c'.rememberedPath service sample) :
      SameOutcome service sample (.done c invoked) (.done c' invoked)

variable {c c' : Client S Cb}

theorem alike_rememberReply (h : Alike c c') (sample : S) (typeName : String) :
    Alike (c.rememberReply sample typeName) (c'.rememberReply sample typeName) := by
  rw [h.tables]
  unfold rememberReply
  dsimp only
  cases c.requestReply typeName with
  | none => exact ⟨rfl, h.memberTypes⟩
  | some rep => exact ⟨rfl, h.memberTypes⟩

theorem alike_takeReplyPath (h : Alike c c') (service : Service) (sample : S) :
    Alike (c.takeReplyPath service sample).2 (c'.takeReplyPath service sample).2 := by
  rw [h.tables]
  unfold takeReplyPath
  dsimp only
  cases c.replyIdType sample with
  | none => exact ⟨rfl, h.memberTypes⟩
  | some rep => exact ⟨rfl, h.memberTypes⟩

omit [DecidableEq S] in
theorem selectMember_alike (h : Alike c c') (service : Service) (received : Value) :
    c.selectMember service received = c'.selectMember service received := by
  unfold selectMember
  rw [getDiscriminator_congr h.memberTypes, h.tables]

variable [Xtypes]

/-- Alike clients receive a request alike, and are alike afterwards. -/
theorem receive_alike (h : Alike c c') (service : Service) (sample : S) (received : Value) :
    (c.receive service sample received = .nullNode ∧
      c'.receive service sample received = .nullNode) ∨
    ∃ d d', Alike d d' ∧
      ((c.receive service sample received = .exception d ∧
        c'.receive service sample received = .exception d') ∨
      ∃ invoked, c.receive service sample received = .done d invoked ∧
        c'.receive service sample received = .done d' invoked) := by
  unfold receive
  rw [← selectMember_alike h]
  -- both select the same node: the search goes by which names are there
  cases c.selectMember service received with
  | none => exact .inl ⟨rfl, rfl⟩
  | some member =>
    have hremembered := alike_rememberReply h sample member.typeName
    refine .inr ⟨_, _, hremembered, ?_⟩
    dsimp only
    generalize c.rememberReply sample member.typeName = d at hremembered ⊢
    generalize c'.rememberReply sample member.typeName = d' at hremembered ⊢
    have hinvocation : d'.invocation service sample received member.path =
        d.invocation service sample received member.path := by
      rw [hremembered.tables]
      rfl
    rw [hinvocation]
    cases d.invocation service sample received member.path with
    | none => exact .inl ⟨rfl, rfl⟩
    | some invoked => exact .inr ⟨invoked, rfl, rfl⟩

theorem receive_sameOutcome (h : Alike c c') (service : Service) (sample : S) (received : Value) :
    SameOutcome service sample (c.receive service sample received)
      (c'.receive service sample received) := by
  rcases receive_alike h service sample received with ⟨hc, hc'⟩ | ⟨d, d', hd, hrest⟩
  · rw [hc, hc']
    exact .nullNode
  · have hpath : d.rememberedPath service sample = d'.rememberedPath service sample := by
      rw [hd.tables]
      rfl
    rcases hrest with ⟨hc, hc'⟩ | ⟨invoked, hc, hc'⟩
    · rw [hc, hc']
      exact .exception hpath
    · rw [hc, hc']
      exact .done invoked hpath

theorem perform_alike (h : Alike c c') (service : Service) (op : Operation S) :
    Alike (c.perform service op) (c'.perform service op) := by
  cases op with
  | receive sample received =>
    unfold perform
    dsimp only
    rcases receive_alike h service sample received with ⟨hc, hc'⟩ | ⟨d, d', hd, hrest⟩
    · rw [hc, hc']
      exact h
    · rcases hrest with ⟨hc, hc'⟩ | ⟨invoked, hc, hc'⟩
      · rw [hc, hc']
        exact hd
      · rw [hc, hc']
        exact hd
  | receiveResponse sample t response => exact alike_takeReplyPath h service sample

theorem performAll_alike (h : Alike c c') (service : Service) (ops : List (Operation S)) :
    Alike (ops.foldl (perform service) c) (ops.foldl (perform service) c') := by
  induction ops generalizing c c' with
  | nil => exact h
  | cons op ops ih => exact ih (perform_alike h service op)

end Alike

/-! ## Permutations -/

section Permutation

variable {service : Service} {entries entries' : List (RemapEntry × Cb)}

/-- The calls of a configuration are for the request and the reply type. -/
theorem type_of_mem_treeWrites {e : RemapEntry} {call : DynamicType × String}
    (h : call ∈ treeWrites service e) :
    call.1 = service.requestType ∨ call.1 = service.replyType := by
  unfold treeWrites at h
  rcases List.mem_cons.mp h with rfl | h
  · exact .inl rfl
  · split at h
    · cases h
    · rw [List.mem_singleton] at h
      exact .inr (congrArg Prod.fst h)

theorem alike_configured (h : entries.Perm entries')
    (hdistinct : (memberTypeNames service entries).Nodup)
    (htypes : service.requestType.name = service.replyType.name →
      service.requestType = service.replyType) :
    Alike (configured service entries : Client S Cb) (configured service entries') := by
  have hrequests := (requestNames_sublist service entries).nodup hdistinct
  obtain ⟨hdisc, hmembers, hcallbacks, hreplies, hid⟩ :=
    configured_tables (S := S) service entries
  obtain ⟨hdisc', hmembers', hcallbacks', hreplies', hid'⟩ :=
    configured_tables (S := S) service entries'
  have htree := configured_memberTree (S := S) service entries
  have htree' := configured_memberTree (S := S) service entries'
  -- calls with one type name are for one type, by the hypothesis on the service
  have hcalls : ∀ call ∈ entries.flatMap (fun e => treeWrites service e.1),
      ∀ call' ∈ entries.flatMap (fun e => treeWrites service e.1),
        call.1.name = call'.1.name → call.1 = call'.1 := by
    intro call hcall call' hcall' hname
    obtain ⟨e, -, he⟩ := List.mem_flatMap.mp hcall
    obtain ⟨e', -, he'⟩ := List.mem_flatMap.mp hcall'
    rcases type_of_mem_treeWrites he with ht | ht <;>
      rcases type_of_mem_treeWrites he' with ht' | ht' <;> rw [ht, ht'] at hname ⊢
    · exact htypes hname
    · exact (htypes hname.symm).symm
  -- writes to different keys can be made in any order
  rw [writeAll_perm (h.flatMap_right _) (by rwa [keys_discriminators])] at hdisc
  rw [writeAll_perm (h.map _) (by rwa [keys_callbacks])] at hcallbacks
  rw [writeAll_perm (h.flatMap_right _)
    ((repliedNames_sublist service entries).nodup hrequests)] at hreplies
  rw [foldl_addTree_perm (h.flatMap_right _) hcalls, ← htree'] at htree
  rw [← hdisc'] at hdisc
  rw [← hcallbacks'] at hcallbacks
  rw [← hreplies'] at hreplies
  rw [← hid'] at hid
  -- `member_types_` is the one table in which the order stays visible
  have hmem : ∀ name, name ∈ (configured service entries : Client S Cb).memberTypes ↔
      name ∈ (configured service entries' : Client S Cb).memberTypes := by
    intro name
    rw [hmembers, hmembers']
    exact (h.flatMap_right _).mem_iff
  refine ⟨?_, hmem⟩
  generalize (configured service entries : Client S Cb) = c at hdisc hcallbacks hreplies hid htree
  generalize (configured service entries' : Client S Cb) = c' at *
  cases c
  cases c'
  simp only at hdisc hcallbacks hreplies hid htree
  simp only [hdisc, hcallbacks, hreplies, hid, htree]

variable [DecidableEq S] [Xtypes]

/-- Whatever request is received next, both clients select the same node, call the same callback and
remember the same reply path. -/
def BehaveAlike (service : Service) (c c' : Client S Cb) : Prop :=
  ∀ sample received,
    c.selectMember service received = c'.selectMember service received ∧
      SameOutcome service sample (c.receive service sample received)
        (c'.receive service sample received)

/-- Entries with different names can be configured in any order: whatever the clients have done
since, they behave alike. -/
theorem behaveAlike_of_perm (h : entries.Perm entries')
    (hresolves : ∀ e ∈ entries, e.1.Resolves service)
    (hdistinct : (memberTypeNames service entries).Nodup)
    (htypes : service.requestType.name = service.replyType.name →
      service.requestType = service.replyType) :
    ∃ c c' : Client S Cb, initial.configure service (configsOf entries) = some c ∧
      initial.configure service (configsOf entries') = some c' ∧
      ∀ ops : List (Operation S), BehaveAlike service (ops.foldl (perform service) c)
        (ops.foldl (perform service) c') := by
  refine ⟨configured service entries, configured service entries', configure_eq hresolves initial,
    configure_eq (fun e he => hresolves e (h.mem_iff.mpr he)) initial, ?_⟩
  intro ops sample received
  have halike := performAll_alike (alike_configured h hdistinct htypes) service ops
  exact ⟨selectMember_alike halike service received,
    receive_sameOutcome halike service sample received⟩

end Permutation

/-! ## Examples -/

def flagType (name : String) : DynamicType :=
  .structType name [("ok", .leafType "bool" .boolean)]

def flagged : Value :=
  .struct [("ok", .leaf (.integral 1))]

def remapEntry (request reply : String) (callback : Nat) : RemapEntry × Nat :=
  (⟨⟨some ⟨none, some request, some reply⟩, none, none, none⟩, request, reply⟩, callback)

theorem remapEntry_valid {service : Service} {request reply : String} (m m' : String)
    (callback : Nat) (hrequest : pathFields request = [service.requestType.name, m])
    (hreply : pathFields reply = [service.replyType.name, m']) (hne : m ≠ "" ∧ m' ≠ "")
    (htype : (service.requestType.typeAt [m]).isSome = true)
    (htype' : (service.replyType.typeAt [m']).isSome = true) :
    (remapEntry request reply callback).1.Valid service where
  remap := rfl
  request := ⟨[m], hrequest, by simpa using Ne.symm hne.1, htype⟩
  reply := ⟨[m'], hreply, by simpa using Ne.symm hne.2, htype'⟩

def pointService (name : String) : Service where
  requestType := .structType "Request" [("a", flagType name), ("b", flagType "Point")]
  replyType := .structType "Reply" [("x", flagType "Ack"), ("y", flagType "Done")]

def pointEntries : List (RemapEntry × Nat) :=
  [remapEntry "Request.a" "Reply.x" 1, remapEntry "Request.b" "Reply.y" 2]

def pointRequest : Value :=
  .struct [("a", flagged), ("b", flagged)]

theorem valid_pointEntries (name : String) :
    ∀ e ∈ pointEntries, e.1.Valid (pointService name) := by
  intro e he
  rcases List.mem_cons.mp he with rfl | he
  · exact remapEntry_valid "a" "x" 1 (show pathFields "Request.a" = ["Request", "a"] by decide)
      (show pathFields "Reply.x" = ["Reply", "x"] by decide) (by decide) rfl rfl
  · rw [List.mem_singleton.mp he]
    exact remapEntry_valid "b" "y" 2 (show pathFields "Request.b" = ["Request", "b"] by decide)
      (show pathFields "Reply.y" = ["Reply", "y"] by decide) (by decide) rfl rfl

theorem behaveAlike_pointEntries :
    ∃ c c' : Client Nat Nat,
      initial.configure (pointService "Stop") (configsOf pointEntries) = some c ∧
      initial.configure (pointService "Stop") (configsOf pointEntries.reverse) = some c' ∧
      ∀ ops : List (Operation Nat),
        @BehaveAlike Nat Nat _ firstLabelXtypes (pointService "Stop")
          (ops.foldl (@perform _ _ _ firstLabelXtypes (pointService "Stop")) c)
          (ops.foldl (@perform _ _ _ firstLabelXtypes (pointService "Stop")) c') :=
  @behaveAlike_of_perm _ _ (pointService "Stop") pointEntries pointEntries.reverse _
    firstLabelXtypes (List.reverse_perm _).symm
    (fun e he => (valid_pointEntries "Stop" e he).resolves) (by decide +kernel)
    fun hname => absurd hname (by decide)

/-- The request and the reply type are different ones with one name, and the node of a member that
both have has the type that came first. -/
def messageService : Service where
  requestType := .structType "Message" [("a", flagType "Point"), ("y", flagType "Stop")]
  replyType := .structType "Message" [("a", flagType "Ack"), ("x", flagType "Done")]

def messageEntries : List (RemapEntry × Nat) :=
  [remapEntry "Message.a" "Message.x" 1, remapEntry "Message.y" "Message.a" 2]

def messageRequest : Value :=
  .struct [("a", flagged), ("y", flagged)]

theorem valid_messageEntries : ∀ e ∈ messageEntries, e.1.Valid messageService := by
  intro e he
  rcases List.mem_cons.mp he with rfl | he
  · exact remapEntry_valid "a" "x" 1 (by decide) (by decide) (by decide) rfl rfl
  · rw [List.mem_singleton.mp he]
    exact remapEntry_valid "y" "a" 2 (by decide) (by decide) (by decide) rfl rfl

def unstrippedNames (service : Service) (entries : List (RemapEntry × Nat)) :
    List (Option String) :=
  entries.flatMap fun e =>
    [(service.requestType.resolveDiscriminatorType e.1.request).map DynamicType.name,
      (service.replyType.resolveDiscriminatorType e.1.reply).map DynamicType.name]

theorem rememberedPath_of_sameOutcome {service : Service} {sample : Nat} {d d' : Client Nat Nat}
    {invoked invoked' : Option (Invocation Nat Nat)}
    (h : SameOutcome service sample (.done d invoked) (.done d' invoked')) :
    d.rememberedPath service sample = d'.rememberedPath service sample := by
  cases h with
  | done _ path => exact path

/-- A request for which two clients remember different paths tells them apart. -/
theorem not_sameOutcome_of_select {service : Service} {c c' : Client Nat Nat} {received : Value}
    {member member' : Selected}
    (hselect : c.selectMember service received = some member ∧
      c'.selectMember service received = some member')
    {t t' : DynamicType} {w w' : Value}
    (hcomponent : @Value.component firstLabelXtypes service.requestType received
      (memberPath member.path) = some (t, w))
    (hcomponent' : @Value.component firstLabelXtypes service.requestType received
      (memberPath member'.path) = some (t', w'))
    {callback callback' : Nat}
    (hcallback : c.callbacks t.name = some callback ∧ c'.callbacks t'.name = some callback')
    (hpath : (c.rememberReply 7 member.typeName).rememberedPath service 7 ≠
      (c'.rememberReply 7 member'.typeName).rememberedPath service 7) :
    ¬ SameOutcome service 7 (@receive _ _ _ firstLabelXtypes service c 7 received)
      (@receive _ _ _ firstLabelXtypes service c' 7 received) := by
  rw [@receive_of_select _ _ _ firstLabelXtypes _ _ _ _ _ _ _ hselect.1 hcomponent hcallback.1 7,
    @receive_of_select _ _ _ firstLabelXtypes _ _ _ _ _ _ _ hselect.2 hcomponent' hcallback.2 7]
  exact fun hsame => hpath (rememberedPath_of_sameOutcome hsame)

/-- The reply paths that the clients remember depend on the order, where the request and the reply
type are different ones with one name, and where two names of member types are registered as one. -/
theorem not_sameOutcome_reordered :
    ((∀ e ∈ messageEntries, e.1.Valid messageService) ∧
      (unstrippedNames messageService messageEntries).Nodup ∧
      messageService.requestType.admits messageRequest = true ∧
      ∀ c c' : Client Nat Nat,
        initial.configure messageService (configsOf messageEntries) = some c →
        initial.configure messageService (configsOf messageEntries.reverse) = some c' →
        ¬ SameOutcome messageService 7
          (@receive _ _ _ firstLabelXtypes messageService c 7 messageRequest)
          (@receive _ _ _ firstLabelXtypes messageService c' 7 messageRequest)) ∧
    (∀ e ∈ pointEntries, e.1.Valid (pointService "::Point")) ∧
      (unstrippedNames (pointService "::Point") pointEntries).Nodup ∧
      (pointService "::Point").requestType.admits pointRequest = true ∧
      ∀ c c' : Client Nat Nat,
        initial.configure (pointService "::Point") (configsOf pointEntries) = some c →
        initial.configure (pointService "::Point") (configsOf pointEntries.reverse) = some c' →
        ¬ SameOutcome (pointService "::Point") 7
          (@receive _ _ _ firstLabelXtypes (pointService "::Point") c 7 pointRequest)
          (@receive _ _ _ firstLabelXtypes (pointService "::Point") c' 7 pointRequest) := by
  have hmessage := valid_messageEntries
  have hpoint := valid_pointEntries "::Point"
  refine ⟨⟨hmessage, by decide +kernel, by decide, ?_⟩, hpoint, by decide +kernel, by decide, ?_⟩
  · intro c c' hc hc'
    rw [configure_initial hmessage] at hc
    rw [configure_initial fun e he => hmessage e (List.mem_reverse.mp he)] at hc'
    cases hc
    cases hc'
    have hselect : (configured messageService messageEntries :
          Client Nat Nat).selectMember messageService messageRequest =
            some ⟨"Message.a", "Point"⟩ ∧
        (configured messageService messageEntries.reverse :
          Client Nat Nat).selectMember messageService messageRequest =
            some ⟨"Message.a", "Ack"⟩ := by
      decide +kernel
    have hcallback : (configured messageService messageEntries :
          Client Nat Nat).callbacks (flagType "Point").name = some 1 ∧
        (configured messageService messageEntries.reverse :
          Client Nat Nat).callbacks (flagType "Point").name = some 1 := by
      decide +kernel
    exact not_sameOutcome_of_select hselect rfl rfl hcallback (by decide +kernel)
  · intro c c' hc hc'
    rw [configure_initial hpoint] at hc
    rw [configure_initial fun e he => hpoint e (List.mem_reverse.mp he)] at hc'
    cases hc
    cases hc'
    have hselect : (configured (pointService "::Point") pointEntries :
          Client Nat Nat).selectMember (pointService "::Point") pointRequest =
            some ⟨"Request.b", "Point"⟩ ∧
        (configured (pointService "::Point") pointEntries.reverse :
          Client Nat Nat).selectMember (pointService "::Point") pointRequest =
            some ⟨"Request.b", "Point"⟩ := by
      decide +kernel
    have hcallback : (configured (pointService "::Point") pointEntries :
          Client Nat Nat).callbacks (flagType "Point").name = some 2 ∧
        (configured (pointService "::Point") pointEntries.reverse :
          Client Nat Nat).callbacks (flagType "Point").name = some 1 := by
      decide +kernel
    exact not_sameOutcome_of_select hselect rfl rfl hcallback (by decide +kernel)

end Client

end FastDdsSh
