import FastDdsSh.Server.Routing

/-!
# The names of a request and their reply types

The path of a request is registered under the type name of its member and under the configured
`request_type`.  `call_service` asks `request_reply_` for the name of the type it is called with, so
every one of these names needs a reply type there, and no other name should have one.
-/

namespace FastDdsSh

namespace Server

open KeyedStore

variable {H K S : Type}

def requestNames (service : Service) (e : RemapEntry) : List String :=
  let req := registeredName service.requestType e.request
  req :: otherName e.config.requestType req

/-- `add_config` registers the request path under these names, and else only the reply path. -/
theorem discriminatorWrites_eq (service : Service) (e : RemapEntry) :
    ∃ replies, discriminatorWrites service e =
        (requestNames service e).map (·, e.request) ++ replies ∧
      ∀ w ∈ replies, w.2 = e.reply := by
  refine ⟨_, rfl, ?_⟩
  intro w hw
  rcases List.mem_cons.mp hw with rfl | hw
  · rfl
  · obtain ⟨name, -, rfl⟩ := List.mem_map.mp hw
    rfl

/-- Each name of an entry has the reply type of that entry, or of a later one with the same name;
nothing else is a key of `request_reply_`. -/
structure ExactAliases (service : Service) (entries : List RemapEntry) (s : KeyedServer H K S) :
    Prop where
  complete : ∀ earlier e later, entries = earlier ++ e :: later →
    ∀ name ∈ requestNames service e, ∃ e' ∈ e :: later, name ∈ requestNames service e' ∧
      s.requestReply name = some (registeredName service.replyType e'.reply)
  exact : ∀ name rep, s.requestReply name = some rep →
    ∃ e ∈ entries, name ∈ requestNames service e

/-- A configured name is another one than `req`. -/
def Renames (configured : Option String) (req : String) : Prop :=
  ∃ other, configured = some other ∧ other ≠ req

/-- The configured `request_type` and `reply_type` differ both from the type name of the request
member, or neither does.  Without an alias the name registered for it is the empty one, which does
no harm if it is the name of the request member as well. -/
structure MatchedAliases (service : Service) (e : RemapEntry) : Prop where
  reply : Renames e.config.requestType (registeredName service.requestType e.request) →
    Renames e.config.replyType (registeredName service.requestType e.request)
  request : Renames e.config.replyType (registeredName service.requestType e.request) →
    Renames e.config.requestType (registeredName service.requestType e.request) ∨
      registeredName service.requestType e.request = ""

/-! ## One entry -/

theorem otherName_cases (configured : Option String) (req : String) :
    (∃ other, other ≠ req ∧ otherName configured req = [other] ∧ Renames configured req) ∨
      (otherName configured req = [] ∧ ¬ Renames configured req) := by
  cases configured with
  | none =>
    right
    exact ⟨rfl, fun ⟨other, h, _⟩ => by cases h⟩
  | some other =>
    by_cases hother : other = req
    · right
      refine ⟨if_neg (not_not.mpr hother), ?_⟩
      rintro ⟨other', h, hne⟩
      cases h
      exact hne hother
    · left
      exact ⟨other, hother, if_pos hother, other, rfl, hother⟩

/-- An entry with matched names maps exactly these to its reply type. -/
theorem mem_replyWrites_iff {service : Service} {e : RemapEntry} (h : MatchedAliases service e)
    (name rep : String) :
    (name, rep) ∈ replyWrites service e ↔
      name ∈ requestNames service e ∧ rep = registeredName service.replyType e.reply := by
  have hreply := h.reply
  have hrequest := h.request
  unfold replyWrites requestNames
  dsimp only
  generalize registeredName service.requestType e.request = req at hreply hrequest ⊢
  generalize registeredName service.replyType e.reply = own at hreply hrequest ⊢
  -- whether there is an alias to register, and whether the reply's name lets it be registered
  rcases otherName_cases e.config.requestType req with ⟨a, -, ha, hrenames⟩ | ⟨ha, hrenames⟩
  · -- an alias: the guard on the reply's name holds as well
    rcases otherName_cases e.config.replyType req with ⟨b, -, hb, -⟩ | ⟨-, hb⟩
    · rw [ha, hb]
      simp
      tauto
    · exact absurd (hreply hrenames) hb
  · rcases otherName_cases e.config.replyType req with ⟨b, -, hb, hguard⟩ | ⟨hb, -⟩
    · -- no alias, and the empty name is the member's own
      have hempty : req = "" := (hrequest hguard).resolve_left hrenames
      rw [ha, hb, hempty]
      simp
    · rw [ha, hb]
      simp

/-- What a single entry leaves is exact only if its names are matched. -/
theorem matched_of_exactAliases {service : Service} {e : RemapEntry} {s : KeyedServer H K S}
    (hs : s.requestReply = empty.writeAll (replyWrites service e))
    (h : ExactAliases service [e] s) : MatchedAliases service e := by
  have hcomplete := h.complete [] e [] rfl
  have hexact := h.exact
  rw [hs] at hcomplete hexact
  simp only [writeAll_empty] at hcomplete hexact
  unfold replyWrites requestNames at hcomplete hexact
  dsimp only at hcomplete hexact
  generalize hreq : registeredName service.requestType e.request = req at hcomplete hexact
  generalize registeredName service.replyType e.reply = own at hcomplete hexact
  -- an alias that is not mapped breaks the first part of exactness, the empty name the second
  refine ⟨?_, ?_⟩
  · rw [hreq]
    intro hrenames
    rcases otherName_cases e.config.replyType req with ⟨b, -, -, hb⟩ | ⟨hb, -⟩
    · exact hb
    · -- the alias is not in the log
      exfalso
      rcases otherName_cases e.config.requestType req with ⟨a, hne, ha, -⟩ | ⟨-, ha⟩
      · rw [ha, hb] at hcomplete
        obtain ⟨e', -, -, hlast⟩ := hcomplete a (by simp)
        have hmem := mem_of_lastWrite hlast
        rw [List.map_nil, List.mem_singleton] at hmem
        exact hne (congrArg Prod.fst hmem)
      · exact ha hrenames
  · rw [hreq]
    intro hguard
    rcases otherName_cases e.config.requestType req with ⟨a, -, -, ha⟩ | ⟨ha, -⟩
    · exact .inl ha
    · right
      rcases otherName_cases e.config.replyType req with ⟨b, -, hb, -⟩ | ⟨-, hb⟩
      · -- the reply type is registered under the empty name
        rw [ha, hb] at hexact
        have hwritten : ("", own) ∈ [(req, own)] ++ [("", own)] := by simp
        obtain ⟨rep, hrep⟩ := lastWrite_of_mem hwritten
        obtain ⟨e', he', hname⟩ := hexact "" rep hrep
        rw [List.mem_singleton.mp he', hreq, ha] at hname
        exact (List.mem_singleton.mp hname).symm
      · exact absurd hguard hb

/-! ## Sequences of entries -/

theorem requestReply_configure {service : Service} {entries : List RemapEntry}
    (h : ∀ e ∈ entries, e.Resolves service) {s : KeyedServer H K S}
    (hs : initial.configure service (entries.map RemapEntry.config) = some s) :
    s.requestReply = empty.writeAll (entries.flatMap (replyWrites service)) := by
  rw [configure_eq h] at hs
  cases hs
  rfl

/-- Entries with matched names leave exact aliases, in whatever sequence they come. -/
theorem exactAliases_of_matched {service : Service} {entries : List RemapEntry}
    {s : KeyedServer H K S}
    (hs : s.requestReply = empty.writeAll (entries.flatMap (replyWrites service)))
    (h : ∀ e ∈ entries, MatchedAliases service e) : ExactAliases service entries s := by
  constructor
  · intro earlier e later heq name hname
    have hmem : e ∈ entries := by
      rw [heq]
      simp
    have hown : (name, registeredName service.replyType e.reply) ∈
        (e :: later).flatMap (replyWrites service) := by
      rw [List.flatMap_cons, List.mem_append]
      exact .inl ((mem_replyWrites_iff (h e hmem) _ _).mpr ⟨hname, rfl⟩)
    -- the last write is one of this entry or of a later one
    obtain ⟨rep, hlast⟩ := lastWrite_of_mem hown
    have hvalue : s.requestReply name = some rep := by
      rw [hs, writeAll_empty, heq, List.flatMap_append, lastWrite_append, hlast]
      rfl
    obtain ⟨e', he', hwritten⟩ := List.mem_flatMap.mp (mem_of_lastWrite hlast)
    have hmem' : e' ∈ entries := by
      rw [heq]
      exact List.mem_append_right _ he'
    obtain ⟨hname', rfl⟩ := (mem_replyWrites_iff (h e' hmem') _ _).mp hwritten
    exact ⟨e', he', hname', hvalue⟩
  -- every key has been written by some entry, under one of its names
  · intro name rep hrep
    rw [hs, writeAll_empty] at hrep
    obtain ⟨e, he, hwritten⟩ := List.mem_flatMap.mp (mem_of_lastWrite hrep)
    exact ⟨e, he, ((mem_replyWrites_iff (h e he) _ _).mp hwritten).1⟩

/-- The aliases are exact after every sequence of the given configurations exactly if the names of
each are matched. -/
theorem exactAliases_iff {service : Service} {entries : List RemapEntry}
    (h : ∀ e ∈ entries, e.Resolves service) :
    (∀ calls : List RemapEntry, (∀ e ∈ calls, e ∈ entries) → ∀ s : KeyedServer H K S,
      initial.configure service (calls.map RemapEntry.config) = some s →
        ExactAliases service calls s) ↔
      ∀ e ∈ entries, MatchedAliases service e := by
  constructor
  -- the sequence of one call is enough
  · intro hexact e he
    have hone : ∀ e' ∈ [e], e' ∈ entries := by
      intro e' he'
      rw [List.mem_singleton.mp he']
      exact he
    have hresolves : ∀ e' ∈ [e], e'.Resolves service := fun e' he' => h e' (hone e' he')
    obtain ⟨s, hs⟩ : ∃ s : KeyedServer H K S,
        initial.configure service ([e].map RemapEntry.config) = some s :=
      ⟨_, configure_eq hresolves initial⟩
    have hreplies := requestReply_configure hresolves hs
    rw [List.flatMap_singleton] at hreplies
    exact matched_of_exactAliases hreplies (hexact [e] hone s hs)
  · intro hmatched calls hcalls s hs
    have hreplies := requestReply_configure (fun e he => h e (hcalls e he)) hs
    exact exactAliases_of_matched hreplies fun e he => hmatched e (hcalls e he)

/-! ## Examples -/

def namedEntry (requestType replyType : String) : RemapEntry where
  config := ⟨some ⟨none, some "Request.in", some "Reply.ack"⟩, none, some requestType,
    some replyType⟩
  request := "Request.in"
  reply := "Reply.ack"

theorem namedEntry_resolves (requestType replyType : String) :
    (namedEntry requestType replyType).Resolves pointService where
  remap := rfl
  request := by
    show (pointService.requestType.resolveDiscriminatorType "Request.in").isSome = true
    decide +kernel
  reply := by
    show (pointService.replyType.resolveDiscriminatorType "Reply.ack").isSome = true
    decide +kernel

/-- Both types have another name in the other middleware. -/
theorem exactAliases_namedEntry :
    (∀ calls : List RemapEntry, (∀ e ∈ calls, e ∈ [namedEntry "geometry/Point" "geometry/Ack"]) →
      ∀ s : KeyedServer Nat Nat Nat,
        initial.configure pointService (calls.map RemapEntry.config) = some s →
          ExactAliases pointService calls s) ↔
      ∀ e ∈ [namedEntry "geometry/Point" "geometry/Ack"], MatchedAliases pointService e := by
  apply exactAliases_iff
  intro e he
  rw [List.mem_singleton.mp he]
  exact namedEntry_resolves "geometry/Point" "geometry/Ack"

/-- Both types have the names they have in DDS, and the reply type is registered for the empty name
besides; the reply type is named like the request member's, and the request's alias has none. -/
theorem not_exactAliases :
    (∃ s : KeyedServer Nat Nat Nat,
      initial.configure pointService [(namedEntry "Point" "Ack").config] = some s ∧
        s.requestReply "" = some "Ack" ∧
        ¬ ExactAliases pointService [namedEntry "Point" "Ack"] s) ∧
    ∃ s : KeyedServer Nat Nat Nat,
      initial.configure pointService [(namedEntry "geometry/Point" "Point").config] = some s ∧
        s.typeToDiscriminator "geometry/Point" = some "Request.in" ∧
        s.requestReply "geometry/Point" = none ∧
        ¬ ExactAliases pointService [namedEntry "geometry/Point" "Point"] s := by
  refine ⟨⟨_, rfl, by decide, ?_⟩, ⟨_, rfl, by decide, by decide, ?_⟩⟩
  · intro h
    obtain ⟨e, he, hname⟩ := h.exact "" "Ack" (by decide)
    rw [List.mem_singleton.mp he] at hname
    revert hname
    decide
  · intro h
    have hname : "geometry/Point" ∈
        requestNames pointService (namedEntry "geometry/Point" "Point") := by
      decide
    obtain ⟨e, -, -, hreply⟩ := h.complete [] _ [] rfl "geometry/Point" hname
    have hnone : (none : Option String) =
        some (registeredName pointService.replyType e.reply) := hreply
    cases hnone

end Server

end FastDdsSh
