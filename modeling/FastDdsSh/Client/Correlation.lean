import FastDdsSh.Client
import FastDdsSh.Lib.Transition

/-!
# Correlation of responses with requests

The threads on `Client::receive` and the calls of `Client::receive_response` interleave freely.  A
response may be given inside the callback or at any time after it, in any order, and once for each
handle; received requests have different sample identities.
-/

namespace FastDdsSh.Client.Correlation

open Transition KeyedStore NavigationNode

/-- A call handle: the request it was made for and the sample identity it holds. -/
@[ext]
structure Handle (S : Type) where
  request : Nat
  sampleIdentity : S
  deriving DecidableEq, Repr

/-- Where a thread on `Client::receive` is: before the search, the critical section, the callback,
or the return from it.  It is over with the use of a null node, an exception, or an end. -/
inductive RequestPc where
  | select
  | remember (member : Selected)
  | invoke (member : Selected)
  | callback (member : Selected)
  | done (member : Selected)
  | nullNode
  | exception (member : Selected)

def RequestPc.member : RequestPc → Option Selected
  | .select | .nullNode => none
  | .remember m | .invoke m | .callback m | .done m | .exception m => some m

def RequestPc.remembered : RequestPc → Option Selected
  | .select | .nullNode | .remember _ => none
  | .invoke m | .callback m | .done m | .exception m => some m

structure RequestThread (S : Type) where
  pc : RequestPc
  sample : S
  received : Value

/-- Where a call of `Client::receive_response` is: before its critical section, before the write
with the path it got, or at its end, `failed` if nothing was written. -/
inductive ResponsePc where
  | take
  | write (path : String)
  | done
  | failed

structure ResponseThread (S : Type) where
  pc : ResponsePc
  handle : Handle S
  type : DynamicType
  response : Value

structure Written (S : Type) where
  handle : Handle S
  relatedSampleIdentity : S
  path : String
  type : DynamicType
  response : Value
  reply : Value

structure State (S Cb : Type) where
  client : Client S Cb
  requests : List (RequestThread S)
  responses : List (ResponseThread S)
  handles : List (Handle S)
  written : List (Written S)

inductive Event (S : Type) where
  | receive (sample : S) (received : Value)
  | select (id : Nat)
  | remember (id : Nat)
  | invoke (id : Nat)
  | finish (id : Nat)
  | respond (handle : Handle S) (type : DynamicType) (response : Value)
  | take (id : Nat)
  | write (id : Nat) (success : Bool)

variable {S Cb : Type} [DecidableEq S] [Xtypes] {service : Service} {c₀ : Client S Cb}
  {s s' : State S Cb}

def State.setRequest (s : State S Cb) (id : Nat) (pc : RequestPc) (th : RequestThread S) :
    State S Cb :=
  { s with requests := s.requests.set id { th with pc := pc } }

def State.setResponse (s : State S Cb) (id : Nat) (pc : ResponsePc) (th : ResponseThread S) :
    State S Cb :=
  { s with responses := s.responses.set id { th with pc := pc } }

def stepRequest (service : Service) (s : State S Cb) (id : Nat) (th : RequestThread S) :
    Event S → Option (State S Cb)
  | .select _ =>
      match th.pc with
      | .select =>
          match s.client.selectMember service th.received with
          | none => some (s.setRequest id .nullNode th)
          | some member => some (s.setRequest id (.remember member) th)
      | _ => none
  | .remember _ =>
      match th.pc with
      | .remember member =>
          -- the critical section of `Client::receive`
          let client := s.client.rememberReply th.sample member.typeName
          some (State.setRequest { s with client := client } id (.invoke member) th)
      | _ => none
  | .invoke _ =>
      match th.pc with
      | .invoke member =>
          match s.client.invocation service th.sample th.received member.path with
          -- the exception leaves what has been remembered
          | none => some (s.setRequest id (.exception member) th)
          | some none => some (s.setRequest id (.done member) th)
          | some (some call) =>
              -- from now on a response can be given, in the callback or after it
              let handles := s.handles ++ [⟨id, call.handle⟩]
              some (State.setRequest { s with handles := handles } id (.callback member) th)
      | _ => none
  | .finish _ =>
      match th.pc with
      | .callback member => some (s.setRequest id (.done member) th)
      | _ => none
  | _ => none

def stepResponse (service : Service) (s : State S Cb) (id : Nat) (th : ResponseThread S) :
    Event S → Option (State S Cb)
  | .take _ =>
      match th.pc with
      | .take =>
          -- the critical section of `Client::receive_response`
          let found := s.client.takeReplyPath service th.handle.sampleIdentity
          some (State.setResponse { s with client := found.2 } id (.write found.1) th)
      | _ => none
  | .write _ success =>
      match th.pc with
      | .write path =>
          match buildReply service path th.type th.response with
          -- the path leads nowhere in the reply type
          | none => some (s.setResponse id .failed th)
          | some reply =>
              if success then
                let written := s.written ++
                  [⟨th.handle, th.handle.sampleIdentity, path, th.type, th.response, reply⟩]
                some (State.setResponse { s with written := written } id .done th)
              else some (s.setResponse id .failed th)
      | _ => none
  | _ => none

def step (service : Service) (s : State S Cb) : Event S → Option (State S Cb)
  | .receive sample received =>
      -- sample identities are different
      if sample ∈ s.requests.map RequestThread.sample then none
      else some { s with requests := s.requests ++ [⟨.select, sample, received⟩] }
  | .respond handle type response =>
      -- one response for each handle that was given out
      if handle ∈ s.handles ∧ handle ∉ s.responses.map ResponseThread.handle then
        some { s with responses := s.responses ++ [⟨.take, handle, type, response⟩] }
      else none
  | .select id => (s.requests[id]?).bind fun th => stepRequest service s id th (.select id)
  | .remember id => (s.requests[id]?).bind fun th => stepRequest service s id th (.remember id)
  | .invoke id => (s.requests[id]?).bind fun th => stepRequest service s id th (.invoke id)
  | .finish id => (s.requests[id]?).bind fun th => stepRequest service s id th (.finish id)
  | .take id => (s.responses[id]?).bind fun th => stepResponse service s id th (.take id)
  | .write id success =>
      (s.responses[id]?).bind fun th => stepResponse service s id th (.write id success)

def machine (service : Service) (c₀ : Client S Cb) : Machine (State S Cb) (Event S) where
  init s := s = ⟨c₀, [], [], [], []⟩ ∧ c₀.replyIdType = empty
  step := step service

def Taken (s : State S Cb) (request : Nat) : Prop :=
  ∃ (i : Nat) (th : ResponseThread S), s.responses[i]? = some th ∧ th.handle.request = request ∧
    th.pc ≠ .take

/-! ## The invariant -/

structure ReplyInv (service : Service) (c₀ : Client S Cb) (s : State S Cb) : Prop where
  selects : ∀ received, s.client.selectMember service received = c₀.selectMember service received
  replyPaths : ∀ typeName, s.client.replyPath service typeName = c₀.replyPath service typeName
  distinct : ∀ (i j : Nat) (th th' : RequestThread S), s.requests[i]? = some th →
    s.requests[j]? = some th' → th.sample = th'.sample → i = j
  selected : ∀ (i : Nat) (th : RequestThread S) (m : Selected), s.requests[i]? = some th →
    th.pc.member = some m → c₀.selectMember service th.received = some m
  fresh : ∀ sample, (∀ (i : Nat) (th : RequestThread S), s.requests[i]? = some th →
    th.sample = sample → th.pc.remembered = none) → s.client.replyIdType sample = none
  remembered : ∀ (i : Nat) (th : RequestThread S) (m : Selected), s.requests[i]? = some th →
    th.pc.remembered = some m → ¬ Taken s i →
    s.client.rememberedPath service th.sample = c₀.replyPath service m.typeName
  handles : ∀ h ∈ s.handles, ∃ th m, s.requests[h.request]? = some th ∧
    th.sample = h.sampleIdentity ∧ th.pc.remembered = some m
  responded : ∀ (i : Nat) (th : ResponseThread S), s.responses[i]? = some th →
    th.handle ∈ s.handles
  once : ∀ (i j : Nat) (th th' : ResponseThread S), s.responses[i]? = some th →
    s.responses[j]? = some th' → th.handle = th'.handle → i = j
  paths : ∀ (i : Nat) (th : ResponseThread S) (path : String), s.responses[i]? = some th →
    th.pc = .write path → ∃ r m, s.requests[th.handle.request]? = some r ∧
      r.pc.remembered = some m ∧ path = c₀.replyPath service m.typeName
  written : ∀ w ∈ s.written, ∃ r m, s.requests[w.handle.request]? = some r ∧
    r.pc.remembered = some m ∧ w.relatedSampleIdentity = r.sample ∧
    w.path = c₀.replyPath service m.typeName ∧
    buildReply service w.path w.type w.response = some w.reply

theorem replyInv_of_init (h : (machine service c₀).init s) : ReplyInv service c₀ s := by
  obtain ⟨rfl, hempty⟩ := h
  constructor <;> simp [hempty, empty]

omit [DecidableEq S] [Xtypes] in
theorem member_of_remembered {pc : RequestPc} {m : Selected} (h : pc.remembered = some m) :
    pc.member = some m := by
  cases pc <;> first | exact h | cases h

/-! ## Requests -/

section Requests

variable {id : Nat} {th : RequestThread S} {pc : RequestPc}

omit [DecidableEq S] [Xtypes] in
theorem setRequest_cases (hth : s.requests[id]? = some th) {i : Nat} {u : RequestThread S}
    (hu : (s.setRequest id pc th).requests[i]? = some u) :
    (i = id ∧ u = { th with pc := pc }) ∨ (i ≠ id ∧ s.requests[i]? = some u) :=
  getElem?_set_cases hth hu

omit [DecidableEq S] [Xtypes] in
/-- A thread that has remembered its reply type stays so. -/
theorem setRequest_kept (hth : s.requests[id]? = some th)
    (hkept : ∀ m, th.pc.remembered = some m → pc.remembered = some m) {i : Nat}
    {v : RequestThread S} {m : Selected} (hv : s.requests[i]? = some v)
    (hm : v.pc.remembered = some m) :
    ∃ u, (s.setRequest id pc th).requests[i]? = some u ∧ u.sample = v.sample ∧
      u.pc.remembered = some m := by
  by_cases hi : i = id
  · subst hi
    rw [hth] at hv
    cases hv
    exact ⟨_, List.getElem?_set_self (lt_length_of_getElem? hth), rfl, hkept m hm⟩
  · exact ⟨v, (List.getElem?_set_ne (Ne.symm hi)).trans hv, rfl, hm⟩

omit [DecidableEq S] in
/-- A sample is not in the table before its thread has remembered it. -/
theorem ReplyInv.replyIdType_eq_none (h : ReplyInv service c₀ s) (hth : s.requests[id]? = some th)
    (hnone : th.pc.remembered = none) : s.client.replyIdType th.sample = none := by
  apply h.fresh
  intro i u hu hsample
  obtain rfl := h.distinct i id u th hu hth hsample
  rw [hth] at hu
  cases hu
  exact hnone

omit [DecidableEq S] in
/-- A thread moves on, with an effect on the entry for its own sample at most. -/
theorem ReplyInv.setRequest {client : Client S Cb} (h : ReplyInv service c₀ s)
    (hth : s.requests[id]? = some th)
    (hselects : ∀ received,
      client.selectMember service received = s.client.selectMember service received)
    (hpaths : ∀ typeName, client.replyPath service typeName = s.client.replyPath service typeName)
    (hkept : ∀ m, th.pc.remembered = some m → pc.remembered = some m)
    (hmember : ∀ m, pc.member = some m → c₀.selectMember service th.received = some m)
    (hothers : ∀ sample, sample ≠ th.sample →
      client.replyIdType sample = s.client.replyIdType sample ∧
      client.rememberedPath service sample = s.client.rememberedPath service sample)
    (hfresh : pc.remembered = none → client.replyIdType th.sample = none)
    (hremembered : ∀ m, pc.remembered = some m → ¬ Taken s id →
      client.rememberedPath service th.sample = c₀.replyPath service m.typeName) :
    ReplyInv service c₀ (State.setRequest { s with client := client } id pc th) := by
  have hcases : ∀ (i : Nat) (u : RequestThread S),
      (State.setRequest { s with client := client } id pc th).requests[i]? = some u →
      (i = id ∧ u = { th with pc := pc }) ∨ (i ≠ id ∧ s.requests[i]? = some u) :=
    fun i u hu => setRequest_cases hth hu
  have hkeep : ∀ (i : Nat) (v : RequestThread S) (m : Selected), s.requests[i]? = some v →
      v.pc.remembered = some m →
      ∃ u, (State.setRequest { s with client := client } id pc th).requests[i]? = some u ∧
        u.sample = v.sample ∧ u.pc.remembered = some m :=
    fun i v m hv hm => setRequest_kept hth hkept hv hm
  -- samples stay with their threads, whatever the step is
  have hold : ∀ (i : Nat) (u : RequestThread S),
      (State.setRequest { s with client := client } id pc th).requests[i]? = some u →
      ∃ v, s.requests[i]? = some v ∧ v.sample = u.sample := by
    intro i u hu
    rcases hcases i u hu with ⟨rfl, rfl⟩ | ⟨-, hu⟩
    · exact ⟨th, hth, rfl⟩
    · exact ⟨u, hu, rfl⟩
  refine ⟨?_, ?_, ?_, ?_, ?_, ?_, ?_, h.responded, h.once, ?_, ?_⟩
  · intro received
    rw [← h.selects]
    exact hselects received
  · intro typeName
    rw [← h.replyPaths]
    exact hpaths typeName
  · intro i j u u' hu hu' hsample
    obtain ⟨v, hv, hvs⟩ := hold i u hu
    obtain ⟨v', hv', hvs'⟩ := hold j u' hu'
    exact h.distinct i j v v' hv hv' (by rw [hvs, hvs', hsample])
  · intro i u m hu hm
    rcases hcases i u hu with ⟨rfl, rfl⟩ | ⟨-, hu⟩
    · exact hmember m hm
    · exact h.selected i u m hu hm
  -- fresh: the entry for the thread's own sample is what `hfresh` is about
  · intro sample hnone
    by_cases hsample : sample = th.sample
    · rw [hsample]
      apply hfresh
      exact hnone id _ (List.getElem?_set_self (lt_length_of_getElem? hth)) hsample.symm
    · refine (hothers sample hsample).1.trans (h.fresh sample ?_)
      intro i u hu hus
      apply hnone i u ?_ hus
      have hi : i ≠ id := by
        rintro rfl
        rw [hth] at hu
        cases hu
        exact hsample hus.symm
      exact (List.getElem?_set_ne (Ne.symm hi)).trans hu
  -- remembered: different threads have different samples, so their entries are not touched
  · intro i u m hu hm htaken
    rcases hcases i u hu with ⟨rfl, rfl⟩ | ⟨hi, hu⟩
    · exact hremembered m hm htaken
    · have hne : u.sample ≠ th.sample := fun heq => hi (h.distinct i id u th hu hth heq)
      rw [← h.remembered i u m hu hm htaken]
      exact (hothers u.sample hne).2
  · intro x hx
    obtain ⟨v, m, hv, hvs, hvr⟩ := h.handles x hx
    obtain ⟨u, hu, hus, hur⟩ := hkeep _ v m hv hvr
    exact ⟨u, m, hu, by rw [hus, hvs], hur⟩
  · intro i u path hu hpc
    obtain ⟨v, m, hv, hvr, hpath⟩ := h.paths i u path hu hpc
    obtain ⟨w, hw, -, hwr⟩ := hkeep _ v m hv hvr
    exact ⟨w, m, hw, hwr, hpath⟩
  · intro w hw
    obtain ⟨v, m, hv, hvr, hrelated, hrest⟩ := h.written w hw
    obtain ⟨u, hu, hus, hur⟩ := hkeep _ v m hv hvr
    exact ⟨u, m, hu, hur, by rw [hrelated, hus], hrest⟩

omit [DecidableEq S] in
/-- A thread moves on without an effect on the client. -/
theorem ReplyInv.advance (h : ReplyInv service c₀ s) (hth : s.requests[id]? = some th)
    (hremembered : pc.remembered = th.pc.remembered)
    (hmember : ∀ m, pc.member = some m → c₀.selectMember service th.received = some m) :
    ReplyInv service c₀ (s.setRequest id pc th) := by
  refine h.setRequest hth (fun _ => rfl) (fun _ => rfl) ?_ hmember (fun _ _ => ⟨rfl, rfl⟩) ?_ ?_
  · intro m hm
    rw [hremembered, hm]
  · intro hnone
    rw [hremembered] at hnone
    exact h.replyIdType_eq_none hth hnone
  · intro m hm htaken
    rw [hremembered] at hm
    exact h.remembered id th m hth hm htaken

omit [DecidableEq S] in
theorem ReplyInv.giveHandle {m : Selected} (h : ReplyInv service c₀ s)
    (hth : s.requests[id]? = some th) (hm : th.pc.remembered = some m) :
    ReplyInv service c₀ { s with handles := s.handles ++ [⟨id, th.sample⟩] } where
  selects := h.selects
  replyPaths := h.replyPaths
  distinct := h.distinct
  selected := h.selected
  fresh := h.fresh
  remembered := h.remembered
  handles x hx := by
    rcases List.mem_append.mp hx with hx | hx
    · exact h.handles x hx
    · obtain rfl := List.mem_singleton.mp hx
      exact ⟨th, m, hth, rfl, hm⟩
  responded i u hu := List.mem_append_left _ (h.responded i u hu)
  once := h.once
  paths := h.paths
  written := h.written

theorem ReplyInv.request (h : ReplyInv service c₀ s) (hth : s.requests[id]? = some th)
    {e : Event S} (hstep : stepRequest service s id th e = some s') : ReplyInv service c₀ s' := by
  obtain ⟨pc, sample, received⟩ := th
  cases e with
  | select i =>
    cases pc with
    | select =>
      simp only [stepRequest] at hstep
      split at hstep
      · cases hstep
        exact h.advance hth rfl (fun m hm => by cases hm)
      · rename_i member hmember
        cases hstep
        refine h.advance hth rfl ?_
        intro m hm
        obtain rfl : member = m := by simpa [RequestPc.member] using hm
        rw [← h.selects]
        exact hmember
    | _ => cases hstep
  | remember i =>
    cases pc with
    | remember member =>
      simp only [stepRequest] at hstep
      cases hstep
      -- the thread is the only one for its sample, which has no entry yet
      have hnone := h.replyIdType_eq_none hth rfl
      refine h.setRequest hth (selectMember_rememberReply service s.client sample member.typeName)
        (replyPath_rememberReply service s.client sample member.typeName) (fun m hm => by cases hm)
        (fun m hm => h.selected id _ m hth hm) ?_ (fun hm => by cases hm) ?_
      · intro other hne
        exact ⟨replyIdType_rememberReply_ne hne s.client member.typeName,
          rememberedPath_rememberReply_ne hne service s.client member.typeName⟩
      · intro m hm _
        obtain rfl : member = m := by simpa [RequestPc.remembered] using hm
        rw [← h.replyPaths]
        exact rememberedPath_rememberReply hnone service member.typeName
    | _ => cases hstep
  | invoke i =>
    cases pc with
    | invoke member =>
      have hmember : ∀ m, some member = some m → c₀.selectMember service received = some m :=
        fun m hm => h.selected id _ m hth hm
      simp only [stepRequest] at hstep
      split at hstep
      · cases hstep
        exact h.advance hth rfl hmember
      · cases hstep
        exact h.advance hth rfl hmember
      · rename_i call hcall
        cases hstep
        obtain ⟨⟨t, w⟩, -, heq⟩ := Option.map_eq_some_iff.mp hcall
        obtain ⟨callback, -, rfl⟩ := Option.map_eq_some_iff.mp heq
        -- the handle is for a request whose reply type has been remembered
        exact (h.giveHandle hth rfl).advance hth rfl hmember
    | _ => cases hstep
  | finish i =>
    cases pc with
    | callback member =>
      simp only [stepRequest] at hstep
      cases hstep
      exact h.advance hth rfl fun m hm => h.selected id _ m hth hm
    | _ => cases hstep
  | _ => cases hstep

end Requests

/-! ## Responses -/

section Responses

variable {id : Nat} {th : ResponseThread S}

omit [DecidableEq S] [Xtypes] in
theorem setResponse_cases {pc : ResponsePc} (hth : s.responses[id]? = some th) {i : Nat}
    {u : ResponseThread S} (hu : (s.setResponse id pc th).responses[i]? = some u) :
    (i = id ∧ u = { th with pc := pc }) ∨ (i ≠ id ∧ s.responses[i]? = some u) :=
  getElem?_set_cases hth hu

omit [DecidableEq S] [Xtypes] in
theorem setResponse_handle {pc : ResponsePc} (hth : s.responses[id]? = some th) {i : Nat}
    {u : ResponseThread S} (hu : (s.setResponse id pc th).responses[i]? = some u) :
    ∃ v, s.responses[i]? = some v ∧ v.handle = u.handle := by
  rcases setResponse_cases hth hu with ⟨rfl, rfl⟩ | ⟨-, hold⟩
  · exact ⟨th, hth, rfl⟩
  · exact ⟨u, hold, rfl⟩

omit [DecidableEq S] [Xtypes] in
theorem responded_setResponse {pc : ResponsePc} (hth : s.responses[id]? = some th)
    (h : ∀ (i : Nat) (u : ResponseThread S), s.responses[i]? = some u → u.handle ∈ s.handles)
    (i : Nat) (u : ResponseThread S) (hu : (s.setResponse id pc th).responses[i]? = some u) :
    u.handle ∈ s.handles := by
  obtain ⟨v, hv, hhandle⟩ := setResponse_handle hth hu
  rw [← hhandle]
  exact h i v hv

omit [DecidableEq S] [Xtypes] in
theorem once_setResponse {pc : ResponsePc} (hth : s.responses[id]? = some th)
    (h : ∀ (i j : Nat) (u u' : ResponseThread S), s.responses[i]? = some u →
      s.responses[j]? = some u' → u.handle = u'.handle → i = j)
    (i j : Nat) (u u' : ResponseThread S) (hu : (s.setResponse id pc th).responses[i]? = some u)
    (hu' : (s.setResponse id pc th).responses[j]? = some u') (hhandle : u.handle = u'.handle) :
    i = j := by
  obtain ⟨v, hv, hvh⟩ := setResponse_handle hth hu
  obtain ⟨v', hv', hvh'⟩ := setResponse_handle hth hu'
  exact h i j v v' hv hv' (by rw [hvh, hvh', hhandle])

omit [DecidableEq S] [Xtypes] in
/-- What is taken is what was, and the request of a thread that is past its critical section. -/
theorem taken_setResponse {pc : ResponsePc} (hth : s.responses[id]? = some th) (hpc : pc ≠ .take)
    (request : Nat) :
    Taken (s.setResponse id pc th) request ↔ Taken s request ∨ th.handle.request = request := by
  constructor
  · rintro ⟨i, u, hu, hrequest, hu'⟩
    rcases setResponse_cases hth hu with ⟨rfl, rfl⟩ | ⟨-, hu⟩
    · exact .inr hrequest
    · exact .inl ⟨i, u, hu, hrequest, hu'⟩
  · rintro (⟨i, u, hu, hrequest, hu'⟩ | hrequest)
    · by_cases hi : i = id
      · subst hi
        rw [hth] at hu
        cases hu
        exact ⟨i, _, List.getElem?_set_self (lt_length_of_getElem? hth), hrequest, hpc⟩
      · exact ⟨i, u, (List.getElem?_set_ne (Ne.symm hi)).trans hu, hrequest, hu'⟩
    · exact ⟨id, _, List.getElem?_set_self (lt_length_of_getElem? hth), hrequest, hpc⟩

omit [DecidableEq S] in
/-- The request a thread answers, and that no other thread has taken its path. -/
theorem ReplyInv.requestOf (h : ReplyInv service c₀ s) (hth : s.responses[id]? = some th) :
    ∃ r m, s.requests[th.handle.request]? = some r ∧ r.sample = th.handle.sampleIdentity ∧
      r.pc.remembered = some m ∧ (th.pc = .take → ¬ Taken s th.handle.request) := by
  obtain ⟨r, m, hr, hsample, hm⟩ := h.handles _ (h.responded id th hth)
  refine ⟨r, m, hr, hsample, hm, ?_⟩
  rintro hpc ⟨i, u, hu, hrequest, hu'⟩
  obtain ⟨r', m', hr', hsample', -⟩ := h.handles _ (h.responded i u hu)
  rw [hrequest, hr] at hr'
  cases hr'
  -- a second response to the request would be one for the same handle
  have hhandle : u.handle = th.handle := Handle.ext hrequest (hsample'.symm.trans hsample)
  obtain rfl := h.once i id u th hu hth hhandle
  rw [hth] at hu
  cases hu
  exact hu' hpc

/-- The critical section: the path that is taken is the one of the request. -/
theorem ReplyInv.take (h : ReplyInv service c₀ s) (hth : s.responses[id]? = some th)
    (hpc : th.pc = .take) :
    ReplyInv service c₀
      (State.setResponse
        { s with client := (s.client.takeReplyPath service th.handle.sampleIdentity).2 } id
        (.write (s.client.takeReplyPath service th.handle.sampleIdentity).1) th) := by
  obtain ⟨r, m, hr, hsample, hm, hfree⟩ := h.requestOf hth
  have htaken : ∀ request,
      Taken (State.setResponse
        { s with client := (s.client.takeReplyPath service th.handle.sampleIdentity).2 } id
        (.write (s.client.takeReplyPath service th.handle.sampleIdentity).1) th) request ↔
      Taken s request ∨ th.handle.request = request :=
    taken_setResponse
      (s := { s with client := (s.client.takeReplyPath service th.handle.sampleIdentity).2 }) hth
      (by simp)
  -- the path is still in the table, as no other thread has taken it
  have hpath : (s.client.takeReplyPath service th.handle.sampleIdentity).1 =
      c₀.replyPath service m.typeName := by
    rw [takeReplyPath_path, ← hsample]
    exact h.remembered _ r m hr hm (hfree hpc)
  refine ⟨?_, ?_, h.distinct, h.selected, ?_, ?_, h.handles, ?_, ?_, ?_, h.written⟩
  · intro received
    rw [← h.selects]
    exact selectMember_takeReplyPath service s.client _ received
  · intro typeName
    rw [← h.replyPaths]
    exact replyPath_takeReplyPath service s.client _ typeName
  · intro sample hnone
    exact replyIdType_takeReplyPath service _ (h.fresh sample hnone)
  · intro i u k hu hk hnot
    rw [htaken, not_or] at hnot
    -- a request that is not taken has another sample than this one
    have hne : u.sample ≠ th.handle.sampleIdentity := by
      intro heq
      exact hnot.2 (h.distinct _ i r u hr hu (by rw [hsample, heq]))
    rw [← h.remembered i u k hu hk hnot.1]
    exact rememberedPath_takeReplyPath_ne hne service s.client
  · exact responded_setResponse hth h.responded
  · exact once_setResponse hth h.once
  · intro i u path hu hu'
    rcases setResponse_cases hth hu with ⟨rfl, rfl⟩ | ⟨-, hu⟩
    · have heq : (s.client.takeReplyPath service th.handle.sampleIdentity).1 = path := by
        simpa using hu'
      exact ⟨r, m, hr, hm, by rw [← heq, hpath]⟩
    · exact h.paths i u path hu hu'

omit [DecidableEq S] in
/-- A thread past its critical section ends. -/
theorem ReplyInv.endResponse {pc : ResponsePc} {path : String} (h : ReplyInv service c₀ s)
    (hth : s.responses[id]? = some th) (hwrite : th.pc = .write path) (hpc : pc ≠ .take)
    (hend : ∀ path, pc ≠ .write path) : ReplyInv service c₀ (s.setResponse id pc th) := by
  -- the path was taken before the write, and nothing more is taken at the end
  have htaken := taken_setResponse (s := s) hth hpc
  have hself : Taken s th.handle.request := by
    refine ⟨id, th, hth, rfl, ?_⟩
    rw [hwrite]
    simp
  refine ⟨h.selects, h.replyPaths, h.distinct, h.selected, h.fresh, ?_, h.handles, ?_, ?_, ?_,
    h.written⟩
  · intro i u k hu hk hnot
    rw [htaken, not_or] at hnot
    exact h.remembered i u k hu hk hnot.1
  · exact responded_setResponse hth h.responded
  · exact once_setResponse hth h.once
  · intro i u path hu hu'
    rcases setResponse_cases hth hu with ⟨rfl, rfl⟩ | ⟨-, hu⟩
    · exact absurd hu' (hend path)
    · exact h.paths i u path hu hu'

theorem ReplyInv.response (h : ReplyInv service c₀ s) (hth : s.responses[id]? = some th)
    {e : Event S} (hstep : stepResponse service s id th e = some s') : ReplyInv service c₀ s' := by
  cases e with
  | take i =>
    simp only [stepResponse] at hstep
    split at hstep
    · rename_i hpc
      cases hstep
      exact h.take hth hpc
    · cases hstep
  | write i success =>
    simp only [stepResponse] at hstep
    split at hstep
    · rename_i path hpc
      obtain ⟨r, m, hr, hsample, hm, -⟩ := h.requestOf hth
      split at hstep
      · cases hstep
        exact h.endResponse hth hpc (by simp) (by simp)
      · rename_i reply hreply
        cases success with
        | false =>
          cases hstep
          exact h.endResponse hth hpc (by simp) (by simp)
        | true =>
          cases hstep
          have hend : ReplyInv service c₀ (s.setResponse id .done th) :=
            h.endResponse hth hpc (by simp) (by simp)
          -- the write goes to the sample that the handle holds, with the path that was taken
          refine { hend with written := ?_ }
          intro w hw
          rcases List.mem_append.mp hw with hw | hw
          · exact h.written w hw
          · obtain rfl := List.mem_singleton.mp hw
            obtain ⟨r', m', hr', hm', hpath⟩ := h.paths id th path hth hpc
            exact ⟨r', m', hr', hm', by rw [hr] at hr'; cases hr'; exact hsample.symm, hpath,
              hreply⟩
    · cases hstep
  | _ => cases hstep

omit [DecidableEq S] in
/-- A response is given for a handle that has none yet. -/
theorem ReplyInv.respond {handle : Handle S} (h : ReplyInv service c₀ s)
    (hgiven : handle ∈ s.handles) (hnew : handle ∉ s.responses.map ResponseThread.handle)
    (type : DynamicType) (response : Value) :
    ReplyInv service c₀
      { s with responses := s.responses ++ [⟨.take, handle, type, response⟩] } := by
  -- a response that is given has taken nothing yet
  have hother : ∀ (i : Nat) (u : ResponseThread S), s.responses[i]? = some u →
      u.handle ≠ handle := by
    intro i u hu heq
    exact hnew (List.mem_map.mpr ⟨u, List.mem_of_getElem? hu, heq⟩)
  refine ⟨h.selects, h.replyPaths, h.distinct, h.selected, h.fresh, ?_, h.handles, ?_, ?_, ?_,
    h.written⟩
  · intro i u m hu hm hnot
    refine h.remembered i u m hu hm ?_
    rintro ⟨j, v, hv, hrequest, hpc⟩
    refine hnot ⟨j, v, ?_, hrequest, hpc⟩
    exact (List.getElem?_append_left (lt_length_of_getElem? hv)).trans hv
  · intro i u hu
    rcases getElem?_concat_cases hu with hu | ⟨-, rfl⟩
    · exact h.responded i u hu
    · exact hgiven
  · intro i j u u' hu hu' hhandle
    rcases getElem?_concat_cases hu with hu | ⟨hi, rfl⟩
    · rcases getElem?_concat_cases hu' with hu' | ⟨-, rfl⟩
      · exact h.once i j u u' hu hu' hhandle
      · exact absurd hhandle (hother i u hu)
    · rcases getElem?_concat_cases hu' with hu' | ⟨hj, -⟩
      · exact absurd hhandle.symm (hother j u' hu')
      · rw [hi, hj]
  · intro i u path hu hpc
    rcases getElem?_concat_cases hu with hu | ⟨-, rfl⟩
    · exact h.paths i u path hu hpc
    · cases hpc

end Responses

omit [DecidableEq S] in
/-- A request with a new sample identity arrives. -/
theorem ReplyInv.receive {sample : S} (h : ReplyInv service c₀ s)
    (hnew : sample ∉ s.requests.map RequestThread.sample) (received : Value) :
    ReplyInv service c₀ { s with requests := s.requests ++ [⟨.select, sample, received⟩] } := by
  have hother : ∀ (i : Nat) (u : RequestThread S), s.requests[i]? = some u → u.sample ≠ sample := by
    intro i u hu heq
    exact hnew (List.mem_map.mpr ⟨u, List.mem_of_getElem? hu, heq⟩)
  have hkeep : ∀ (i : Nat) (u : RequestThread S), s.requests[i]? = some u →
      (s.requests ++ [⟨.select, sample, received⟩])[i]? = some u :=
    fun i u hu => (List.getElem?_append_left (lt_length_of_getElem? hu)).trans hu
  refine ⟨h.selects, h.replyPaths, ?_, ?_, ?_, ?_, ?_, h.responded, h.once, ?_, ?_⟩
  · intro i j u u' hu hu' hsample
    rcases getElem?_concat_cases hu with hu | ⟨hi, rfl⟩
    · rcases getElem?_concat_cases hu' with hu' | ⟨-, rfl⟩
      · exact h.distinct i j u u' hu hu' hsample
      · exact absurd hsample (hother i u hu)
    · rcases getElem?_concat_cases hu' with hu' | ⟨hj, -⟩
      · exact absurd hsample.symm (hother j u' hu')
      · rw [hi, hj]
  · intro i u m hu hm
    rcases getElem?_concat_cases hu with hu | ⟨-, rfl⟩
    · exact h.selected i u m hu hm
    · cases hm
  · intro σ hnone
    exact h.fresh σ fun i u hu => hnone i u (hkeep i u hu)
  · intro i u m hu hm hnot
    rcases getElem?_concat_cases hu with hu | ⟨-, rfl⟩
    · exact h.remembered i u m hu hm hnot
    · cases hm
  · intro x hx
    obtain ⟨u, m, hu, hrest⟩ := h.handles x hx
    exact ⟨u, m, hkeep _ u hu, hrest⟩
  · intro i u path hu hpc
    obtain ⟨r, m, hr, hrest⟩ := h.paths i u path hu hpc
    exact ⟨r, m, hkeep _ r hr, hrest⟩
  · intro w hw
    obtain ⟨r, m, hr, hrest⟩ := h.written w hw
    exact ⟨r, m, hkeep _ r hr, hrest⟩

theorem replyInv_of_step {e : Event S} (h : ReplyInv service c₀ s)
    (hstep : step service s e = some s') : ReplyInv service c₀ s' := by
  cases e with
  | receive sample received =>
    simp only [step] at hstep
    split at hstep
    · cases hstep
    · rename_i hnew
      cases hstep
      exact h.receive hnew received
  | respond handle type response =>
    simp only [step] at hstep
    split at hstep
    · rename_i hguard
      cases hstep
      exact h.respond hguard.1 hguard.2 type response
    · cases hstep
  | select id | remember id | invoke id | finish id =>
    obtain ⟨th, hth, hth'⟩ := Option.bind_eq_some_iff.mp hstep
    exact h.request hth hth'
  | take id | write id success =>
    obtain ⟨th, hth, hth'⟩ := Option.bind_eq_some_iff.mp hstep
    exact h.response hth hth'

theorem replyInv_of_reachable (h : (machine service c₀).Reachable s) : ReplyInv service c₀ s :=
  h.invariant (fun _ hinit => replyInv_of_init hinit) fun _ _ _ hinv hstep =>
    replyInv_of_step hinv hstep

/-! ## Correlation -/

/-- Answering a request leaves the path of every other sample as it was. -/
theorem rememberedPath_of_response {id : Nat} {th : ResponseThread S} {e : Event S}
    (hstep : stepResponse service s id th e = some s') {sample : S}
    (hne : sample ≠ th.handle.sampleIdentity) :
    s'.client.rememberedPath service sample = s.client.rememberedPath service sample := by
  cases e with
  | take i =>
    simp only [stepResponse] at hstep
    split at hstep
    · cases hstep
      exact rememberedPath_takeReplyPath_ne hne service s.client
    · cases hstep
  | write i success =>
    simp only [stepResponse] at hstep
    split at hstep
    · split at hstep
      · cases hstep
        rfl
      · cases success with
        | false =>
          cases hstep
          rfl
        | true =>
          cases hstep
          rfl
    · cases hstep
  | _ => cases hstep

omit [DecidableEq S] [Xtypes] in
/-- Without a mapping the response is the whole reply. -/
theorem memberPath_replyPath_of_none {c : Client S Cb} {typeName : String}
    (h : c.requestReply typeName = none) (hname : Undotted service.replyType.name) :
    memberPath (c.replyPath service typeName) = [] := by
  have hpath : c.replyPath service typeName = service.replyType.name := by
    unfold replyPath
    rw [h]
  rw [hpath]
  exact memberPath_of_fields (pathFields_of_undotted hname) List.not_mem_nil

/-- In every interleaving, a reply that was written for a handle has the sample identity of the
request the handle was made for, and its response at the path that belongs to the node selected for
that request; as long as a request is not answered its path is the one in the table, and the answer
to another request leaves it there. -/
theorem responses_correlated (h : (machine service c₀).Reachable s) :
    (∀ w ∈ s.written, ∃ r m, s.requests[w.handle.request]? = some r ∧
      w.relatedSampleIdentity = r.sample ∧ c₀.selectMember service r.received = some m ∧
      w.path = c₀.replyPath service m.typeName ∧
      ∃ u, w.reply.component service.replyType (memberPath (c₀.replyPath service m.typeName)) =
        some (u, w.response)) ∧
    (∀ typeName, c₀.requestReply typeName = none → Undotted service.replyType.name →
      memberPath (c₀.replyPath service typeName) = []) ∧
    (∀ x ∈ s.handles, ∃ r m, s.requests[x.request]? = some r ∧ r.sample = x.sampleIdentity ∧
      c₀.selectMember service r.received = some m ∧
      (¬ Taken s x.request →
        s.client.rememberedPath service x.sampleIdentity = c₀.replyPath service m.typeName)) ∧
    ∀ (id : Nat) (th : ResponseThread S), s.responses[id]? = some th → ∀ s',
      (step service s (.take id) = some s' ∨
        ∃ success, step service s (.write id success) = some s') →
      ∀ sample, sample ≠ th.handle.sampleIdentity →
        s'.client.rememberedPath service sample = s.client.rememberedPath service sample := by
  have hinv := replyInv_of_reachable h
  refine ⟨?_, fun _ hnone hname => memberPath_replyPath_of_none hnone hname, ?_, ?_⟩
  · intro w hw
    obtain ⟨r, m, hr, hm, hrelated, hpath, hreply⟩ := hinv.written w hw
    -- what was assigned at the path is read back from there
    obtain ⟨u, -, hcomponent⟩ := Value.component_assign hreply
    rw [hpath] at hcomponent
    exact ⟨r, m, hr, hrelated, hinv.selected _ r m hr (member_of_remembered hm), hpath, u,
      hcomponent⟩
  · intro x hx
    obtain ⟨r, m, hr, hsample, hm⟩ := hinv.handles x hx
    refine ⟨r, m, hr, hsample, hinv.selected _ r m hr (member_of_remembered hm), ?_⟩
    intro hnot
    rw [← hsample]
    exact hinv.remembered _ r m hr hm hnot
  · intro id th hth s' hstep sample hne
    rcases hstep with hstep | ⟨success, hstep⟩
    · obtain ⟨th', hth', hrest⟩ := Option.bind_eq_some_iff.mp hstep
      rw [hth] at hth'
      cases hth'
      exact rememberedPath_of_response hrest hne
    · obtain ⟨th', hth', hrest⟩ := Option.bind_eq_some_iff.mp hstep
      rw [hth] at hth'
      cases hth'
      exact rememberedPath_of_response hrest hne

/-! ## Examples -/

omit [DecidableEq S] [Xtypes]

def moveType : DynamicType := .structType "Move" [("x", .leafType "int32_t" .int32)]

def stopType : DynamicType := .structType "Stop" [("hard", .leafType "bool" .boolean)]

def driveService : Service where
  requestType := .unionType "Request" (.leafType "int32_t" .int32)
    [("move", moveType), ("stop", stopType)] [⟨[1], false⟩, ⟨[2], false⟩]
  replyType := .structType "Reply" [("moved", moveType), ("stopped", stopType)]

def driveClient : Client Nat Nat where
  typeToDiscriminator := KeyedStore.empty.set "Stop" "Reply.stopped"
  memberTypes := ["Move", "Stop"]
  callbacks := (KeyedStore.empty.set "Move" 10).set "Stop" 11
  requestReply := (KeyedStore.empty.set "Move" "Moved").set "Stop" "Stop"
  memberTree := KeyedStore.empty.set "Request" (.node "" "Request"
    [("move", .node "move" "Move" []), ("stop", .node "stop" "Stop" [])])
  replyIdType := KeyedStore.empty

def stopRequest : Value := .union 2 "stop" (.struct [("hard", .leaf (.integral 1))])

def stopResponse (hard : Int) : Value := .struct [("hard", .leaf (.integral hard))]

def overtakingAnswers : List (Event Nat) :=
  [.receive 5 stopRequest, .receive 6 stopRequest, .select 0, .select 1, .remember 0, .remember 1,
    .invoke 0, .invoke 1, .respond ⟨1, 6⟩ stopType (stopResponse 1), .finish 0, .take 0,
    .write 0 true, .finish 1, .respond ⟨0, 5⟩ stopType (stopResponse 0), .take 1, .write 1 true]

theorem responses_correlated_overtakingAnswers :
    ∃ s, (@machine Nat Nat _ firstLabelXtypes driveService driveClient).run
        ⟨driveClient, [], [], [], []⟩ overtakingAnswers = some s ∧
      s.written.map Written.relatedSampleIdentity = [6, 5] ∧
      ∀ w ∈ s.written, ∃ r m, s.requests[w.handle.request]? = some r ∧
        w.relatedSampleIdentity = r.sample ∧
        driveClient.selectMember driveService r.received = some m ∧
        w.path = driveClient.replyPath driveService m.typeName ∧
        ∃ u, @Value.component firstLabelXtypes driveService.replyType w.reply
          (memberPath (driveClient.replyPath driveService m.typeName)) = some (u, w.response) := by
  refine ⟨_, rfl, rfl, ?_⟩
  have hinit : (@machine Nat Nat _ firstLabelXtypes driveService driveClient).Reachable
      ⟨driveClient, [], [], [], []⟩ := Machine.ReachableVia.init ⟨rfl, rfl⟩
  have h := @responses_correlated Nat Nat _ firstLabelXtypes _ _ _
    (hinit.of_run overtakingAnswers rfl)
  exact h.1

end FastDdsSh.Client.Correlation
