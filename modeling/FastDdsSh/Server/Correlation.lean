import FastDdsSh.Lib.Transition
import FastDdsSh.Server

/-!
# Correlation of replies with calls

Calls, arriving replies and the two critical sections of each `Server::receive` thread interleave
freely.  A reply may come in any order, several times, or for a sample identity no call has.
-/

namespace FastDdsSh.Server.Correlation

open Transition KeyedStore

/-- Where a thread on `Server::receive` is: before its first critical section, before its second one
with the handle it found, or at its end (the sample was unknown, the conversion failed, or the
second critical section is over). -/
inductive ReplyPc (H : Type) where
  | lookup
  | deliver (handle : H)
  | unknown
  | failed
  | done

structure ReplyThread (H S : Type) where
  pc : ReplyPc H
  sample : S
  reply : Value

/-- A call that was made; `sample` is the sample identity of its write, if there was one. -/
structure Call (H K S : Type) where
  handle : H
  client : K
  sample : Option S

structure Response (H K S : Type) where
  handle : H
  client : K
  sample : S
  message : DynamicType × Value

structure State (N M L : Type → Type) (H K S : Type) where
  server : Server N M L H K
  threads : List (ReplyThread H S)
  calls : List (Call H K S)
  responses : List (Response H K S)

/-- A call, the arrival of a reply, or a critical section of a thread; `converted` and `written` are
the outcomes of the conversion and of the write. -/
inductive Event (H K S : Type) where
  | call (t : DynamicType) (v : Value) (handle : H) (client : K) (converted : Bool)
      (written : Option S)
  | arrive (sample : S) (reply : Value)
  | lookup (id : Nat)
  | deliver (id : Nat) (converted : Bool)

variable {N M L : Type → Type} {H K S : Type} [Container N String] [Container M H] [Container L S]
  [DecidableEq H] [DecidableEq S] [Xtypes]

def writtenSample (converted : Bool) (written : Option S) : Option S :=
  if converted then written else none

/-- `call_service`: handles are not used twice, nor are sample identities given to two writes. -/
def stepCall (service : Service) (s : State N M L H K S) (t : DynamicType) (v : Value)
    (handle : H) (client : K) (converted : Bool) (written : Option S) :
    Option (State N M L H K S) :=
  let sample := writtenSample converted written
  if handle ∈ s.calls.map Call.handle ∨
      (sample.isSome = true ∧ sample ∈ s.calls.map Call.sample) then none
  else
    (s.server.callService service t v handle client converted written).map fun out =>
      { s with server := out.1, calls := s.calls ++ [⟨handle, client, sample⟩] }

def stepLookup (s : State N M L H K S) (id : Nat) : Option (State N M L H K S) :=
  match s.threads[id]? with
  | some ⟨.lookup, sample, reply⟩ =>
      let pc := match s.server.lookupCall sample with
        | some handle => .deliver handle
        | none => .unknown
      some { s with threads := s.threads.set id ⟨pc, sample, reply⟩ }
  | _ => none

def stepDeliver (service : Service) (s : State N M L H K S) (id : Nat) (converted : Bool) :
    Option (State N M L H K S) :=
  match s.threads[id]? with
  | some ⟨.deliver handle, sample, reply⟩ =>
      if converted then
        (s.server.deliverReply service sample handle reply).map fun out =>
          { s with
            server := out.1
            threads := s.threads.set id ⟨.done, sample, reply⟩
            responses := s.responses ++ out.2.toList.map fun (client, message) =>
              ⟨handle, client, sample, message⟩ }
      else some { s with threads := s.threads.set id ⟨.failed, sample, reply⟩ }
  | _ => none

def step (service : Service) (s : State N M L H K S) : Event H K S → Option (State N M L H K S)
  | .call t v handle client converted written =>
      stepCall service s t v handle client converted written
  | .arrive sample reply => some { s with threads := s.threads ++ [⟨.lookup, sample, reply⟩] }
  | .lookup id => stepLookup s id
  | .deliver id converted => stepDeliver service s id converted

abbrev KeyedState (H K S : Type) :=
  State (KeyedStore String) (KeyedStore H) (KeyedStore S) H K S

variable {service : Service} {s s' : KeyedState H K S}

def machine (service : Service) : Machine (KeyedState H K S) (Event H K S) where
  init s := s.server.callhandleClient = empty ∧ s.server.sampleCallhandle = empty ∧
    s.server.replyIdType = empty ∧ s.threads = [] ∧ s.calls = [] ∧ s.responses = []
  step := step service

def Answered (s : KeyedState H K S) (handle : H) : Prop :=
  handle ∈ s.responses.map Response.handle

/-! ## The invariant -/

structure CallInv (s : KeyedState H K S) : Prop where
  handles : (s.calls.map Call.handle).Nodup
  samples : ∀ c ∈ s.calls, ∀ c' ∈ s.calls, c.sample.isSome = true → c.sample = c'.sample →
    c.handle = c'.handle
  sampleCallhandle : ∀ sample handle, s.server.sampleCallhandle sample = some handle →
    ∃ c ∈ s.calls, c.handle = handle ∧ c.sample = some sample
  callhandleClient : ∀ handle client, s.server.callhandleClient handle = some client →
    ∃ c ∈ s.calls, c.handle = handle ∧ c.client = client
  threads : ∀ (id : Nat) (th : ReplyThread H S) (handle : H), s.threads[id]? = some th →
    th.pc = .deliver handle → ∃ c ∈ s.calls, c.handle = handle ∧ c.sample = some th.sample
  responses : ∀ r ∈ s.responses, ∃ c ∈ s.calls, c.handle = r.handle ∧ c.client = r.client ∧
    c.sample = some r.sample
  once : (s.responses.map Response.handle).Nodup
  consumed : ∀ handle, Answered s handle → s.server.callhandleClient handle = none
  pending : ∀ c ∈ s.calls, ∀ sample, c.sample = some sample → ¬ Answered s c.handle →
    s.server.callhandleClient c.handle = some c.client ∧
    s.server.sampleCallhandle sample = some c.handle
  done : ∀ (id : Nat) (th : ReplyThread H S), s.threads[id]? = some th → th.pc = .done →
    ∃ c ∈ s.calls, c.sample = some th.sample ∧ Answered s c.handle

theorem callInv_of_init (h : (machine service).init s) : CallInv s := by
  obtain ⟨hc, hs, -, ht, hcalls, hr⟩ := h
  constructor <;> simp [hc, hs, ht, hcalls, hr, empty, Answered]

omit [DecidableEq H] [DecidableEq S] [Xtypes] in
theorem CallInv.handle_injective (h : CallInv s) {c c' : Call H K S} (hc : c ∈ s.calls)
    (hc' : c' ∈ s.calls) (heq : c.handle = c'.handle) : c = c' :=
  List.inj_on_of_nodup_map h.handles hc hc' heq

/-! ## Calls -/

/-- The call is recorded; a write registers its handle and its sample. -/
theorem stepCall_cases {t : DynamicType} {v : Value} {handle : H} {client : K} {converted : Bool}
    {written : Option S}
    (hstep : stepCall service s t v handle client converted written = some s') :
    ∃ sample : Option S, sample = writtenSample converted written ∧
      handle ∉ s.calls.map Call.handle ∧
      (sample.isSome = true → sample ∉ s.calls.map Call.sample) ∧
      s'.calls = s.calls ++ [⟨handle, client, sample⟩] ∧ s'.threads = s.threads ∧
      s'.responses = s.responses ∧
      (s'.server.callhandleClient = s.server.callhandleClient ∨
        s'.server.callhandleClient = s.server.callhandleClient.set handle client) ∧
      (∀ σ, sample = some σ →
        s'.server.callhandleClient = s.server.callhandleClient.set handle client) ∧
      s'.server.sampleCallhandle = match sample with
        | some σ => s.server.sampleCallhandle.set σ handle
        | none => s.server.sampleCallhandle := by
  unfold stepCall at hstep
  simp only at hstep
  -- the guards of the step: a handle or a sample identity used before ends no call
  split at hstep
  · cases hstep
  rename_i hfresh
  obtain ⟨hhandle, hsample⟩ := not_or.mp hfresh
  obtain ⟨⟨server, request⟩, hcall, rfl⟩ := Option.map_eq_some_iff.mp hstep
  unfold callService at hcall
  obtain ⟨r, -, heq⟩ := Option.map_eq_some_iff.mp hcall
  obtain ⟨hserver, -⟩ := Prod.mk.inj heq
  refine ⟨writtenSample converted written, rfl, hhandle,
    fun hsome hmem => hsample ⟨hsome, hmem⟩, rfl, rfl, rfl, ?_⟩
  subst hserver
  -- a failed conversion or write leaves the tables; a write registers the call
  cases converted with
  | false => simp [writtenSample]
  | true =>
    cases written with
    | none => simp [writtenSample, issueCall]
    | some σ =>
      obtain ⟨hs, hc, -, -⟩ := issueCall_written
        { s.server with
          typeToDiscriminator := (s.server.typeToDiscriminator.subscript (stripped t.name) "").2 }
        t.name handle client σ
      simp [writtenSample, hs, hc]

theorem CallInv.call {t : DynamicType} {v : Value} {handle : H} {client : K} {converted : Bool}
    {written : Option S} (h : CallInv s)
    (hstep : stepCall service s t v handle client converted written = some s') : CallInv s' := by
  obtain ⟨sample, -, hhandle, hsample, hcalls, hthreads, hresponses, hclients, hwritten,
    hsamples⟩ := stepCall_cases hstep
  have hanswered : ∀ x, Answered s' x ↔ Answered s x := by
    intro x
    rw [Answered, Answered, hresponses]
  -- the handle is new, so no entry of an earlier call is overwritten
  have hold : ∀ c ∈ s.calls, c.handle ≠ handle := by
    intro c hc heq
    exact hhandle (List.mem_map.mpr ⟨c, hc, heq⟩)
  have hkeep : ∀ x, x ≠ handle → s'.server.callhandleClient x = s.server.callhandleClient x := by
    intro x hx
    rcases hclients with heq | heq
    · rw [heq]
    · rw [heq, set_ne _ _ hx]
  have hmem : ∀ c ∈ s.calls, c ∈ s'.calls := by
    intro c hc
    rw [hcalls]
    exact List.mem_append_left _ hc
  have hnew : (⟨handle, client, sample⟩ : Call H K S) ∈ s'.calls := by
    rw [hcalls]
    simp
  have hcases : ∀ c ∈ s'.calls, c ∈ s.calls ∨ c = ⟨handle, client, sample⟩ := by
    intro c hc
    rw [hcalls] at hc
    simpa using hc
  -- a sample identity that an earlier call has is not the new one
  have hfresh : ∀ c ∈ s.calls, c.sample.isSome = true → c.sample ≠ sample := by
    intro c hc hsome heq
    refine hsample (by rw [← heq]; exact hsome) ?_
    exact List.mem_map.mpr ⟨c, hc, heq⟩
  refine ⟨?_, ?_, ?_, ?_, ?_, ?_, ?_, ?_, ?_, ?_⟩
  · rw [hcalls, List.map_append]
    exact List.nodup_append.mpr ⟨h.handles, by simp, by
      intro a ha b hb
      rw [List.map_singleton, List.mem_singleton] at hb
      rintro rfl
      rw [hb] at ha
      exact hhandle ha⟩
  · intro c hc c' hc' hsome heq
    rcases hcases c hc with hc | rfl
    · rcases hcases c' hc' with hc' | rfl
      · exact h.samples c hc c' hc' hsome heq
      · exact absurd heq (hfresh c hc hsome)
    · rcases hcases c' hc' with hc' | rfl
      · exact absurd heq.symm (hfresh c' hc' (by rw [← heq]; exact hsome))
      · rfl
  · intro σ x hx
    rw [hsamples] at hx
    cases hs : sample with
    | none =>
      rw [hs] at hx
      obtain ⟨c, hc, hrest⟩ := h.sampleCallhandle σ x hx
      exact ⟨c, hmem c hc, hrest⟩
    | some τ =>
      rw [hs] at hx
      -- the sample that was written finds the new call, every other one what it found before
      by_cases hστ : σ = τ
      · subst hστ
        have heq : handle = x := by simpa using hx
        exact ⟨_, hnew, heq, hs⟩
      · have hx' : s.server.sampleCallhandle σ = some x := by
          rw [← hx]
          exact (set_ne _ _ hστ).symm
        obtain ⟨c, hc, hrest⟩ := h.sampleCallhandle σ x hx'
        exact ⟨c, hmem c hc, hrest⟩
  · intro x k hx
    by_cases hxh : x = handle
    · subst hxh
      rcases hclients with heq | heq
      · rw [heq] at hx
        obtain ⟨c, hc, hch, -⟩ := h.callhandleClient x k hx
        exact absurd hch (hold c hc)
      · rw [heq, set_self] at hx
        exact ⟨_, hnew, rfl, by simpa using hx⟩
    · rw [hkeep x hxh] at hx
      obtain ⟨c, hc, hrest⟩ := h.callhandleClient x k hx
      exact ⟨c, hmem c hc, hrest⟩
  · intro id th x hth hpc
    rw [hthreads] at hth
    obtain ⟨c, hc, hrest⟩ := h.threads id th x hth hpc
    exact ⟨c, hmem c hc, hrest⟩
  · intro r hr
    rw [hresponses] at hr
    obtain ⟨c, hc, hrest⟩ := h.responses r hr
    exact ⟨c, hmem c hc, hrest⟩
  · rw [hresponses]
    exact h.once
  · intro x hx
    rw [hanswered] at hx
    obtain ⟨r, hr, hrx⟩ := List.mem_map.mp hx
    obtain ⟨c, hc, hch, -⟩ := h.responses r hr
    -- an answered handle belongs to an earlier call, so the new entry is not its
    have hne : x ≠ handle := by
      rw [← hrx, ← hch]
      exact hold c hc
    rw [hkeep x hne]
    exact h.consumed x hx
  · intro c hc σ hσ hpending
    rw [hanswered] at hpending
    rcases hcases c hc with hc | rfl
    · obtain ⟨hclient, hfound⟩ := h.pending c hc σ hσ hpending
      refine ⟨by rw [hkeep c.handle (hold c hc)]; exact hclient, ?_⟩
      rw [hsamples]
      cases hs : sample with
      | none => exact hfound
      | some τ =>
        have hne : σ ≠ τ := by
          rintro rfl
          exact hfresh c hc (by rw [hσ]; rfl) (by rw [hσ, hs])
        show s.server.sampleCallhandle.set τ handle σ = some c.handle
        rw [set_ne _ _ hne]
        exact hfound
    · have hs : sample = some σ := hσ
      refine ⟨by rw [hwritten σ hs, set_self], ?_⟩
      rw [hsamples, hs]
      exact set_self _ _ _
  · intro id th hth hpc
    rw [hthreads] at hth
    obtain ⟨c, hc, hcs, hca⟩ := h.done id th hth hpc
    exact ⟨c, hmem c hc, hcs, (hanswered c.handle).mpr hca⟩

/-! ## Replies -/

omit [DecidableEq H] [DecidableEq S] [Xtypes] in
/-- A thread moves on without an effect on the server or the histories. -/
theorem CallInv.setThread {id : Nat} {th th' : ReplyThread H S} (h : CallInv s)
    (hth : s.threads[id]? = some th) (hdone : th'.pc ≠ .done)
    (hdeliver : ∀ handle, th'.pc = .deliver handle →
      ∃ c ∈ s.calls, c.handle = handle ∧ c.sample = some th'.sample) :
    CallInv { s with threads := s.threads.set id th' } where
  handles := h.handles
  samples := h.samples
  sampleCallhandle := h.sampleCallhandle
  callhandleClient := h.callhandleClient
  threads i u handle hu hpc := by
    rcases getElem?_set_cases hth hu with ⟨-, rfl⟩ | ⟨-, hold⟩
    · exact hdeliver handle hpc
    · exact h.threads i u handle hold hpc
  responses := h.responses
  once := h.once
  consumed := h.consumed
  pending := h.pending
  done i u hu hpc := by
    rcases getElem?_set_cases hth hu with ⟨-, rfl⟩ | ⟨-, hold⟩
    · exact absurd hpc hdone
    · exact h.done i u hold hpc

omit [DecidableEq H] [Xtypes] in
theorem stepLookup_cases {id : Nat} (hstep : stepLookup s id = some s') :
    ∃ sample reply, s.threads[id]? = some ⟨.lookup, sample, reply⟩ ∧
      ((∃ handle, s.server.lookupCall sample = some handle ∧
        s' = { s with threads := s.threads.set id ⟨.deliver handle, sample, reply⟩ }) ∨
      (s.server.lookupCall sample = none ∧
        s' = { s with threads := s.threads.set id ⟨.unknown, sample, reply⟩ })) := by
  unfold stepLookup at hstep
  split at hstep
  · rename_i sample reply hth
    refine ⟨sample, reply, hth, ?_⟩
    cases hlookup : s.server.lookupCall sample with
    | some handle =>
      rw [hlookup] at hstep
      exact .inl ⟨handle, rfl, by simpa using hstep.symm⟩
    | none =>
      rw [hlookup] at hstep
      exact .inr ⟨rfl, by simpa using hstep.symm⟩
  · cases hstep

omit [DecidableEq H] [Xtypes] in
theorem CallInv.lookup {id : Nat} (h : CallInv s) (hstep : stepLookup s id = some s') :
    CallInv s' := by
  obtain ⟨sample, reply, hth, ⟨handle, hlookup, rfl⟩ | ⟨-, rfl⟩⟩ := stepLookup_cases hstep
  -- what the lookup found was registered by a call with this sample identity
  · refine h.setThread hth (by simp) ?_
    rintro handle' hpc
    have heq : handle = handle' := by simpa using hpc
    rw [← heq]
    exact h.sampleCallhandle sample handle hlookup
  · exact h.setThread hth (by simp) (by simp)

theorem stepDeliver_cases {id : Nat} {converted : Bool}
    (hstep : stepDeliver service s id converted = some s') :
    ∃ handle sample reply, s.threads[id]? = some ⟨.deliver handle, sample, reply⟩ ∧
      ((converted = false ∧
        s' = { s with threads := s.threads.set id ⟨.failed, sample, reply⟩ }) ∨
      (converted = true ∧ ∃ server out,
        s.server.deliverReply service sample handle reply = some (server, out) ∧
        s' = { s with
          server := server
          threads := s.threads.set id ⟨.done, sample, reply⟩
          responses := s.responses ++ out.toList.map fun (client, message) =>
            ⟨handle, client, sample, message⟩ })) := by
  unfold stepDeliver at hstep
  split at hstep
  · rename_i handle sample reply hth
    refine ⟨handle, sample, reply, hth, ?_⟩
    cases converted with
    | false => exact .inl ⟨rfl, by simpa using hstep.symm⟩
    | true =>
      obtain ⟨⟨server, out⟩, hdeliver, rfl⟩ := Option.map_eq_some_iff.mp hstep
      exact .inr ⟨rfl, server, out, hdeliver, rfl⟩
  · cases hstep

theorem CallInv.deliver {id : Nat} {converted : Bool} (h : CallInv s)
    (hstep : stepDeliver service s id converted = some s') : CallInv s' := by
  obtain ⟨handle, sample, reply, hth, ⟨-, rfl⟩ | ⟨-, server, out, hdeliver, rfl⟩⟩ :=
    stepDeliver_cases hstep
  · exact h.setThread hth (by simp) (by simp)
  obtain ⟨c, hc, hch, hcs⟩ := h.threads id _ handle hth rfl
  have hcs : c.sample = some sample := hcs
  rcases deliverReply_cases hdeliver with
    ⟨client, message, hclient, rfl, hclients, hsamples⟩ | ⟨hnone, rfl, hclients, hsamples⟩
  · -- the client is still there: it is the one that made the call, and gets its only response
    obtain ⟨c', hc', hch', hcc'⟩ := h.callhandleClient handle client hclient
    obtain rfl := h.handle_injective hc hc' (by rw [hch, hch'])
    have hfresh : ¬ Answered s handle := by
      intro hanswered
      rw [h.consumed handle hanswered] at hclient
      cases hclient
    have hanswered : ∀ x, Answered { s with
        server := server
        threads := s.threads.set id ⟨.done, sample, reply⟩
        responses := s.responses ++ [⟨handle, client, sample, message⟩] } x ↔
        Answered s x ∨ x = handle := by
      intro x
      simp [Answered]
    refine ⟨h.handles, h.samples, ?_, ?_, ?_, ?_, ?_, ?_, ?_, ?_⟩
    · intro σ x hx
      simp only [hsamples] at hx
      by_cases hσ : σ = sample
      · rw [hσ, erase_self] at hx
        cases hx
      · rw [erase_ne _ hσ] at hx
        exact h.sampleCallhandle σ x hx
    · intro x k hx
      simp only [hclients] at hx
      by_cases hxh : x = handle
      · rw [hxh, erase_self] at hx
        cases hx
      · rw [erase_ne _ hxh] at hx
        exact h.callhandleClient x k hx
    · intro i u x hu hpc
      rcases getElem?_set_cases hth hu with ⟨-, rfl⟩ | ⟨-, hold⟩
      · cases hpc
      · exact h.threads i u x hold hpc
    · intro r hr
      rcases List.mem_append.mp hr with hr | hr
      · exact h.responses r hr
      · obtain rfl : r = ⟨handle, client, sample, message⟩ := by simpa using hr
        exact ⟨c, hc, hch, hcc', hcs⟩
    · show ((s.responses ++ [_]).map Response.handle).Nodup
      rw [List.map_append]
      refine List.nodup_append.mpr ⟨h.once, by simp, ?_⟩
      intro a ha b hb
      rw [List.map_singleton, List.mem_singleton] at hb
      rintro rfl
      rw [hb] at ha
      exact hfresh ha
    · intro x hx
      simp only [hclients]
      by_cases hxh : x = handle
      · rw [hxh, erase_self]
      · rw [erase_ne _ hxh]
        exact h.consumed x (((hanswered x).mp hx).resolve_right hxh)
    · intro d hd σ hσ hpending
      have hnot := mt (hanswered d.handle).mpr hpending
      obtain ⟨hnot, hne⟩ := not_or.mp hnot
      obtain ⟨hdclient, hdsample⟩ := h.pending d hd σ hσ hnot
      simp only [hclients, hsamples]
      rw [erase_ne _ hne]
      refine ⟨hdclient, ?_⟩
      have hσne : σ ≠ sample := by
        rintro rfl
        have heq := h.samples d hd c hc (by rw [hσ]; rfl) (by rw [hσ, hcs])
        exact hne (by rw [heq, hch])
      rw [erase_ne _ hσne]
      exact hdsample
    · intro i u hu hpc
      rcases getElem?_set_cases hth hu with ⟨-, rfl⟩ | ⟨-, hold⟩
      · exact ⟨c, hc, hcs, (hanswered c.handle).mpr (.inr hch)⟩
      · obtain ⟨d, hd, hds, hda⟩ := h.done i u hold hpc
        exact ⟨d, hd, hds, (hanswered d.handle).mpr (.inl hda)⟩
  · -- another thread has consumed the handle: the call is answered already
    have hanswered : Answered s handle := by
      by_contra hnot
      rw [← hch] at hnot hnone
      rw [(h.pending c hc sample hcs hnot).1] at hnone
      cases hnone
    have hsame : ∀ x, Answered { s with
        server := server
        threads := s.threads.set id ⟨.done, sample, reply⟩
        responses := s.responses ++ [] } x ↔ Answered s x := by
      intro x
      simp [Answered]
    refine ⟨h.handles, h.samples, ?_, ?_, ?_, ?_, ?_, ?_, ?_, ?_⟩
    · simp only [hsamples]
      exact h.sampleCallhandle
    · simp only [hclients]
      exact h.callhandleClient
    · intro i u x hu hpc
      rcases getElem?_set_cases hth hu with ⟨-, rfl⟩ | ⟨-, hold⟩
      · cases hpc
      · exact h.threads i u x hold hpc
    · intro r hr
      exact h.responses r (by simpa using hr)
    · simpa using h.once
    · intro x hx
      simp only [hclients]
      exact h.consumed x ((hsame x).mp hx)
    · intro d hd σ hσ hpending
      simp only [hclients, hsamples]
      exact h.pending d hd σ hσ (mt (hsame d.handle).mpr hpending)
    · intro i u hu hpc
      rcases getElem?_set_cases hth hu with ⟨-, rfl⟩ | ⟨-, hold⟩
      · exact ⟨c, hc, hcs, (hsame c.handle).mpr (by rw [hch]; exact hanswered)⟩
      · obtain ⟨d, hd, hds, hda⟩ := h.done i u hold hpc
        exact ⟨d, hd, hds, (hsame d.handle).mpr hda⟩

omit [DecidableEq H] [DecidableEq S] [Xtypes] in
theorem CallInv.arrive (h : CallInv s) (sample : S) (reply : Value) :
    CallInv { s with threads := s.threads ++ [⟨.lookup, sample, reply⟩] } where
  handles := h.handles
  samples := h.samples
  sampleCallhandle := h.sampleCallhandle
  callhandleClient := h.callhandleClient
  threads i u handle hu hpc := by
    rcases getElem?_concat_cases hu with hold | ⟨-, rfl⟩
    · exact h.threads i u handle hold hpc
    · cases hpc
  responses := h.responses
  once := h.once
  consumed := h.consumed
  pending := h.pending
  done i u hu hpc := by
    rcases getElem?_concat_cases hu with hold | ⟨-, rfl⟩
    · exact h.done i u hold hpc
    · cases hpc

theorem callInv_of_reachable (h : (machine service).Reachable s) : CallInv s := by
  refine h.invariant (fun _ hinit => callInv_of_init hinit) ?_
  intro s e s' hinv hstep
  cases e with
  | call t v handle client converted written => exact hinv.call hstep
  | arrive sample reply =>
    cases hstep
    exact hinv.arrive sample reply
  | lookup id => exact hinv.lookup hstep
  | deliver id converted => exact hinv.deliver hstep

/-! ## Correlation -/

/-- In every interleaving, a call gets at most one response; a response goes to the client of the
call its handle is from and comes from a reply to the write of that call; a reply to a pending call
gets past the lookup, and if it converts the call is answered; and a reply to an unknown sample
identity ends at the lookup, with the maps as they were. -/
theorem replies_correlated (h : (machine service).Reachable s) :
    (s.responses.map Response.handle).Nodup ∧
    (∀ r ∈ s.responses, ∃ c ∈ s.calls, c.handle = r.handle ∧ c.client = r.client ∧
      c.sample = some r.sample) ∧
    (∀ c ∈ s.calls, ∀ (id : Nat) (th : ReplyThread H S), s.threads[id]? = some th →
      c.sample = some th.sample → ¬ Answered s c.handle →
      (∀ s', step service s (.lookup id) = some s' →
        ∃ th', s'.threads[id]? = some th' ∧ th'.pc = .deliver c.handle ∧
          th'.sample = th.sample) ∧
      ∀ s', step service s (.deliver id true) = some s' → Answered s' c.handle) ∧
    (∀ (id : Nat) (th : ReplyThread H S), s.threads[id]? = some th → th.pc = .lookup →
      s.server.sampleCallhandle th.sample = none →
      ∀ s', step service s (.lookup id) = some s' → s'.server = s.server ∧
        s'.threads = s.threads.set id { th with pc := .unknown }) ∧
    ∀ (id : Nat) (th : ReplyThread H S), s.threads[id]? = some th → th.pc = .unknown →
      step service s (.lookup id) = none ∧
      ∀ converted, step service s (.deliver id converted) = none := by
  have hinv := callInv_of_reachable h
  refine ⟨hinv.once, hinv.responses, ?_, ?_, ?_⟩
  · intro c hc id th hth hcs hpending
    constructor
    · intro s' hstep
      obtain ⟨sample, reply, hth', hcases⟩ := stepLookup_cases hstep
      rw [hth] at hth'
      cases hth'
      have hfound := (hinv.pending c hc sample hcs hpending).2
      have hlt := lt_length_of_getElem? hth
      rcases hcases with ⟨handle, hlookup, rfl⟩ | ⟨hlookup, -⟩
      · rw [lookupCall, Container.find_keyedStore, hfound] at hlookup
        cases hlookup
        exact ⟨_, List.getElem?_set_self hlt, rfl, rfl⟩
      · rw [lookupCall, Container.find_keyedStore, hfound] at hlookup
        cases hlookup
    · intro s' hstep
      obtain ⟨handle, sample, reply, hth', ⟨hfalse, -⟩ | ⟨-, server, out, -, heq⟩⟩ :=
        stepDeliver_cases hstep
      · cases hfalse
      · rw [hth] at hth'
        cases hth'
        have hlt := lt_length_of_getElem? hth
        have hinv' : CallInv s' := hinv.deliver hstep
        have hdone : s'.threads[id]? = some ⟨.done, sample, reply⟩ := by
          rw [heq]
          exact List.getElem?_set_self hlt
        obtain ⟨d, hd, hds, hda⟩ := hinv'.done id _ hdone rfl
        have hcalls : s'.calls = s.calls := by rw [heq]
        rw [hcalls] at hd
        have hsame := hinv.samples c hc d hd (by rw [hcs]; rfl) (by rw [hcs, hds])
        rw [hsame]
        exact hda
  · intro id th hth hpc hnone s' hstep
    obtain ⟨sample, reply, hth', hcases⟩ := stepLookup_cases hstep
    rw [hth] at hth'
    cases hth'
    rcases hcases with ⟨handle, hlookup, -⟩ | ⟨-, rfl⟩
    · rw [lookupCall, Container.find_keyedStore, hnone] at hlookup
      cases hlookup
    · exact ⟨rfl, rfl⟩
  · intro id th hth hpc
    obtain ⟨pc, sample, reply⟩ := th
    obtain rfl : pc = .unknown := hpc
    exact ⟨by simp only [step, stepLookup, hth], fun _ => by simp only [step, stepDeliver, hth]⟩

omit [DecidableEq H] [DecidableEq S] [Xtypes]

def echoType : DynamicType := .structType "Echo" [("x", .leafType "int32_t" .int32)]

def echoValue : Value := .struct [("x", .leaf (.integral 4))]

/-- One call and two replies to it, both past the lookup before the first is delivered. -/
def duplicatedReply : List (Event Nat Nat Nat) :=
  [.call echoType echoValue 1 10 true (some 5), .arrive 5 echoValue, .arrive 5 echoValue,
    .lookup 0, .lookup 1, .deliver 0 true, .deliver 1 true]

theorem replies_correlated_duplicatedReply :
    ∃ s, (@machine Nat Nat Nat _ _ firstLabelXtypes ⟨echoType, echoType⟩).run
        ⟨initial, [], [], []⟩ duplicatedReply = some s ∧
      s.responses = [⟨1, 10, 5, (echoType, echoValue)⟩] ∧
      (s.responses.map Response.handle).Nodup ∧
      ∀ r ∈ s.responses, ∃ c ∈ s.calls, c.handle = r.handle ∧ c.client = r.client ∧
        c.sample = some r.sample := by
  refine ⟨_, rfl, rfl, ?_⟩
  have hinit : (@machine Nat Nat Nat _ _ firstLabelXtypes ⟨echoType, echoType⟩).Reachable
      ⟨initial, [], [], []⟩ := Machine.ReachableVia.init ⟨rfl, rfl, rfl, rfl, rfl, rfl⟩
  have h := @replies_correlated Nat Nat Nat _ _ firstLabelXtypes _ _
    (hinit.of_run duplicatedReply rfl)
  exact ⟨h.1, h.2.1⟩

end FastDdsSh.Server.Correlation
