import FastDdsSh.Server.Correlation
import FastDdsSh.Server.Routing

/-!
# Calls that fail

`call_service` looks the path of the request up with a subscript, and it enters the client before
the write.  When the call fails, neither is taken back.
-/

namespace FastDdsSh.Server

open Transition KeyedStore Correlation

variable {H K S : Type}

structure SameTables (s s' : KeyedServer H K S) : Prop where
  callhandleClient : s'.callhandleClient = s.callhandleClient
  sampleCallhandle : s'.sampleCallhandle = s.sampleCallhandle
  replyIdType : s'.replyIdType = s.replyIdType
  typeToDiscriminator : s'.typeToDiscriminator = s.typeToDiscriminator

/-- The name of the type is registered, and if it is the write that fails, the client is entered
under the handle already. -/
structure FailsHarmlessly (s : KeyedServer H K S) (t : DynamicType) (handle : H) (client : K)
    (converted : Bool) : Prop where
  registered : (s.typeToDiscriminator (stripped t.name)).isSome = true
  entered : converted = true → s.callhandleClient handle = some client

variable [DecidableEq H] [DecidableEq S] [Xtypes]

/-- The state that a failed call leaves. -/
theorem failedCall_state {service : Service} {s s' : KeyedServer H K S} {t : DynamicType}
    {v : Value} {handle : H} {client : K} {converted : Bool} {written : Option S} {request : Value}
    (hfails : writtenSample converted written = none)
    (hcall : s.callService service t v handle client converted written = some (s', request)) :
    s' = { s with
      typeToDiscriminator := (s.typeToDiscriminator.subscript (stripped t.name) "").2
      callhandleClient := if converted then s.callhandleClient.set handle client
        else s.callhandleClient } := by
  unfold callService at hcall
  obtain ⟨r, -, heq⟩ := Option.map_eq_some_iff.mp hcall
  obtain ⟨hs', -⟩ := Prod.mk.inj heq
  -- the client is entered between the conversion and the write
  cases converted with
  | false => exact hs'.symm
  | true =>
    obtain rfl : written = none := hfails
    exact hs'.symm

/-- A call that fails leaves the tables as they were exactly if it fails harmlessly. -/
theorem failedCall_sameTables {service : Service} {s s' : KeyedServer H K S} {t : DynamicType}
    {v : Value} {handle : H} {client : K} {converted : Bool} {written : Option S} {request : Value}
    (hfails : writtenSample converted written = none)
    (hcall : s.callService service t v handle client converted written = some (s', request)) :
    s.SameTables s' ↔ s.FailsHarmlessly t handle client converted := by
  rw [failedCall_state hfails hcall]
  constructor
  · intro h
    constructor
    · exact subscript_snd_eq_self_iff.mp h.typeToDiscriminator
    · intro hconverted
      have hclients := h.callhandleClient
      rw [hconverted] at hclients
      exact set_eq_self_iff.mp hclients
  · intro h
    constructor
    · cases converted with
      | false => rfl
      | true => exact set_eq_self_iff.mpr (h.entered rfl)
    · rfl
    · rfl
    · exact subscript_snd_eq_self_iff.mpr h.registered

/-! ## Runs -/

def NoHarm (s : KeyedState H K S) : Event H K S → Prop
  | .call t _ handle client converted written =>
      writtenSample converted written = none →
        s.server.FailsHarmlessly t handle client converted
  | _ => True

/-- The client of every handle made a call that was written. -/
def NoLeftover (s : KeyedState H K S) : Prop :=
  ∀ handle client, s.server.callhandleClient handle = some client →
    ∃ c ∈ s.calls, c.handle = handle ∧ c.client = client ∧ c.sample.isSome = true

omit [DecidableEq H] [DecidableEq S] [Xtypes] in
theorem NoLeftover.mono {s s' : KeyedState H K S} (h : NoLeftover s)
    (hcalls : ∀ c ∈ s.calls, c ∈ s'.calls)
    (hclients : ∀ handle client, s'.server.callhandleClient handle = some client →
      s.server.callhandleClient handle = some client) : NoLeftover s' := by
  intro handle client hclient
  obtain ⟨c, hc, hrest⟩ := h handle client (hclients handle client hclient)
  exact ⟨c, hcalls c hc, hrest⟩

theorem NoLeftover.call {service : Service} {s s' : KeyedState H K S} {t : DynamicType} {v : Value}
    {handle : H} {client : K} {converted : Bool} {written : Option S} (h : NoLeftover s)
    (hharm : NoHarm s (.call t v handle client converted written))
    (hstep : stepCall service s t v handle client converted written = some s') :
    NoLeftover s' := by
  obtain ⟨sample, hsample, -, -, hcalls, -, -, -, hwritten, -⟩ := stepCall_cases hstep
  have hmem : ∀ c ∈ s.calls, c ∈ s'.calls := by
    intro c hc
    rw [hcalls]
    exact List.mem_append_left _ hc
  cases sample with
  | none =>
    -- the call fails, and the condition says that it leaves the clients alone
    apply h.mono hmem
    have hfails := hsample.symm
    unfold stepCall at hstep
    simp only at hstep
    split at hstep
    · cases hstep
    · obtain ⟨⟨server, request⟩, hcall, rfl⟩ := Option.map_eq_some_iff.mp hstep
      have hsame := (failedCall_sameTables hfails hcall).mpr (hharm hfails)
      intro x k hx
      rw [← hsame.callhandleClient]
      exact hx
  | some σ =>
    -- the entry for the handle is that of the call, and it has been written
    have hclients := hwritten σ rfl
    intro x k hx
    rw [hclients] at hx
    by_cases hxh : x = handle
    · subst hxh
      rw [set_self] at hx
      refine ⟨⟨x, client, some σ⟩, ?_, rfl, Option.some.inj hx, rfl⟩
      rw [hcalls]
      exact List.mem_append_right _ List.mem_cons_self
    · rw [set_ne _ _ hxh] at hx
      obtain ⟨c, hc, hrest⟩ := h x k hx
      exact ⟨c, hmem c hc, hrest⟩

theorem NoLeftover.deliver {service : Service} {s s' : KeyedState H K S} {id : Nat}
    {converted : Bool} (h : NoLeftover s) (hstep : stepDeliver service s id converted = some s') :
    NoLeftover s' := by
  obtain ⟨handle, sample, reply, -, ⟨-, rfl⟩ | ⟨-, server, out, hdeliver, rfl⟩⟩ :=
    stepDeliver_cases hstep
  · exact h
  · refine h.mono (fun c hc => hc) ?_
    intro x k hx
    -- a delivery takes the client of its handle out, or leaves all of them
    rcases deliverReply_cases hdeliver with ⟨-, -, -, -, hclients, -⟩ | ⟨-, -, hclients, -⟩
    · have hx' : s.server.callhandleClient.erase handle x = some k := by
        rw [← hclients]
        exact hx
      by_cases hxh : x = handle
      · rw [hxh, erase_self] at hx'
        cases hx'
      · rw [erase_ne _ hxh] at hx'
        exact hx'
    · rw [← hclients]
      exact hx

/-- In a run whose failed calls are all harmless no client is left over. -/
theorem noLeftover_of_reachableVia {service : Service} {s : KeyedState H K S}
    (h : (machine service).ReachableVia NoHarm s) : NoLeftover s := by
  -- on the run: only calls add clients
  refine h.invariant ?_ ?_
  · intro s hs handle client hclient
    rw [hs.1] at hclient
    cases hclient
  · intro s a s' ih hharm hstep
    cases a with
    | call t v handle client converted written => exact ih.call hharm hstep
    | arrive sample reply =>
      cases hstep
      exact ih
    | lookup id =>
      obtain ⟨sample, reply, -, ⟨handle, -, rfl⟩ | ⟨-, rfl⟩⟩ := stepLookup_cases hstep
      · exact ih
      · exact ih
    | deliver id converted => exact ih.deliver hstep

/-- A failed call leaves the tables of the server as they were exactly if the name of its type is
registered and, when the write failed, its client was entered already.  If all failed calls of a
run are like that, each client in the table waits for the reply to a request that was written. -/
theorem failedCall_sameTables_iff (service : Service) :
    (∀ (s s' : KeyedServer H K S) (t : DynamicType) (v : Value) (handle : H) (client : K)
      (converted : Bool) (written : Option S) (request : Value),
      writtenSample converted written = none →
      s.callService service t v handle client converted written = some (s', request) →
      (s.SameTables s' ↔ s.FailsHarmlessly t handle client converted)) ∧
    ∀ s : KeyedState H K S, (machine service).ReachableVia NoHarm s → NoLeftover s := by
  constructor
  · intro s s' t v handle client converted written request hfails hcall
    exact failedCall_sameTables hfails hcall
  · intro s hs
    exact noLeftover_of_reachableVia hs

omit [Xtypes]

/-- The write of a request for a registered type fails in the first call of a server. -/
theorem not_failedCall_sameTables :
    ¬ ∀ (s s' : KeyedServer Nat Nat Nat) (v : Value) (handle client : Nat) (converted : Bool)
      (written : Option Nat) (request : Value),
      initial.configure pointService [(pointEntry "Reply.ack").config] = some s →
      writtenSample converted written = none →
      @callService _ _ _ _ _ _ _ _ _ firstLabelXtypes pointService s point v handle client converted
        written = some (s', request) →
      s.SameTables s' := by
  intro h
  have hsame := h _ _ (.struct [("x", .leaf (.integral 7))]) 1 2 true none _ rfl rfl rfl
  have hclient := congrFun hsame.callhandleClient 1
  cases hclient

end FastDdsSh.Server
