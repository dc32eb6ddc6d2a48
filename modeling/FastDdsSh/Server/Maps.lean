import FastDdsSh.Lib.OrderedMap
import FastDdsSh.Server.Correlation
import Mathlib.Data.String.Basic

/-!
# The maps of a server

The threads of a server do the same whatever lawful containers its tables are.  A `Server` has
ordered maps.  The one for sample identities has a comparator of its own; it is a strict total
order, so this map is a lawful container as well.
-/

namespace FastDdsSh

open Container LawfulContainer

/-! ## Lawful containers -/

namespace Server

variable {N M L : Type → Type} {H K S : Type} [DecidableEq H] [DecidableEq S] [Container N String]
  [Container M H] [Container L S]

/-- What is found in the tables. -/
def toKeyedServer (s : Server N M L H K) : KeyedServer H K S where
  typeToDiscriminator := store s.typeToDiscriminator
  requestReply := store s.requestReply
  callhandleClient := store s.callhandleClient
  sampleCallhandle := store s.sampleCallhandle
  replyIdType := store s.replyIdType

variable [LawfulContainer N] [LawfulContainer M] [LawfulContainer L]

omit [LawfulContainer N] in
theorem toKeyedServer_issueCall (s : Server N M L H K) (typeName : String) (handle : H) (client : K)
    (written : Option S) :
    (s.issueCall typeName handle client written).toKeyedServer =
      s.toKeyedServer.issueCall typeName handle client written := by
  have hclients := store_set s.callhandleClient handle client
  cases written with
  | none =>
    show Server.mk _ _ (store (set s.callhandleClient handle client)) _ _ = _
    rw [hclients]
    rfl
  | some sample =>
    have hsamples := store_set s.sampleCallhandle sample handle
    simp only [issueCall]
    rw [show find s.toKeyedServer.requestReply typeName = find s.requestReply typeName from rfl]
    cases find s.requestReply typeName with
    | none =>
      show Server.mk _ _ (store (set s.callhandleClient handle client))
        (store (set s.sampleCallhandle sample handle)) _ = _
      rw [hclients, hsamples]
      rfl
    | some rep =>
      show Server.mk _ _ (store (set s.callhandleClient handle client))
        (store (set s.sampleCallhandle sample handle)) (store (set s.replyIdType sample rep)) = _
      rw [hclients, hsamples, store_set]
      rfl

theorem toKeyedServer_callService [Xtypes] (service : Service) (s : Server N M L H K)
    (t : DynamicType) (v : Value) (handle : H) (client : K) (converted : Bool)
    (written : Option S) :
    s.toKeyedServer.callService service t v handle client converted written =
      (s.callService service t v handle client converted written).map fun out =>
        (out.1.toKeyedServer, out.2) := by
  have hfound : subscript s.toKeyedServer.typeToDiscriminator (stripped t.name) "" = _ :=
    subscript_store s.typeToDiscriminator (stripped t.name) ""
  unfold callService
  dsimp only
  rw [hfound, Option.map_map]
  congr 1
  funext request
  cases converted with
  | false => rfl
  | true =>
    rw [Function.comp_apply, if_pos rfl, if_pos rfl, toKeyedServer_issueCall]
    rfl

omit [DecidableEq H] [LawfulContainer M] in
theorem toKeyedServer_takeReplyPath (service : Service) (s : Server N M L H K) (sample : S) :
    s.toKeyedServer.takeReplyPath service sample =
      ((s.takeReplyPath service sample).1, (s.takeReplyPath service sample).2.toKeyedServer) := by
  unfold takeReplyPath
  rw [show find s.toKeyedServer.replyIdType sample = find s.replyIdType sample from rfl]
  cases find s.replyIdType sample with
  | none => rfl
  | some rep =>
    have hfound : subscript s.toKeyedServer.typeToDiscriminator rep "" = _ :=
      subscript_store s.typeToDiscriminator rep ""
    dsimp only
    rw [hfound]
    show (_, Server.mk _ _ _ _ ((store s.replyIdType).erase sample)) = _
    rw [← store_erase]
    rfl

theorem toKeyedServer_deliverReply [Xtypes] (service : Service) (s : Server N M L H K)
    (sample : S) (handle : H) (received : Value) :
    s.toKeyedServer.deliverReply service sample handle received =
      (s.deliverReply service sample handle received).map fun out =>
        (out.1.toKeyedServer, out.2) := by
  unfold deliverReply
  dsimp only
  rw [toKeyedServer_takeReplyPath, Option.map_map]
  congr 1
  funext message
  rw [Function.comp_apply]
  generalize (s.takeReplyPath service sample).2 = s
  rw [show find s.toKeyedServer.callhandleClient handle = find s.callhandleClient handle from rfl]
  cases find s.callhandleClient handle with
  | none => rfl
  | some client =>
    show (Server.mk _ _ ((store s.callhandleClient).erase handle)
      ((store s.sampleCallhandle).erase sample) _, _) = _
    rw [← store_erase, ← store_erase]
    rfl

end Server

namespace Server.Correlation

variable {N M L : Type → Type} {H K S : Type} [DecidableEq H] [DecidableEq S] [Container N String]
  [Container M H] [Container L S]

def State.toState (s : State N M L H K S) : KeyedState H K S :=
  ⟨s.server.toKeyedServer, s.threads, s.calls, s.responses⟩

variable [LawfulContainer N] [LawfulContainer M] [LawfulContainer L] [Xtypes]

/-- The same steps are possible whatever the containers are, and what is found then is the same. -/
theorem toState_step (service : Service) (s : State N M L H K S) (e : Event H K S) :
    step service s.toState e = (step service s e).map State.toState := by
  cases e with
  | call t v handle client converted written =>
    show stepCall service s.toState t v handle client converted written =
      (stepCall service s t v handle client converted written).map State.toState
    unfold stepCall
    dsimp only
    rw [show s.toState.calls = s.calls from rfl]
    split
    · rfl
    · show Option.map _
        (s.server.toKeyedServer.callService service t v handle client converted written) = _
      rw [toKeyedServer_callService, Option.map_map, Option.map_map]
      rfl
  | arrive sample reply => rfl
  | lookup id =>
    show stepLookup s.toState id = (stepLookup s id).map State.toState
    unfold stepLookup
    rw [show s.toState.threads[id]? = s.threads[id]? from rfl]
    cases s.threads[id]? with
    | none => rfl
    | some th =>
      obtain ⟨pc, sample, reply⟩ := th
      cases pc <;> rfl
  | deliver id converted =>
    show stepDeliver service s.toState id converted =
      (stepDeliver service s id converted).map State.toState
    unfold stepDeliver
    rw [show s.toState.threads[id]? = s.threads[id]? from rfl]
    cases s.threads[id]? with
    | none => rfl
    | some th =>
      obtain ⟨pc, sample, reply⟩ := th
      cases pc with
      | deliver handle =>
        cases converted with
        | false => rfl
        | true =>
          show (s.server.toKeyedServer.deliverReply service sample handle reply).map _ = _
          rw [toKeyedServer_deliverReply, Option.map_map]
          show _ = (Option.map _ (s.server.deliverReply service sample handle reply)).map _
          rw [Option.map_map]
          rfl
      | lookup | unknown | failed | done => rfl

end Server.Correlation

/-! ## The comparator of sample identities -/

structure SampleIdentity (G N : Type) where
  writerGuid : G
  sequenceNumber : N
  deriving DecidableEq

section Comparator

variable {G N : Type} [LinearOrder G] [LinearOrder N]

def sampleIdentityComparator (lha rha : SampleIdentity G N) : Bool :=
  if lha.writerGuid < rha.writerGuid then true
  -- there is no `operator >` for a GUID
  else if rha.writerGuid < lha.writerGuid then false
  else if lha.sequenceNumber < rha.sequenceNumber then true
  else false

def SampleIdentity.Before (a b : SampleIdentity G N) : Prop := sampleIdentityComparator a b = true

instance : DecidableRel (SampleIdentity.Before (G := G) (N := N)) :=
  fun a b => inferInstanceAs (Decidable (sampleIdentityComparator a b = true))

theorem SampleIdentity.before_iff {a b : SampleIdentity G N} :
    a.Before b ↔ a.writerGuid < b.writerGuid ∨
      (a.writerGuid = b.writerGuid ∧ a.sequenceNumber < b.sequenceNumber) := by
  unfold Before sampleIdentityComparator
  rcases lt_trichotomy a.writerGuid b.writerGuid with h | h | h
  · simp [h]
  · simp [h]
  · simp [h, h.not_gt, h.ne']

instance : IsStrictTotalOrder (SampleIdentity G N) SampleIdentity.Before where
  trichotomous a b hab hba := by
    rw [SampleIdentity.before_iff] at hab hba
    obtain ⟨hguid, hnumber⟩ := not_or.mp hab
    obtain ⟨hguid', hnumber'⟩ := not_or.mp hba
    have heq : a.writerGuid = b.writerGuid := le_antisymm (not_lt.mp hguid') (not_lt.mp hguid)
    have hle : b.sequenceNumber ≤ a.sequenceNumber := not_lt.mp fun h => hnumber ⟨heq, h⟩
    have hge : a.sequenceNumber ≤ b.sequenceNumber := not_lt.mp fun h => hnumber' ⟨heq.symm, h⟩
    cases a
    cases b
    cases heq
    cases le_antisymm hge hle
    rfl
  irrefl a h := by
    rcases SampleIdentity.before_iff.mp h with h | ⟨-, h⟩
    · exact lt_irrefl _ h
    · exact lt_irrefl _ h
  trans a b c hab hbc := by
    rw [SampleIdentity.before_iff] at hab hbc ⊢
    rcases hab with hab | ⟨hab, hab'⟩
    · rcases hbc with hbc | ⟨hbc, -⟩
      · exact .inl (hab.trans hbc)
      · exact .inl (hbc ▸ hab)
    · rcases hbc with hbc | ⟨hbc, hbc'⟩
      · exact .inl (hab ▸ hbc)
      · exact .inr ⟨hab.trans hbc, hab'.trans hbc'⟩

end Comparator

/-! ## A server with its maps -/

abbrev OrderedServer (H K G N : Type) [LinearOrder H] [LinearOrder G] [LinearOrder N] :=
  Server (OrderedMap fun a b : String => a < b) (OrderedMap fun a b : H => a < b)
    (OrderedMap (SampleIdentity.Before (G := G) (N := N))) H K

namespace OrderedServer

open Server.Correlation Transition

variable {H K G N : Type} [LinearOrder H] [LinearOrder G] [LinearOrder N] [Xtypes]

abbrev State (H K G N : Type) [LinearOrder H] [LinearOrder G] [LinearOrder N] :=
  Server.Correlation.State (OrderedMap fun a b : String => a < b) (OrderedMap fun a b : H => a < b)
    (OrderedMap (SampleIdentity.Before (G := G) (N := N))) H K (SampleIdentity G N)

def machine (service : Service) :
    Machine (State H K G N) (Event H K (SampleIdentity G N)) where
  init s := s.server.callhandleClient.tree.isEmpty = true ∧
    s.server.sampleCallhandle.tree.isEmpty = true ∧ s.server.replyIdType.tree.isEmpty = true ∧
    s.threads = [] ∧ s.calls = [] ∧ s.responses = []
  step := step service

/-- So what holds of every reachable state of the model holds with the maps. -/
theorem toState_reachable {service : Service} {s : State H K G N}
    (h : (machine service).Reachable s) :
    (Server.Correlation.machine service).Reachable s.toState := by
  refine h.map State.toState ?_ ?_
  · rintro s ⟨hclients, hsamples, htypes, hthreads, hcalls, hresponses⟩
    exact ⟨OrderedMap.store_of_isEmpty hclients, OrderedMap.store_of_isEmpty hsamples,
      OrderedMap.store_of_isEmpty htypes, hthreads, hcalls, hresponses⟩
  · intro s e s' hstep
    refine .inr ⟨e, ?_⟩
    show step service s.toState e = _
    rw [toState_step]
    exact congrArg (Option.map State.toState) hstep

/-- In every interleaving of its threads, a server with its maps, the comparator of sample
identities included, does what the model does: the same steps are possible, and they find, answer
and keep the same. -/
theorem run_toState (service : Service) (s : State H K G N)
    (es : List (Event H K (SampleIdentity G N))) :
    (Server.Correlation.machine service).run s.toState es =
      ((machine service).run s es).map State.toState :=
  Machine.run_map State.toState (fun s e => toState_step service s e) s es

end OrderedServer

end FastDdsSh
