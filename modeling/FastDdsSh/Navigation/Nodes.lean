import FastDdsSh.Navigation.Chains

/-!
# The nodes of a tree and their parents

In memory a node has shared references to its members and a weak one to its parent, from which
`get_path` is put together.  The store of nodes keeps both, and the tree that a type's root stands
for is read off by following the members.
-/

namespace FastDdsSh

open Entries DynamicType

structure StoredNode where
  memberName : String
  typeName : String
  parentNode : Option Nat
  memberNode : List (String × Nat)
  deriving DecidableEq, Repr

/-- The nodes that have been made; a reference is a position. -/
abbrev NodeStore := List StoredNode

namespace NodeStore

def child (s : NodeStore) (node : Nat) (m : String) : Option Nat :=
  s[node]?.bind fun n => n.memberNode.lookup m

def makeMember (s : NodeStore) (node : Nat) (m : String) (t : DynamicType) : NodeStore :=
  -- `parent_node` is set when the node is made and never again
  let made : StoredNode := ⟨m, t.name, some node, []⟩
  List.modify (s ++ [made]) node fun n =>
    { n with memberNode := update m s.length (fun _ => s.length) n.memberNode }

def memberNode (s : NodeStore) (node : Nat) (m : String) (t : DynamicType) : NodeStore × Nat :=
  match s.child node m with
  | some c => (s, c)
  -- `std::make_shared`, at the end of the store
  | none => (s.makeMember node m t, s.length)

def fillMemberNode (s : NodeStore) (node : Nat) (t : DynamicType) (path : List String) :
    NodeStore :=
  match path with
  | [] => s
  | m :: ms =>
      if m = "" ∧ ms = [] then s
      else
        match t.member m with
        -- the error paths leave what has been made so far
        | none => s
        | some mt =>
            let (s, c) := s.memberNode node m mt
            s.fillMemberNode c mt ms

def setTypeName (s : NodeStore) (root : Nat) (name : String) : NodeStore :=
  List.modify s root fun n => { n with typeName := name }

def fillRootNode (s : NodeStore) (root : Nat) (t : DynamicType) (fullPath : String) : NodeStore :=
  match pathFields fullPath with
  | [] => s
  | typeName :: path =>
      if typeName ≠ t.name then s
      else if path = [] ∨ path = [""] then s.setTypeName root t.name
      -- an unknown first member: the root is returned as it is
      else if (path.head?.bind t.member).isNone then s
      else (s.fillMemberNode root t path).setTypeName root t.name

def pathFrom (s : NodeStore) : Nat → Nat → Option String
  | 0, _ => none
  | fuel + 1, node =>
      s[node]?.bind fun n =>
        match n.parentNode with
        -- the root has its type's name for a path, however many names there are below
        | none => some n.typeName
        | some parent => (s.pathFrom fuel parent).map fun path => path ++ "." ++ n.memberName

def getPath (s : NodeStore) (node : Nat) : Option String :=
  s.pathFrom s.length node

def descend (s : NodeStore) : Nat → List String → Option Nat
  | node, [] => some node
  | node, m :: ms => (s.child node m).bind fun c => s.descend c ms

/-! ## References -/

/-- The members of a node are in order, they have it for their parent and their keys for names, and
they were made after it. -/
structure Linked (s : NodeStore) : Prop where
  ordered : ∀ (id : Nat) n, s[id]? = some n → Ordered n.memberNode
  link : ∀ id m c, s.child id m = some c →
    ∃ n, s[c]? = some n ∧ n.parentNode = some id ∧ n.memberName = m ∧ id < c

theorem child_eq_none {s : NodeStore} {node : Nat} (h : s.length ≤ node) (m : String) :
    s.child node m = none := by
  rw [child, List.getElem?_eq_none h]
  rfl

theorem descend_cons (s : NodeStore) (node : Nat) (m : String) (ms : List String) :
    s.descend node (m :: ms) = (s.child node m).bind fun c => s.descend c ms := rfl

theorem descend_append (s : NodeStore) (node : Nat) (ms ns : List String) :
    s.descend node (ms ++ ns) = (s.descend node ms).bind fun c => s.descend c ns := by
  induction ms generalizing node with
  | nil => rfl
  | cons m ms ih =>
    rw [List.cons_append, descend_cons, descend_cons]
    cases s.child node m with
    | none => rfl
    | some c => exact ih c

theorem descend_concat (s : NodeStore) (node : Nat) (ms : List String) (m : String) :
    s.descend node (ms ++ [m]) = (s.descend node ms).bind fun c => s.child c m := by
  rw [descend_append]
  refine congrArg _ (funext fun c => ?_)
  show (s.child c m).bind some = s.child c m
  exact Option.bind_fun_some _

/-- What lies below a node was made after it. -/
theorem le_of_descend {s : NodeStore} (h : s.Linked) {r k : Nat} {chain : List String}
    (hk : s.descend r chain = some k) : r + chain.length ≤ k := by
  induction chain generalizing r with
  | nil =>
    cases hk
    exact le_refl _
  | cons m ms ih =>
    obtain ⟨c, hc, hrest⟩ := Option.bind_eq_some_iff.mp hk
    obtain ⟨n, -, -, -, hlt⟩ := h.link r m c hc
    have hle := ih hrest
    rw [List.length_cons]
    omega

/-- A node is reached by one chain only: its parent and its name give the last step. -/
theorem descend_injective {s : NodeStore} (h : s.Linked) {r k : Nat} {chain chain' : List String}
    (hk : s.descend r chain = some k) (hk' : s.descend r chain' = some k) : chain = chain' := by
  -- from the end of the chain, where `parent_node` gives the node before
  induction chain using List.reverseRecOn generalizing k chain' with
  | nil =>
    cases hk
    have hle := le_of_descend h hk'
    have hlength : chain'.length = 0 := by omega
    exact (List.length_eq_zero_iff.mp hlength).symm
  | append_singleton ms m ih =>
    rcases List.eq_nil_or_concat chain' with rfl | ⟨ms', m', rfl⟩
    · cases hk'
      have hle := le_of_descend h hk
      rw [List.length_append, List.length_singleton] at hle
      omega
    · rw [List.concat_eq_append] at hk' ⊢
      rw [descend_concat] at hk hk'
      obtain ⟨p, hp, hc⟩ := Option.bind_eq_some_iff.mp hk
      obtain ⟨p', hp', hc'⟩ := Option.bind_eq_some_iff.mp hk'
      -- one stored node has one parent and one name
      obtain ⟨n, hn, hparent, hname, -⟩ := h.link p m k hc
      obtain ⟨n', hn', hparent', hname', -⟩ := h.link p' m' k hc'
      rw [hn] at hn'
      cases hn'
      rw [hparent] at hparent'
      cases hparent'
      rw [ih hp hp', ← hname, ← hname']

/-! ## Making a member -/

def header (n : StoredNode) : String × String × Option Nat :=
  (n.memberName, n.typeName, n.parentNode)

section MakeMember

variable {s : NodeStore} {node : Nat} {m : String} {t : DynamicType}

theorem length_makeMember (s : NodeStore) (node : Nat) (m : String) (t : DynamicType) :
    (s.makeMember node m t).length = s.length + 1 := by
  unfold makeMember
  rw [List.length_modify, List.length_append, List.length_singleton]

theorem makeMember_node (hnode : node < s.length) :
    ∃ n, s[node]? = some n ∧ (s.makeMember node m t)[node]? =
      some { n with memberNode := update m s.length (fun _ => s.length) n.memberNode } := by
  refine ⟨s[node], List.getElem?_eq_getElem hnode, ?_⟩
  unfold makeMember
  rw [List.getElem?_modify_eq, List.getElem?_append_left hnode, List.getElem?_eq_getElem hnode]
  rfl

theorem makeMember_old {id : Nat} (hid : id < s.length) (hne : id ≠ node) :
    (s.makeMember node m t)[id]? = s[id]? := by
  unfold makeMember
  rw [List.getElem?_modify_ne _ _ (Ne.symm hne), List.getElem?_append_left hid]

theorem makeMember_new (hnode : node < s.length) :
    (s.makeMember node m t)[s.length]? = some ⟨m, t.name, some node, []⟩ := by
  unfold makeMember
  rw [List.getElem?_modify_ne _ _ hnode.ne, List.getElem?_concat_length]

/-- Only the node has got another member, and only under the new key. -/
theorem child_makeMember (h : s.Linked) (hnode : node < s.length) (id : Nat) (k : String) :
    (s.makeMember node m t).child id k =
      if id = node ∧ k = m then some s.length else s.child id k := by
  by_cases hid : id = node
  · subst hid
    obtain ⟨n, hn, hmade⟩ := makeMember_node (m := m) (t := t) hnode
    rw [child, hmade, child, hn]
    show (update m s.length (fun _ => s.length) n.memberNode).lookup k = _
    by_cases hk : k = m
    · rw [if_pos ⟨rfl, hk⟩, hk, lookup_update_self m _ _ (h.ordered id n hn)]
    · rw [if_neg fun h => hk h.2, lookup_update_ne _ _ _ hk]
      rfl
  · rw [if_neg fun h => hid h.1]
    -- another node is an old one, the new one, or none at all
    rcases lt_trichotomy id s.length with hlt | rfl | hgt
    · rw [child, makeMember_old hlt hid, child]
    · rw [child, makeMember_new hnode, child_eq_none (le_refl _)]
      rfl
    · rw [child_eq_none hgt.le, child_eq_none]
      rw [length_makeMember]
      omega

theorem header_makeMember (hnode : node < s.length) {id : Nat} (hid : id < s.length) :
    ((s.makeMember node m t)[id]?).map header = (s[id]?).map header := by
  by_cases hne : id = node
  · subst hne
    obtain ⟨n, hn, hmade⟩ := makeMember_node (m := m) (t := t) hnode
    rw [hmade, hn]
    rfl
  · rw [makeMember_old hid hne]

theorem linked_makeMember (h : s.Linked) (hnode : node < s.length) :
    (s.makeMember node m t).Linked := by
  constructor
  -- the one map that changes gets its key where it belongs
  · intro id n hn
    by_cases hid : id = node
    · subst hid
      obtain ⟨n₀, hn₀, hmade⟩ := makeMember_node (m := m) (t := t) hnode
      rw [hmade, Option.some_inj] at hn
      rw [← hn]
      exact ordered_update m _ _ (h.ordered id n₀ hn₀)
    · rcases lt_trichotomy id s.length with hlt | rfl | hgt
      · rw [makeMember_old hlt hid] at hn
        exact h.ordered id n hn
      · rw [makeMember_new hnode, Option.some_inj] at hn
        rw [← hn]
        exact List.Pairwise.nil
      · rw [List.getElem?_eq_none (by rw [length_makeMember]; omega)] at hn
        cases hn
  -- the new member has the node for its parent, and the others are as before
  · intro id k c hc
    rw [child_makeMember h hnode] at hc
    split at hc
    · rename_i heq
      obtain ⟨rfl, rfl⟩ := heq
      cases hc
      exact ⟨_, makeMember_new hnode, rfl, rfl, hnode⟩
    · obtain ⟨n, hn, hparent, hname, hlt⟩ := h.link id k c hc
      have hkept := header_makeMember (m := m) (t := t) hnode (List.getElem?_eq_some_iff.mp hn).1
      rw [hn] at hkept
      obtain ⟨n', hn', heq⟩ := Option.map_eq_some_iff.mp hkept
      refine ⟨n', hn', ?_, ?_, hlt⟩
      · exact (congrArg (fun p => p.2.2) heq).trans hparent
      · exact (congrArg Prod.fst heq).trans hname

/-- There is one chain more, which leads to the new node. -/
theorem descend_makeMember (h : s.Linked) (hnode : node < s.length)
    (hnone : s.child node m = none) (r k : Nat) (chain : List String) :
    (s.makeMember node m t).descend r chain = some k ↔
      s.descend r chain = some k ∨
        (k = s.length ∧ ∃ pre, chain = pre ++ [m] ∧ s.descend r pre = some node) := by
  -- from the end of the chain: only its last step can be the new one
  induction chain using List.reverseRecOn generalizing k with
  | nil =>
    show some r = some k ↔ some r = some k ∨ _
    simp
  | append_singleton pre x ih =>
    rw [descend_concat, descend_concat, Option.bind_eq_some_iff, Option.bind_eq_some_iff]
    constructor
    · rintro ⟨p, hp, hc⟩
      rw [child_makeMember h hnode] at hc
      rcases (ih p).mp hp with hold | ⟨rfl, -⟩
      · split at hc
        · rename_i heq
          obtain ⟨rfl, rfl⟩ := heq
          cases hc
          exact .inr ⟨rfl, pre, rfl, hold⟩
        · exact .inl ⟨p, hold, hc⟩
      · -- the new node has no members
        rw [if_neg fun heq => hnode.ne' heq.1, child_eq_none (le_refl _)] at hc
        cases hc
    · intro hchain
      rcases hchain with ⟨p, hp, hc⟩ | ⟨rfl, pre', heq, hp⟩
      · refine ⟨p, (ih p).mpr (.inl hp), ?_⟩
        rw [child_makeMember h hnode, if_neg, hc]
        rintro ⟨hpnode, hx⟩
        rw [hpnode, hx, hnone] at hc
        cases hc
      · obtain ⟨rfl, hx⟩ := List.append_inj' heq rfl
        cases hx
        refine ⟨node, (ih node).mpr (.inl hp), ?_⟩
        rw [child_makeMember h hnode, if_pos ⟨rfl, rfl⟩]

end MakeMember

/-! ## Filling in a path -/

def Labelled (s : NodeStore) (t : DynamicType) (r : Nat) : Prop :=
  ∀ chain id (n : StoredNode), chain ≠ [] → s.descend r chain = some id → s[id]? = some n →
    ∃ u, t.declaredAt chain = some u ∧ n.typeName = u.name

/-- The store has grown below the root for a type by the chains `added`, with nothing else changed.
-/
structure Grows (t : DynamicType) (r : Nat) (s s' : NodeStore) (added : List String → Prop) :
    Prop where
  linked : s'.Linked
  length : s.length ≤ s'.length
  header : ∀ id : Nat, id < s.length → (s'[id]?).map header = (s[id]?).map header
  keeps : ∀ chain k, s.descend r chain = some k → s'.descend r chain = some k
  chains : ∀ chain, (s'.descend r chain).isSome = true ↔
    (s.descend r chain).isSome = true ∨ added chain
  labelled : s.Labelled t r → s'.Labelled t r

section Growth

variable {t : DynamicType} {r : Nat} {s s' s'' : NodeStore} {added added' : List String → Prop}

theorem Grows.refl (h : s.Linked) (hadded : ∀ chain, added chain →
    (s.descend r chain).isSome = true) : Grows t r s s added where
  linked := h
  length := le_refl _
  header := fun _ _ => rfl
  keeps := fun _ _ hk => hk
  chains := fun chain => (or_iff_left_of_imp (hadded chain)).symm
  labelled := id

theorem Grows.trans (h : Grows t r s s' added) (h' : Grows t r s' s'' added') :
    Grows t r s s'' fun chain => added chain ∨ added' chain where
  linked := h'.linked
  length := h.length.trans h'.length
  header := fun id hid => (h'.header id (hid.trans_le h.length)).trans (h.header id hid)
  keeps := fun chain k hk => h'.keeps chain k (h.keeps chain k hk)
  chains := fun chain => by rw [h'.chains, h.chains, or_assoc]
  labelled := fun hlabelled => h'.labelled (h.labelled hlabelled)

/-- What counts of the chains that are added is whether they are there afterwards. -/
theorem Grows.congr (h : Grows t r s s' added)
    (hadded : ∀ chain, (s.descend r chain).isSome = true ∨ added chain ↔
      (s.descend r chain).isSome = true ∨ added' chain) : Grows t r s s' added' :=
  { h with chains := fun chain => (h.chains chain).trans (hadded chain) }

/-- A member that is made adds one chain. -/
theorem grows_makeMember {u mt : DynamicType} {node : Nat} {pre : List String} {m : String}
    (h : s.Linked) (hlt : node < s.length) (hnode : s.descend r pre = some node)
    (hu : t.declaredAt pre = some u) (hm : u.member m = some mt) (hnone : s.child node m = none) :
    Grows t r s (s.makeMember node m mt) fun chain => chain = pre ++ [m] := by
  have hdescend := fun k chain => descend_makeMember (t := mt) h hlt hnone r k chain
  -- the node is below the root in one place, so the new chain is one chain
  have hunique : ∀ pre', s.descend r pre' = some node → pre' = pre :=
    fun pre' hpre' => descend_injective h hpre' hnode
  refine ⟨linked_makeMember h hlt, ?_, fun id hid => header_makeMember hlt hid, ?_, ?_, ?_⟩
  · rw [length_makeMember]
    omega
  · intro chain k hk
    exact (hdescend k chain).mpr (.inl hk)
  · intro chain
    rw [Option.isSome_iff_exists, Option.isSome_iff_exists]
    constructor
    · rintro ⟨k, hk⟩
      rcases (hdescend k chain).mp hk with hold | ⟨-, pre', heq, hpre'⟩
      · exact .inl ⟨k, hold⟩
      · rw [hunique pre' hpre'] at heq
        exact .inr heq
    · intro hchain
      rcases hchain with ⟨k, hk⟩ | heq
      · exact ⟨k, (hdescend k chain).mpr (.inl hk)⟩
      · exact ⟨s.length, (hdescend _ chain).mpr (.inr ⟨rfl, pre, heq, hnode⟩)⟩
  · intro hlabelled chain id n hchain hid hn
    rcases (hdescend id chain).mp hid with hold | ⟨rfl, pre', heq, hpre'⟩
    · -- a node that was there has kept its name
      have hidlt : id < s.length := by
        obtain ⟨ms, k, rfl⟩ := (List.eq_nil_or_concat chain).resolve_left hchain
        rw [List.concat_eq_append, descend_concat] at hold
        obtain ⟨p, -, hc⟩ := Option.bind_eq_some_iff.mp hold
        obtain ⟨n', hn', -⟩ := h.link p k id hc
        exact (List.getElem?_eq_some_iff.mp hn').1
      have hkept := header_makeMember (m := m) (t := mt) hlt hidlt
      rw [hn] at hkept
      obtain ⟨n₀, hn₀, hheader⟩ := Option.map_eq_some_iff.mp hkept.symm
      obtain ⟨w, hw, hname⟩ := hlabelled chain id n₀ hchain hold hn₀
      exact ⟨w, hw, (congrArg (fun p => p.2.1) hheader).symm.trans hname⟩
    · rw [makeMember_new hlt, Option.some_inj] at hn
      rw [heq, hunique pre' hpre', declaredAt_append, hu]
      refine ⟨mt, ?_, by rw [← hn]⟩
      rw [Option.bind_some, declaredAt, hm]
      rfl

/-- The chains on the way of the path are added below the node. -/
theorem grows_fillMemberNode {u : DynamicType} {path : List String} {node : Nat}
    {pre : List String} (h : s.Linked) (hlt : node < s.length)
    (hnode : s.descend r pre = some node) (hu : t.declaredAt pre = some u) :
    Grows t r s (s.fillMemberNode node u path) fun chain =>
      ∃ below, chain = pre ++ below ∧ below <+: u.follow (dropEmpty path) := by
  -- on the path, with the store that the pieces before have left
  induction path generalizing s node u pre with
  | nil =>
    apply Grows.refl h
    rintro chain ⟨below, heq, hbelow⟩
    obtain rfl := List.prefix_nil.mp hbelow
    rw [heq, List.append_nil, hnode]
    rfl
  | cons m ms ih =>
    -- where the path ends here, the only chain on its way is that of the node
    have hstays : u.follow (dropEmpty (m :: ms)) = [] →
        ∀ chain, (∃ below, chain = pre ++ below ∧ below <+: u.follow (dropEmpty (m :: ms))) →
          (s.descend r chain).isSome = true := by
      rintro hnil chain ⟨below, heq, hbelow⟩
      rw [hnil, List.prefix_nil] at hbelow
      rw [heq, hbelow, List.append_nil, hnode]
      rfl
    rw [fillMemberNode]
    by_cases hstop : m = "" ∧ ms = []
    · rw [if_pos hstop]
      apply Grows.refl h
      apply hstays
      rw [dropEmpty_cons, if_pos hstop]
      rfl
    · rw [if_neg hstop]
      have hfollow := dropEmpty_cons m ms
      rw [if_neg hstop] at hfollow
      rw [hfollow] at hstays ⊢
      rw [follow] at hstays ⊢
      cases hm : u.member m with
      | none =>
        rw [hm] at hstays
        exact Grows.refl h (hstays rfl)
      | some mt =>
        have hat : t.declaredAt (pre ++ [m]) = some mt := by
          rw [declaredAt_append, hu, Option.bind_some, declaredAt, hm]
          rfl
        -- a chain below the node goes no further than it, or through the member
        have hsplit : ∀ chain, (∃ below, chain = pre ++ below ∧
            below <+: m :: mt.follow (dropEmpty ms)) ↔ chain = pre ∨
              ∃ below, chain = (pre ++ [m]) ++ below ∧ below <+: mt.follow (dropEmpty ms) := by
          intro chain
          constructor
          · rintro ⟨below, heq, hbelow⟩
            cases below with
            | nil => exact .inl (by rw [heq, List.append_nil])
            | cons k rest =>
              obtain ⟨rfl, hrest⟩ := List.cons_prefix_cons.mp hbelow
              exact .inr ⟨rest, by rw [heq, List.append_assoc]; rfl, hrest⟩
          · intro hchain
            rcases hchain with rfl | ⟨below, heq, hbelow⟩
            · exact ⟨[], (List.append_nil _).symm, List.nil_prefix⟩
            · refine ⟨m :: below, by rw [heq, List.append_assoc]; rfl, ?_⟩
              exact List.cons_prefix_cons.mpr ⟨rfl, hbelow⟩
        show Grows t r s
          ((s.memberNode node m mt).1.fillMemberNode (s.memberNode node m mt).2 mt ms)
          fun chain => ∃ below, chain = pre ++ below ∧ below <+: m :: mt.follow (dropEmpty ms)
        unfold memberNode
        cases hchild : s.child node m with
        | some c =>
          -- the member is there, and no chain is added for it
          obtain ⟨n, hn, -⟩ := h.link node m c hchild
          have hc : s.descend r (pre ++ [m]) = some c := by
            rw [descend_concat, hnode]
            exact hchild
          refine (ih h (List.getElem?_eq_some_iff.mp hn).1 hc hat).congr ?_
          intro chain
          rw [hsplit]
          refine or_congr_right' fun hnot => (or_iff_right ?_).symm
          intro heq
          rw [heq, hnode] at hnot
          exact hnot rfl
        | none =>
          -- one chain for the member that is made, and the rest below it
          have hmade := grows_makeMember h hlt hnode hu hm hchild
          have hc : (s.makeMember node m mt).descend r (pre ++ [m]) = some s.length :=
            (descend_makeMember h hlt hchild r _ _).mpr (.inr ⟨rfl, pre, rfl, hnode⟩)
          have hclt : s.length < (s.makeMember node m mt).length := by
            rw [length_makeMember]
            omega
          refine (hmade.trans (ih hmade.linked hclt hc hat)).congr ?_
          intro chain
          rw [hsplit]
          constructor
          · intro hadded
            rcases hadded with hold | heq | hbelow
            · exact .inl hold
            · exact .inr (.inr ⟨[], by rw [heq, List.append_nil], List.nil_prefix⟩)
            · exact .inr (.inr hbelow)
          · intro hadded
            rcases hadded with hold | heq | hbelow
            · exact .inl hold
            · exact .inl (by rw [heq, hnode]; rfl)
            · exact .inr (.inr hbelow)

end Growth

/-! ## Filling in a root -/

section Roots

variable {t : DynamicType} {r : Nat} {s : NodeStore}

theorem setTypeName_of_ne {id : Nat} (h : id ≠ r) (name : String) :
    (s.setTypeName r name)[id]? = s[id]? :=
  List.getElem?_modify_ne _ _ (Ne.symm h)

theorem setTypeName_root {n : StoredNode} (h : s[r]? = some n) (name : String) :
    (s.setTypeName r name)[r]? = some { n with typeName := name } := by
  unfold setTypeName
  rw [List.getElem?_modify_eq, h]
  rfl

theorem child_setTypeName (s : NodeStore) (r : Nat) (name : String) (id : Nat) (m : String) :
    (s.setTypeName r name).child id m = s.child id m := by
  by_cases hid : id = r
  · subst hid
    unfold child setTypeName
    rw [List.getElem?_modify_eq]
    cases s[id]? <;> rfl
  · unfold child
    rw [setTypeName_of_ne hid]

theorem descend_setTypeName (s : NodeStore) (r : Nat) (name : String) (id : Nat)
    (chain : List String) : (s.setTypeName r name).descend id chain = s.descend id chain := by
  induction chain generalizing id with
  | nil => rfl
  | cons m ms ih =>
    rw [descend_cons, descend_cons, child_setTypeName]
    exact congrArg _ (funext ih)

structure Rooted (s : NodeStore) (t : DynamicType) (r : Nat) (n : StoredNode) : Prop where
  linked : s.Linked
  root : s[r]? = some n
  parent : n.parentNode = none
  labelled : s.Labelled t r

/-- A root is no member of another node. -/
theorem Rooted.ne_of_child {n : StoredNode} (h : s.Rooted t r n) {id c : Nat} {m : String}
    (hc : s.child id m = some c) : c ≠ r := by
  intro heq
  obtain ⟨n', hn', hparent, -⟩ := h.linked.link id m c hc
  rw [heq, h.root] at hn'
  cases hn'
  rw [h.parent] at hparent
  cases hparent

theorem rooted_setTypeName {n : StoredNode} (h : s.Rooted t r n) (name : String) :
    (s.setTypeName r name).Rooted t r { n with typeName := name } := by
  refine ⟨⟨?_, ?_⟩, setTypeName_root h.root name, h.parent, ?_⟩
  · intro id n' hn'
    by_cases hid : id = r
    · rw [hid, setTypeName_root h.root, Option.some_inj] at hn'
      rw [← hn']
      exact h.linked.ordered r n h.root
    · rw [setTypeName_of_ne hid] at hn'
      exact h.linked.ordered id n' hn'
  · intro id m c hc
    rw [child_setTypeName] at hc
    -- a member is never the root, whose entry is the one that changes
    rw [setTypeName_of_ne (h.ne_of_child hc)]
    exact h.linked.link id m c hc
  · intro chain id n' hchain hid hn'
    rw [descend_setTypeName] at hid
    have hle := le_of_descend h.linked hid
    have hpos : 0 < chain.length := List.length_pos_of_ne_nil hchain
    rw [setTypeName_of_ne (by omega)] at hn'
    exact h.labelled chain id n' hchain hid hn'

theorem rooted_fillMemberNode {n : StoredNode} (h : s.Rooted t r n) (ms : List String) :
    ∃ n', (s.fillMemberNode r t ms).Rooted t r n' ∧ n'.memberName = n.memberName ∧
      n'.typeName = n.typeName ∧ ∀ chain,
        ((s.fillMemberNode r t ms).descend r chain).isSome = true ↔
          (s.descend r chain).isSome = true ∨ chain <+: t.follow (dropEmpty ms) := by
  have hlt : r < s.length := (List.getElem?_eq_some_iff.mp h.root).1
  have hgrows : Grows t r s (s.fillMemberNode r t ms) fun chain =>
      ∃ below, chain = [] ++ below ∧ below <+: t.follow (dropEmpty ms) :=
    grows_fillMemberNode h.linked hlt rfl rfl
  have hheader := hgrows.header r hlt
  rw [h.root] at hheader
  obtain ⟨n', hn', hsame⟩ := Option.map_eq_some_iff.mp hheader
  refine ⟨n', ⟨hgrows.linked, hn', ?_, hgrows.labelled h.labelled⟩, congrArg Prod.fst hsame,
    congrArg (fun p => p.2.1) hsame, ?_⟩
  · exact (congrArg (fun p => p.2.2) hsame).trans h.parent
  · intro chain
    rw [hgrows.chains]
    simp

theorem rooted_fillRootNode {n : StoredNode} (h : s.Rooted t r n) (path : String) :
    ∃ n', (s.fillRootNode r t path).Rooted t r n' ∧ n'.memberName = n.memberName ∧
      (NavigationNode.NamesRoot t path → n'.typeName = t.name) ∧
      (¬ NavigationNode.NamesRoot t path → n'.typeName = n.typeName) ∧ ∀ chain,
        ((s.fillRootNode r t path).descend r chain).isSome = true ↔
          (s.descend r chain).isSome = true ∨ chain <+: t.chainOf path := by
  have hnil : ∀ chain, chain <+: [] → (s.descend r chain).isSome = true := by
    intro chain hchain
    rw [List.prefix_nil.mp hchain]
    rfl
  unfold fillRootNode
  rcases NavigationNode.root_cases t path with ⟨typeName, ms, hfields, hnames, hchain, hguard⟩ |
    ⟨ms, hfields, hnames, hchain, hempty⟩ | ⟨ms, hfields, hnames, hchain, hempty, hfirst⟩
  -- the path is not for this root, or stops before the first member: nothing changes
  · have hsame : (if typeName ≠ t.name then s
        else if ms = [] ∨ ms = [""] then s.setTypeName r t.name
        else if (ms.head?.bind t.member).isNone then s
        else (s.fillMemberNode r t ms).setTypeName r t.name) = s := by
      by_cases hname : typeName ≠ t.name
      · rw [if_pos hname]
      · obtain ⟨hempty, hnone⟩ := hguard.resolve_left hname
        rw [if_neg hname, if_neg hempty, if_pos hnone]
    rw [hfields]
    dsimp only
    rw [hsame, hchain]
    exact ⟨n, h, rfl, fun h' => absurd h' hnames, fun _ => rfl,
      fun chain => (or_iff_left_of_imp (hnil chain)).symm⟩
  · rw [hfields]
    dsimp only
    rw [if_neg (not_not.mpr rfl), if_pos hempty, hchain]
    refine ⟨_, rooted_setTypeName h t.name, rfl, fun _ => rfl, fun h' => absurd hnames h', ?_⟩
    intro chain
    rw [descend_setTypeName]
    exact (or_iff_left_of_imp (hnil chain)).symm
  · rw [hfields]
    dsimp only
    rw [if_neg (not_not.mpr rfl), if_neg hempty, hfirst, if_neg Bool.false_ne_true, hchain]
    obtain ⟨n', hn', hname, -, hchains⟩ := rooted_fillMemberNode h ms
    refine ⟨_, rooted_setTypeName hn' t.name, hname, fun _ => rfl, fun h' => absurd hnames h', ?_⟩
    intro chain
    rw [descend_setTypeName, hchains]

end Roots

/-! ## Paths of nodes -/

theorem pathFrom_of_descend {t : DynamicType} {r id : Nat} {s : NodeStore} {n : StoredNode}
    (h : s.Rooted t r n) {chain : List String} (hid : s.descend r chain = some id) {fuel : Nat}
    (hfuel : chain.length < fuel) :
    s.pathFrom fuel id = some (NavigationNode.getPath n.typeName chain) := by
  -- along the parents, that is from the end of the chain to the root
  induction chain using List.reverseRecOn generalizing id fuel with
  | nil =>
    cases hid
    obtain ⟨fuel, rfl⟩ : ∃ k, fuel = k + 1 := ⟨fuel - 1, by simp at hfuel; omega⟩
    rw [pathFrom, h.root, Option.bind_some, h.parent]
    rfl
  | append_singleton pre m ih =>
    rw [List.length_append, List.length_singleton] at hfuel
    obtain ⟨fuel, rfl⟩ : ∃ k, fuel = k + 1 := ⟨fuel - 1, by omega⟩
    rw [descend_concat] at hid
    obtain ⟨p, hp, hc⟩ := Option.bind_eq_some_iff.mp hid
    obtain ⟨n', hn', hparent, hname, -⟩ := h.linked.link p m id hc
    rw [pathFrom, hn', Option.bind_some, hparent]
    show (s.pathFrom fuel p).map _ = _
    rw [ih hp (by omega), Option.map_some, hname, NavigationNode.getPath_concat]

theorem lt_length_of_descend {t : DynamicType} {r id : Nat} {s : NodeStore} {n : StoredNode}
    (h : s.Rooted t r n) {chain : List String} (hid : s.descend r chain = some id) :
    id < s.length := by
  rcases List.eq_nil_or_concat chain with rfl | ⟨pre, m, rfl⟩
  · cases hid
    exact (List.getElem?_eq_some_iff.mp h.root).1
  · rw [List.concat_eq_append, descend_concat] at hid
    obtain ⟨p, -, hc⟩ := Option.bind_eq_some_iff.mp hid
    obtain ⟨n', hn', -⟩ := h.linked.link p m id hc
    exact (List.getElem?_eq_some_iff.mp hn').1

/-- The path of a node is the name of the root and the chain that leads from it. -/
theorem getPath_of_descend {t : DynamicType} {r id : Nat} {s : NodeStore} {n : StoredNode}
    (h : s.Rooted t r n) {chain : List String} (hid : s.descend r chain = some id) :
    s.getPath id = some (NavigationNode.getPath n.typeName chain) := by
  apply pathFrom_of_descend h hid
  -- nodes are made after their parents, so the chain is shorter than the store
  have hle := le_of_descend h.linked hid
  have hlt := lt_length_of_descend h hid
  omega

end NodeStore

end FastDdsSh
