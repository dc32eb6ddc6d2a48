import FastDdsSh.Navigation.Nodes

/-!
# The trees of a client

`add_member` fills paths into the root that `member_tree_` has for a type.  After any sequence of
paths the nodes below the root are those of the chains that the paths can be followed along, each
with its parent and its names.
-/

namespace FastDdsSh

open DynamicType

structure StoredTrees where
  nodes : NodeStore
  memberTree : KeyedStore String Nat

namespace StoredTrees

def initial : StoredTrees := ⟨[], .empty⟩

def addMember (trees : StoredTrees) (t : DynamicType) (path : String) : StoredTrees :=
  match trees.memberTree t.name with
  | some root => { trees with nodes := trees.nodes.fillRootNode root t path }
  | none =>
      let root := trees.nodes.length
      let made : StoredNode := ⟨"", "", none, []⟩
      { nodes := NodeStore.fillRootNode (trees.nodes ++ [made]) root t path
        memberTree := trees.memberTree.set t.name root }

def addMembers (t : DynamicType) (paths : List String) : StoredTrees :=
  paths.foldl (fun trees path => trees.addMember t path) initial

theorem addMembers_append (t : DynamicType) (paths : List String) (path : String) :
    addMembers t (paths ++ [path]) = (addMembers t paths).addMember t path := by
  unfold addMembers
  rw [List.foldl_append, List.foldl_cons, List.foldl_nil]

structure Holds (trees : StoredTrees) (t : DynamicType) (paths : List String) (root : Nat)
    (n : StoredNode) : Prop where
  memberTree : trees.memberTree t.name = some root
  rooted : trees.nodes.Rooted t root n
  memberName : n.memberName = ""
  typeName : n.typeName = (NavigationNode.grow t paths).typeName
  chains : ∀ chain, (trees.nodes.descend root chain).isSome = true ↔
    chain = [] ∨ ∃ path ∈ paths, chain <+: t.chainOf path

theorem rooted_fresh (t : DynamicType) :
    NodeStore.Rooted [⟨"", "", none, []⟩] t 0 ⟨"", "", none, []⟩ := by
  -- the only node has no members
  have hchild : ∀ id m, NodeStore.child [⟨"", "", none, []⟩] id m = none := by
    intro id m
    cases id with
    | zero => rfl
    | succ id => exact NodeStore.child_eq_none (by simp) m
  refine ⟨⟨?_, ?_⟩, rfl, rfl, ?_⟩
  · intro id n hn
    cases id with
    | zero =>
      cases hn
      exact List.Pairwise.nil
    | succ id => cases hn
  · intro id m c hc
    rw [hchild] at hc
    cases hc
  · intro chain id n hchain hid
    obtain ⟨m, ms, rfl⟩ := List.exists_cons_of_ne_nil hchain
    rw [NodeStore.descend_cons, hchild] at hid
    cases hid

/-- A path that is filled in keeps what the root's tree holds. -/
theorem holds_fillRootNode {trees : StoredTrees} {t : DynamicType} {paths : List String}
    {root : Nat} {n : StoredNode} (h : trees.Holds t paths root n) (path : String) :
    ∃ n', Holds { trees with nodes := trees.nodes.fillRootNode root t path } t (paths ++ [path])
      root n' := by
  obtain ⟨n', hrooted, hname, hnamed, hsame, hchains⟩ :=
    NodeStore.rooted_fillRootNode h.rooted path
  refine ⟨n', h.memberTree, hrooted, hname.trans h.memberName, ?_, ?_⟩
  -- the root is renamed by the store where it is by the tree
  · by_cases hnames : NavigationNode.NamesRoot t path
    · rw [hnamed hnames, (NavigationNode.typeName_grow t _).1 ⟨path, by simp, hnames⟩]
    · rw [hsame hnames, h.typeName, NavigationNode.grow_append]
      rcases NavigationNode.fillRootNode_spec (NavigationNode.grow t paths) t path with
        ⟨heq, -⟩ | ⟨hnames', -⟩
      · rw [heq]
      · exact absurd hnames' hnames
  · intro chain
    rw [hchains, h.chains, or_assoc]
    refine or_congr_right ?_
    simp [or_and_right, exists_or]

theorem holds_addMembers (t : DynamicType) {paths : List String} (h : paths ≠ []) :
    ∃ root n, (addMembers t paths).Holds t paths root n := by
  -- on the calls, the last one being the one that is made now
  induction paths using List.reverseRecOn with
  | nil => exact absurd rfl h
  | append_singleton paths path ih =>
    rw [addMembers_append]
    by_cases hpaths : paths = []
    · -- the first call makes the root
      subst hpaths
      have hfresh : Holds ⟨[⟨"", "", none, []⟩], KeyedStore.set .empty t.name 0⟩ t [] 0
          ⟨"", "", none, []⟩ := by
        refine ⟨KeyedStore.set_self _ _ _, rooted_fresh t, rfl, rfl, ?_⟩
        intro chain
        cases chain with
        | nil => exact iff_of_true rfl (.inl rfl)
        | cons m ms => simp [NodeStore.descend_cons, NodeStore.child]
      obtain ⟨n, hn⟩ := holds_fillRootNode hfresh path
      exact ⟨0, n, hn⟩
    · obtain ⟨root, n, hholds⟩ := ih hpaths
      obtain ⟨n', hn'⟩ := holds_fillRootNode hholds path
      refine ⟨root, n', ?_⟩
      rw [addMember, hholds.memberTree]
      exact hn'

/-! ## The invariant -/

structure LongestChain (t : DynamicType) (path : String) (longest : List String) : Prop where
  tokens : ∃ ms, pathTokens path = t.name :: ms ∧ longest <+: ms ∧
    ∀ chain, chain <+: ms → (t.declaredAt chain).isSome = true → chain <+: longest
  valid : (t.declaredAt longest).isSome = true

theorem longestChain_iff {t : DynamicType} {path : String} {chain : List String}
    (hchain : chain ≠ []) :
    (∃ longest, LongestChain t path longest ∧ chain <+: longest) ↔ chain <+: t.chainOf path := by
  unfold chainOf
  constructor
  · rintro ⟨longest, hlongest, hpre⟩
    obtain ⟨ms, htokens, hms, -⟩ := hlongest.tokens
    rw [htokens]
    dsimp only
    rw [if_pos rfl]
    exact hpre.trans (prefix_follow_iff.mpr ⟨hms, hlongest.valid⟩)
  · intro hpre
    cases htokens : pathTokens path with
    | nil =>
      rw [htokens, List.prefix_nil] at hpre
      exact absurd hpre hchain
    | cons typeName ms =>
      rw [htokens] at hpre
      dsimp only at hpre
      by_cases hname : typeName = t.name
      · rw [if_pos hname] at hpre
        -- what is followed of the path is itself the longest chain
        have hself := prefix_follow_iff.mp (List.prefix_refl (t.follow ms))
        refine ⟨t.follow ms, ⟨⟨ms, by rw [hname] at htokens; exact htokens, hself.1, ?_⟩, hself.2⟩,
          hpre⟩
        intro chain' hchain' hvalid
        exact prefix_follow_iff.mpr ⟨hchain', hvalid⟩
      · rw [if_neg hname, List.prefix_nil] at hpre
        exact absurd hpre hchain

/-- The chains below a type's root are those of the paths, each of them there once, and its node has
the name of the member, that of the declared type, the node before it for its parent, and the path
that the chain makes. -/
structure TreeInvariant (trees : StoredTrees) (t : DynamicType) (paths : List String)
    (root : Nat) : Prop where
  chains : ∀ chain, chain ≠ [] → ((trees.nodes.descend root chain).isSome = true ↔
    ∃ path ∈ paths, ∃ longest, LongestChain t path longest ∧ chain <+: longest)
  once : ∀ chain chain' id, trees.nodes.descend root chain = some id →
    trees.nodes.descend root chain' = some id → chain = chain'
  keys : ∀ chain id n, trees.nodes.descend root chain = some id → trees.nodes[id]? = some n →
    (n.memberNode.map Prod.fst).Nodup
  node : ∀ chain m id, trees.nodes.descend root (chain ++ [m]) = some id →
    ∃ n u, trees.nodes[id]? = some n ∧ t.declaredAt (chain ++ [m]) = some u ∧
      n.memberName = m ∧ n.typeName = u.name ∧ n.parentNode = trees.nodes.descend root chain
  path : ∀ chain id, chain ≠ [] → trees.nodes.descend root chain = some id →
    trees.nodes.getPath id = some (NavigationNode.getPath t.name chain)

/-- After any sequence of calls for a type, whatever the paths, its root has the invariant; there is
no root before the first call. -/
theorem treeInvariant_addMembers (t : DynamicType) (paths : List String) :
    (paths = [] ∧ (addMembers t paths).memberTree t.name = none) ∨
      ∃ root, (addMembers t paths).memberTree t.name = some root ∧
        (addMembers t paths).TreeInvariant t paths root := by
  by_cases hpaths : paths = []
  · left
    rw [hpaths]
    exact ⟨rfl, rfl⟩
  right
  obtain ⟨root, n, h⟩ := holds_addMembers t hpaths
  refine ⟨root, h.memberTree, ?_, ?_, ?_, ?_, ?_⟩
  · intro chain hchain
    rw [h.chains, or_iff_right hchain]
    refine exists_congr fun path => and_congr_right fun _ => ?_
    exact (longestChain_iff hchain).symm
  -- once: a node has one parent
  · intro chain chain' id hid hid'
    exact NodeStore.descend_injective h.rooted.linked hid hid'
  -- keys: they are in order, hence different
  · intro chain id n' hid hn'
    exact (h.rooted.linked.ordered id n' hn').imp fun hlt => hlt.ne
  · intro chain m id hid
    have hstep := hid
    rw [NodeStore.descend_concat] at hstep
    obtain ⟨p, hp, hc⟩ := Option.bind_eq_some_iff.mp hstep
    obtain ⟨n', hn', hparent, hname, -⟩ := h.rooted.linked.link p m id hc
    obtain ⟨u, hu, htype⟩ := h.rooted.labelled (chain ++ [m]) id n' (by simp) hid hn'
    exact ⟨n', u, hn', hu, hname, htype, hparent.trans hp.symm⟩
  -- path: there is a chain, so some path has named the root after the type
  · intro chain id hchain hid
    have hon : ∃ path ∈ paths, chain <+: t.chainOf path :=
      ((h.chains chain).mp (by rw [hid]; rfl)).resolve_left hchain
    have hsome := (NavigationNode.descend_grow t paths hchain).mpr hon
    rw [NodeStore.getPath_of_descend h.rooted hid, h.typeName,
      NavigationNode.typeName_of_descend_grow hsome hchain]

/-! ## The tree that the nodes make up -/

def StandsFor (s : NodeStore) (id : Nat) (n : NavigationNode) : Prop :=
  ∃ stored, s[id]? = some stored ∧ stored.memberName = n.memberName ∧
    stored.typeName = n.typeName ∧ stored.memberNode.map Prod.fst = n.memberNode.map Prod.fst

/-- The nodes below a type's root make up the tree that is grown from the paths. -/
theorem standsFor_grow (t : DynamicType) {paths : List String} (hpaths : paths ≠ []) :
    ∃ root, (addMembers t paths).memberTree t.name = some root ∧ ∀ chain,
      Option.Rel (StandsFor (addMembers t paths).nodes)
        ((addMembers t paths).nodes.descend root chain)
        ((NavigationNode.grow t paths).descend chain) := by
  obtain ⟨root, n, h⟩ := holds_addMembers t hpaths
  refine ⟨root, h.memberTree, ?_⟩
  -- store and tree have the same chains, those on the way of the paths
  have hsame : ∀ chain, ((addMembers t paths).nodes.descend root chain).isSome =
      ((NavigationNode.grow t paths).descend chain).isSome := by
    intro chain
    rw [Bool.eq_iff_iff, h.chains]
    by_cases hchain : chain = []
    · rw [hchain]
      exact iff_of_true (.inl rfl) rfl
    · rw [or_iff_right hchain, NavigationNode.descend_grow t paths hchain]
  have hsorted := NavigationNode.sorted_grow t paths
  intro chain
  have hhere := hsame chain
  cases hid : (addMembers t paths).nodes.descend root chain with
  | none =>
    rw [hid] at hhere
    cases hnode : (NavigationNode.grow t paths).descend chain with
    | none => exact .none
    | some node =>
      rw [hnode] at hhere
      cases hhere
  | some id =>
    rw [hid] at hhere
    cases hnode : (NavigationNode.grow t paths).descend chain with
    | none =>
      rw [hnode] at hhere
      cases hhere
    | some node =>
      apply Option.Rel.some
      have hkeys : ∀ stored : StoredNode, (addMembers t paths).nodes[id]? = some stored →
          stored.memberNode.map Prod.fst = node.memberNode.map Prod.fst := by
        intro stored hstored
        -- maps in order that have something at the same keys have the same keys
        apply Entries.keys_eq (h.rooted.linked.ordered id stored hstored)
          (NavigationNode.ordered_of_sorted (NavigationNode.sorted_of_descend hsorted hnode))
        intro k
        have hbelow := hsame (chain ++ [k])
        rw [NodeStore.descend_concat, NavigationNode.descend_concat, hid, hnode,
          Option.bind_some, Option.bind_some, NodeStore.child, hstored] at hbelow
        exact hbelow
      -- the root's names come from the calls, the other ones from the declared type
      rcases List.eq_nil_or_concat chain with rfl | ⟨pre, m, rfl⟩
      · cases hid
        cases hnode
        exact ⟨n, h.rooted.root, by rw [h.memberName, NavigationNode.memberName_grow], h.typeName,
          hkeys n h.rooted.root⟩
      · rw [List.concat_eq_append] at hid hnode
        have hstep := hid
        rw [NodeStore.descend_concat] at hstep
        obtain ⟨p, -, hc⟩ := Option.bind_eq_some_iff.mp hstep
        obtain ⟨stored, hstored, -, hname, -⟩ := h.rooted.linked.link p m id hc
        obtain ⟨u, hu, htype⟩ := h.rooted.labelled (pre ++ [m]) id stored (by simp) hid hstored
        obtain ⟨hname', u', hu', htype'⟩ :=
          NavigationNode.labelled_grow t paths (pre ++ [m]) node hnode (by simp)
        rw [hu] at hu'
        cases hu'
        rw [List.getLast?_append, List.getLast?_singleton] at hname'
        refine ⟨stored, hstored, ?_, htype.trans htype'.symm, hkeys stored hstored⟩
        rw [hname]
        simpa using hname'

end StoredTrees

end FastDdsSh
