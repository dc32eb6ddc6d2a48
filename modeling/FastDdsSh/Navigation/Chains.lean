import FastDdsSh.Lib.Entries
import FastDdsSh.Navigation

/-!
# The chains of a navigation tree

A path is followed as long as its pieces name members of structures and unions, aliases not being
looked through.  A tree has a node for every chain that some path has been followed along, labelled
with the member and the name of its declared type, and it is determined by these chains.
-/

namespace FastDdsSh

namespace DynamicType

def declaredAt : DynamicType → List String → Option DynamicType
  | t, [] => some t
  | t, m :: ms => (t.member m).bind fun mt => mt.declaredAt ms

def follow : DynamicType → List String → List String
  | _, [] => []
  | t, m :: ms =>
      match t.member m with
      | none => []
      | some mt => m :: mt.follow ms

def chainOf (t : DynamicType) (path : String) : List String :=
  match pathTokens path with
  | [] => []
  | typeName :: ms => if typeName = t.name then t.follow ms else []

/-- The chains that can be followed on the way of a longer one. -/
theorem prefix_follow_iff {t : DynamicType} {chain ms : List String} :
    chain <+: t.follow ms ↔ chain <+: ms ∧ (t.declaredAt chain).isSome = true := by
  -- on the path: each piece is either the end of the chain or the member that it goes on with
  induction ms generalizing t chain with
  | nil =>
    rw [follow, List.prefix_nil]
    constructor
    · intro h
      rw [h]
      exact ⟨rfl, rfl⟩
    · intro h
      exact h.1
  | cons m ms ih =>
    cases chain with
    | nil => exact iff_of_true List.nil_prefix ⟨List.nil_prefix, rfl⟩
    | cons k chain =>
      rw [follow]
      cases hm : t.member m with
      -- the first piece is unknown, and only the empty chain is followed
      | none =>
        refine iff_of_false (by simp) ?_
        rintro ⟨hpre, hsome⟩
        obtain ⟨rfl, -⟩ := List.cons_prefix_cons.mp hpre
        rw [declaredAt, hm] at hsome
        cases hsome
      | some mt =>
        show k :: chain <+: m :: mt.follow ms ↔ _
        rw [List.cons_prefix_cons, List.cons_prefix_cons, ih, and_assoc]
        refine and_congr_right fun hk => and_congr_right fun _ => ?_
        rw [declaredAt, hk, hm, Option.bind_some]

theorem declaredAt_append (t : DynamicType) (ms ns : List String) :
    t.declaredAt (ms ++ ns) = (t.declaredAt ms).bind fun u => u.declaredAt ns := by
  induction ms generalizing t with
  | nil => rfl
  | cons m ms ih =>
    rw [List.cons_append, declaredAt, declaredAt]
    cases t.member m with
    | none => rfl
    | some mt => exact ih mt

end DynamicType

/-! ## The pieces of a path that are followed -/

def dropEmpty (pieces : List String) : List String :=
  if pieces.getLast? = some "" then pieces.dropLast else pieces

theorem pathTokens_eq (path : String) : pathTokens path = dropEmpty (pathFields path) := rfl

theorem dropEmpty_cons (m : String) (ms : List String) :
    dropEmpty (m :: ms) = if m = "" ∧ ms = [] then [] else m :: dropEmpty ms := by
  cases ms with
  -- a single piece is the only one that can be dropped here
  | nil =>
    by_cases hm : m = ""
    · rw [hm]
      decide
    · rw [if_neg fun h => hm h.1]
      unfold dropEmpty
      rw [if_neg (by simpa using hm)]
      rfl
  | cons n ns =>
    rw [if_neg fun h => by cases h.2]
    unfold dropEmpty
    rw [List.getLast?_cons_cons, List.dropLast_cons_cons]
    split <;> rfl

theorem dropEmpty_eq_self {pieces : List String} (h : pieces.getLast? ≠ some "") :
    dropEmpty pieces = pieces :=
  if_neg h

theorem memberPath_eq_dropEmpty {path typeName : String} {ms : List String}
    (h : pathFields path = typeName :: ms) : memberPath path = dropEmpty ms := by
  rw [memberPath, pathTokens_eq, h, dropEmpty_cons]
  by_cases hstop : typeName = "" ∧ ms = []
  · rw [if_pos hstop, hstop.2]
    rfl
  · rw [if_neg hstop]
    rfl

namespace NavigationNode

open DynamicType Entries Lookup

/-! ## The chains after a path has been filled in -/

theorem updateMember_eq (m : String) (new : NavigationNode) (f : NavigationNode → NavigationNode)
    (children : List (String × NavigationNode)) :
    updateMember m new f children = update m new f children := by
  -- the embedding's own recursion over the members is that of the entries of any map
  induction children with
  | nil => rfl
  | cons head rest ih =>
    obtain ⟨n, child⟩ := head
    rw [updateMember, update, ih]

theorem descend_cons (n : NavigationNode) (m : String) (ms : List String) :
    n.descend (m :: ms) = (n.memberNode.lookup m).bind fun child => child.descend ms := rfl

theorem descend_concat (n : NavigationNode) (chain : List String) (m : String) :
    n.descend (chain ++ [m]) = (n.descend chain).bind fun k => k.memberNode.lookup m := by
  induction chain generalizing n with
  | nil =>
    show (n.memberNode.lookup m).bind some = n.memberNode.lookup m
    exact Option.bind_fun_some _
  | cons k ks ih =>
    rw [List.cons_append, descend_cons, descend_cons]
    cases n.memberNode.lookup k with
    | none => rfl
    | some child => exact ih child

/-- A path goes no further, or to the member that its first piece names. -/
theorem follow_cases (t : DynamicType) (path : List String) :
    (t.follow (dropEmpty path) = [] ∧ ∀ n, fillMemberNode t path n = n) ∨
      ∃ m ms mt, path = m :: ms ∧ ¬ (m = "" ∧ ms = []) ∧ t.member m = some mt ∧
        t.follow (dropEmpty path) = m :: mt.follow (dropEmpty ms) := by
  cases path with
  | nil => exact .inl ⟨rfl, fun _ => rfl⟩
  | cons m ms =>
    rw [dropEmpty_cons]
    by_cases hstop : m = "" ∧ ms = []
    · left
      rw [if_pos hstop]
      exact ⟨rfl, fun n => by rw [fillMemberNode, if_pos hstop]⟩
    · rw [if_neg hstop, follow]
      cases hm : t.member m with
      | none =>
        left
        exact ⟨rfl, fun n => by rw [fillMemberNode, if_neg hstop, hm]⟩
      | some mt =>
        right
        exact ⟨m, ms, mt, rfl, hstop, hm, rfl⟩

/-- What the members of a node are after a path has been filled in below it. -/
theorem lookup_fillMemberNode {t mt : DynamicType} {m : String} {ms : List String}
    {n : NavigationNode} (hsorted : n.Sorted) (hstop : ¬ (m = "" ∧ ms = []))
    (hm : t.member m = some mt) (k : String) :
    (fillMemberNode t (m :: ms) n).memberNode.lookup k =
      if k = m then
        some (fillMemberNode mt ms ((n.memberNode.lookup m).getD (node m mt.name [])))
      else n.memberNode.lookup k := by
  obtain ⟨memberName, typeName, children⟩ := n
  rw [fillMemberNode, if_neg hstop, hm]
  show (updateMember m _ _ children).lookup k = _
  -- the order of the keys is what the update relies on to find the entry
  rw [updateMember_eq]
  rw [Sorted, Every] at hsorted
  split
  · rename_i hk
    rw [hk]
    exact lookup_update_self m _ _ hsorted.1
  · rename_i hk
    exact lookup_update_ne _ _ children hk

theorem names_fillMemberNode (t : DynamicType) (path : List String) (n : NavigationNode) :
    (fillMemberNode t path n).memberName = n.memberName ∧
      (fillMemberNode t path n).typeName = n.typeName := by
  rcases follow_cases t path with ⟨-, hsame⟩ | ⟨m, ms, mt, rfl, hstop, hm, -⟩
  · rw [hsame]
    exact ⟨rfl, rfl⟩
  · obtain ⟨memberName, typeName, children⟩ := n
    rw [fillMemberNode, if_neg hstop, hm]
    exact ⟨rfl, rfl⟩

theorem sorted_of_lookup {n child : NavigationNode} {m : String} (h : n.Sorted)
    (hchild : n.memberNode.lookup m = some child) : child.Sorted := by
  obtain ⟨memberName, typeName, children⟩ := n
  rw [Sorted, Every] at h
  exact everyMember_of_lookup h.2 hchild

theorem sorted_of_descend {n n' : NavigationNode} {chain : List String} (h : n.Sorted)
    (hn' : n.descend chain = some n') : n'.Sorted := by
  induction chain generalizing n with
  | nil =>
    cases hn'
    exact h
  | cons m ms ih =>
    obtain ⟨child, hchild, hrest⟩ := Option.bind_eq_some_iff.mp hn'
    exact ih (sorted_of_lookup h hchild) hrest

theorem ordered_of_sorted {n : NavigationNode} (h : n.Sorted) : Ordered n.memberNode := by
  obtain ⟨memberName, typeName, children⟩ := n
  rw [Sorted, Every] at h
  exact h.1

theorem sorted_leaf (memberName typeName : String) : (node memberName typeName []).Sorted := by
  rw [Sorted, Every, EveryMember]
  exact ⟨List.Pairwise.nil, trivial⟩

/-- The node below which the rest of a path is filled in: the one that is there, or a new one. -/
theorem sorted_getD {n : NavigationNode} (h : n.Sorted) (m typeName : String) :
    ((n.memberNode.lookup m).getD (node m typeName [])).Sorted := by
  cases hchild : n.memberNode.lookup m with
  | none => exact sorted_leaf m typeName
  | some child => exact sorted_of_lookup h hchild

/-- The chains after a path has been filled in: those there were, and those on the way of the path.
-/
theorem descend_fillMemberNode {t : DynamicType} {path : List String} {n : NavigationNode}
    (hsorted : n.Sorted) (chain : List String) :
    ((fillMemberNode t path n).descend chain).isSome = true ↔
      (n.descend chain).isSome = true ∨ chain <+: t.follow (dropEmpty path) := by
  -- on the path, for every node: the rest of it is filled in below the member
  induction path generalizing t n chain with
  | nil =>
    show (n.descend chain).isSome = true ↔ _ ∨ chain <+: []
    rw [List.prefix_nil]
    refine (or_iff_left_of_imp ?_).symm
    intro hchain
    rw [hchain]
    rfl
  | cons m ms ih =>
    cases chain with
    | nil => exact iff_of_true rfl (.inl rfl)
    | cons k chain =>
      rcases follow_cases t (m :: ms) with ⟨hnil, hsame⟩ | ⟨m', ms', mt, heq, hstop, hm, hfollow⟩
      · rw [hnil, hsame, List.prefix_nil]
        simp
      · cases heq
        rw [hfollow, descend_cons, descend_cons, lookup_fillMemberNode hsorted hstop hm,
          List.cons_prefix_cons]
        by_cases hk : k = m
        · subst hk
          rw [if_pos rfl, Option.bind_some, ih (sorted_getD hsorted k mt.name)]
          cases hchild : n.memberNode.lookup k with
          | some child => simp
          | none =>
            -- a new node has no chain but the empty one, which every path goes along
            cases chain with
            | nil => simp [descend]
            | cons k' chain => simp [descend_cons, memberNode]
        · rw [if_neg hk]
          simp [hk]

/-! ## The labels of the nodes -/

def Labelled (t : DynamicType) (n : NavigationNode) : Prop :=
  ∀ chain n', n.descend chain = some n' → chain ≠ [] →
    chain.getLast? = some n'.memberName ∧ ∃ u, t.declaredAt chain = some u ∧ n'.typeName = u.name

theorem labelled_iff {t : DynamicType} {n : NavigationNode} :
    n.Labelled t ↔ ∀ m child, n.memberNode.lookup m = some child →
      child.memberName = m ∧ ∃ mt, t.member m = some mt ∧ child.typeName = mt.name ∧
        child.Labelled mt := by
  constructor
  -- a chain below the member is one below the node, with the member before it
  · intro h m child hchild
    have hone : n.descend [m] = some child := by
      rw [descend_cons, hchild]
      rfl
    obtain ⟨hname, u, hu, htype⟩ := h [m] child hone (List.cons_ne_nil m [])
    rw [declaredAt] at hu
    obtain ⟨mt, hm, heq⟩ := Option.bind_eq_some_iff.mp hu
    cases heq
    refine ⟨by simpa using hname.symm, u, hm, htype, ?_⟩
    intro chain n' hn' hchain
    have hbelow : n.descend (m :: chain) = some n' := by
      rw [descend_cons, hchild]
      exact hn'
    obtain ⟨hlast, u, hu, htype'⟩ := h (m :: chain) n' hbelow (List.cons_ne_nil m chain)
    rw [declaredAt, hm] at hu
    obtain ⟨k, rest, rfl⟩ := List.exists_cons_of_ne_nil hchain
    rw [List.getLast?_cons_cons] at hlast
    exact ⟨hlast, u, hu, htype'⟩
  · intro h chain n' hn' hchain
    obtain ⟨m, rest, rfl⟩ := List.exists_cons_of_ne_nil hchain
    rw [descend_cons] at hn'
    obtain ⟨child, hchild, hrest⟩ := Option.bind_eq_some_iff.mp hn'
    obtain ⟨hname, mt, hm, htype, hbelow⟩ := h m child hchild
    rw [declaredAt, hm, Option.bind_some]
    cases rest with
    | nil =>
      cases hrest
      exact ⟨congrArg some hname.symm, mt, rfl, htype⟩
    | cons k rest =>
      rw [List.getLast?_cons_cons]
      exact hbelow _ n' hrest (List.cons_ne_nil k rest)

theorem labelled_leaf (t : DynamicType) (memberName typeName : String) :
    (node memberName typeName []).Labelled t := by
  rw [labelled_iff]
  intro m child hchild
  cases hchild

theorem labelled_fillMemberNode {t : DynamicType} {path : List String} {n : NavigationNode}
    (hsorted : n.Sorted) (h : n.Labelled t) : (fillMemberNode t path n).Labelled t := by
  induction path generalizing t n with
  | nil => exact h
  | cons m ms ih =>
    rcases follow_cases t (m :: ms) with ⟨-, hsame⟩ | ⟨m', ms', mt, heq, hstop, hm, -⟩
    · rw [hsame]
      exact h
    · cases heq
      rw [labelled_iff] at h ⊢
      intro k child hchild
      rw [lookup_fillMemberNode hsorted hstop hm] at hchild
      by_cases hk : k = m
      · subst hk
        rw [if_pos rfl, Option.some_inj] at hchild
        subst hchild
        -- the node at the first piece, whether it was there or not
        have hnode : ((n.memberNode.lookup k).getD (node k mt.name [])).memberName = k ∧
            ((n.memberNode.lookup k).getD (node k mt.name [])).typeName = mt.name ∧
            ((n.memberNode.lookup k).getD (node k mt.name [])).Labelled mt := by
          cases hlookup : n.memberNode.lookup k with
          | none => exact ⟨rfl, rfl, labelled_leaf mt k mt.name⟩
          | some child =>
            obtain ⟨hname, mt', hm', htype, hbelow⟩ := h k child hlookup
            rw [hm] at hm'
            cases hm'
            exact ⟨hname, htype, hbelow⟩
        obtain ⟨hname, htype, hbelow⟩ := hnode
        obtain ⟨hsameName, hsameType⟩ :=
          names_fillMemberNode mt ms ((n.memberNode.lookup k).getD (node k mt.name []))
        exact ⟨hsameName.trans hname, mt, hm, hsameType.trans htype,
          ih (sorted_getD hsorted k mt.name) hbelow⟩
      · rw [if_neg hk] at hchild
        exact h k child hchild

/-- Trees in order that are labelled for one type are equal if they have the same chains. -/
theorem eq_of_chains {t : DynamicType} {n n' : NavigationNode} (hsorted : n.Sorted)
    (hsorted' : n'.Sorted) (h : n.Labelled t) (h' : n'.Labelled t)
    (hname : n.memberName = n'.memberName) (htype : n.typeName = n'.typeName)
    (hchains : ∀ chain, (n.descend chain).isSome = true ↔ (n'.descend chain).isSome = true) :
    n = n' := by
  -- on the size of the tree, as the members are nodes themselves
  induction hsize : sizeOf n using Nat.strong_induction_on generalizing t n n' with
  | h size ih =>
    have hbelow : ∀ m child, n.memberNode.lookup m = some child → sizeOf child < size := by
      intro m child hchild
      have hmem := List.sizeOf_lt_of_mem (mem_of_lookup hchild)
      obtain ⟨memberName, typeName, children⟩ := n
      rw [Prod.mk.sizeOf_spec] at hmem
      rw [node.sizeOf_spec] at hsize
      have hmem : 1 + sizeOf m + sizeOf child < sizeOf children := hmem
      omega
    -- members are equal if both trees have one at the same keys, and these are chains of one piece
    have hchildren : n.memberNode = n'.memberNode := by
      apply eq_of_lookup (ordered_of_sorted hsorted) (ordered_of_sorted hsorted')
      intro m
      have hone := hchains [m]
      rw [descend_cons, descend_cons] at hone
      cases hchild : n.memberNode.lookup m with
      | none =>
        cases hchild' : n'.memberNode.lookup m with
        | none => rfl
        | some child' =>
          rw [hchild, hchild'] at hone
          exact absurd (hone.mpr rfl) (by decide)
      | some child =>
        cases hchild' : n'.memberNode.lookup m with
        | none =>
          rw [hchild, hchild'] at hone
          exact absurd (hone.mp rfl) (by decide)
        | some child' =>
          -- both labels are those of the one declared member
          obtain ⟨hk, mt, hm, hu, hlabelled⟩ := labelled_iff.mp h m child hchild
          obtain ⟨hk', mt', hm', hu', hlabelled'⟩ := labelled_iff.mp h' m child' hchild'
          rw [hm] at hm'
          cases hm'
          have hsub : ∀ chain, (child.descend chain).isSome = true ↔
              (child'.descend chain).isSome = true := by
            intro chain
            have hchain := hchains (m :: chain)
            rw [descend_cons, descend_cons, hchild, hchild'] at hchain
            exact hchain
          rw [ih _ (hbelow m child hchild) (sorted_of_lookup hsorted hchild)
            (sorted_of_lookup hsorted' hchild') hlabelled hlabelled' (hk.trans hk'.symm)
            (hu.trans hu'.symm) hsub rfl]
    obtain ⟨memberName, typeName, children⟩ := n
    obtain ⟨memberName', typeName', children'⟩ := n'
    have hname : memberName = memberName' := hname
    have htype : typeName = typeName' := htype
    have hchildren : children = children' := hchildren
    rw [hname, htype, hchildren]

/-! ## Roots -/

def named (n : NavigationNode) (name : String) : NavigationNode :=
  node n.memberName name n.memberNode

def NamesRoot (t : DynamicType) (path : String) : Prop :=
  pathFields path = [t.name] ∨ pathFields path = [t.name, ""] ∨ t.chainOf path ≠ []

theorem chainOf_of_fields {path typeName : String} {ms : List String}
    (h : pathFields path = typeName :: ms) (t : DynamicType) :
    t.chainOf path = if typeName = t.name then t.follow (dropEmpty ms) else [] := by
  rw [chainOf, pathTokens_eq, h, dropEmpty_cons]
  by_cases hstop : typeName = "" ∧ ms = []
  · rw [if_pos hstop, hstop.2]
    show [] = if typeName = t.name then [] else []
    rw [ite_self]
  · rw [if_neg hstop]

theorem pathFields_ne_nil (path : String) : pathFields path ≠ [] := by
  intro h
  exact List.splitOn_ne_nil '.' path.toList (List.map_eq_nil_iff.mp h)

/-- What `fill_root_node` makes of a path: the path is another type's or its first member is
unknown, or it is over after the name, or it has a chain. -/
theorem root_cases (t : DynamicType) (path : String) :
    (∃ typeName ms, pathFields path = typeName :: ms ∧ ¬ NamesRoot t path ∧ t.chainOf path = [] ∧
        (typeName ≠ t.name ∨ (¬ (ms = [] ∨ ms = [""]) ∧ (ms.head?.bind t.member).isNone = true))) ∨
      (∃ ms, pathFields path = t.name :: ms ∧ NamesRoot t path ∧ t.chainOf path = [] ∧
        (ms = [] ∨ ms = [""])) ∨
      ∃ ms, pathFields path = t.name :: ms ∧ NamesRoot t path ∧
        t.chainOf path = t.follow (dropEmpty ms) ∧ ¬ (ms = [] ∨ ms = [""]) ∧
        (ms.head?.bind t.member).isNone = false := by
  obtain ⟨typeName, ms, hfields⟩ := List.exists_cons_of_ne_nil (pathFields_ne_nil path)
  have hchain := chainOf_of_fields hfields t
  unfold NamesRoot
  by_cases hname : typeName = t.name
  · subst hname
    rw [if_pos rfl] at hchain
    by_cases hempty : ms = [] ∨ ms = [""]
    · right
      left
      refine ⟨ms, hfields, ?_, ?_, hempty⟩
      · rcases hempty with rfl | rfl
        · exact .inl hfields
        · exact .inr (.inl hfields)
      · rw [hchain]
        rcases hempty with rfl | rfl <;> rfl
    · have hone : pathFields path ≠ [t.name] ∧ pathFields path ≠ [t.name, ""] := by
        rw [hfields]
        simpa [not_or] using hempty
      rw [not_or] at hempty
      -- whether the first member is known decides whether there is a chain at all
      rcases follow_cases t ms with ⟨hnil, -⟩ | ⟨m, rest, mt, rfl, -, hm, hfollow⟩
      · left
        refine ⟨t.name, ms, hfields, ?_, hchain.trans hnil, .inr ⟨not_or.mpr hempty, ?_⟩⟩
        · rw [hchain, hnil]
          simp [hone]
        · -- the first piece names no member
          obtain ⟨m, rest, rfl⟩ := List.exists_cons_of_ne_nil hempty.1
          show (t.member m).isNone = true
          rw [dropEmpty_cons, if_neg fun h => hempty.2 (by rw [h.1, h.2]), follow] at hnil
          cases hm : t.member m with
          | none => rfl
          | some mt =>
            rw [hm] at hnil
            cases hnil
      · right
        right
        refine ⟨m :: rest, hfields, .inr (.inr ?_), hchain, not_or.mpr hempty, ?_⟩
        · rw [hchain, hfollow]
          exact List.cons_ne_nil m _
        · show (t.member m).isNone = false
          rw [hm]
          rfl
  · left
    rw [if_neg hname] at hchain
    refine ⟨typeName, ms, hfields, ?_, hchain, .inl hname⟩
    rw [hfields, hchain]
    simp [hname]

/-- A root that a path belongs to is filled like any other node, and named unless the first member
is unknown. -/
theorem fillRootNode_spec (root : NavigationNode) (t : DynamicType) (path : String) :
    (fillRootNode root t path = root ∧ ¬ NamesRoot t path ∧ t.chainOf path = []) ∨
      (NamesRoot t path ∧ ∃ ms, t.chainOf path = t.follow (dropEmpty ms) ∧
        fillRootNode root t path = (fillMemberNode t ms root).named t.name) := by
  unfold fillRootNode
  rcases root_cases t path with ⟨typeName, ms, hfields, hnames, hchain, hguard⟩ |
    ⟨ms, hfields, hnames, hchain, hempty⟩ | ⟨ms, hfields, hnames, hchain, hempty, hfirst⟩
  · left
    rw [hfields]
    refine ⟨?_, hnames, hchain⟩
    dsimp only
    by_cases hname : typeName ≠ t.name
    · rw [if_pos hname]
    · obtain ⟨hempty, hnone⟩ := hguard.resolve_left hname
      rw [if_neg hname, if_neg hempty, if_pos hnone]
  · right
    rw [hfields]
    refine ⟨hnames, [], hchain, ?_⟩
    dsimp only
    rw [if_neg (not_not.mpr rfl), if_pos hempty]
    cases root
    rfl
  · right
    rw [hfields]
    refine ⟨hnames, ms, hchain, ?_⟩
    dsimp only
    rw [if_neg (not_not.mpr rfl), if_neg hempty, hfirst, if_neg Bool.false_ne_true]
    cases fillMemberNode t ms root
    rfl

theorem descend_named (n : NavigationNode) (name : String) {chain : List String}
    (h : chain ≠ []) : (n.named name).descend chain = n.descend chain := by
  obtain ⟨m, ms, rfl⟩ := List.exists_cons_of_ne_nil h
  rfl

theorem labelled_named {t : DynamicType} {n : NavigationNode} (h : n.Labelled t) (name : String) :
    (n.named name).Labelled t := by
  intro chain n' hn' hchain
  rw [descend_named n name hchain] at hn'
  exact h chain n' hn' hchain

/-! ## A tree after a sequence of paths -/

def grow (t : DynamicType) (paths : List String) : NavigationNode :=
  paths.foldl (fun root path => fillRootNode root t path) fresh

theorem grow_append (t : DynamicType) (paths : List String) (path : String) :
    grow t (paths ++ [path]) = fillRootNode (grow t paths) t path := by
  unfold grow
  rw [List.foldl_append, List.foldl_cons, List.foldl_nil]

theorem sorted_grow (t : DynamicType) (paths : List String) : (grow t paths).Sorted := by
  induction paths using List.reverseRecOn with
  | nil => exact sorted_leaf "" ""
  | append_singleton paths path ih =>
    rw [grow_append]
    exact sorted_fillRootNode ih t path

theorem labelled_grow (t : DynamicType) (paths : List String) : (grow t paths).Labelled t := by
  -- from the last call on, as `fill_root_node` adds to what the calls before have made
  induction paths using List.reverseRecOn with
  | nil => exact labelled_leaf t "" ""
  | append_singleton paths path ih =>
    rw [grow_append]
    rcases fillRootNode_spec (grow t paths) t path with ⟨hsame, -⟩ | ⟨-, ms, -, hfilled⟩
    · rw [hsame]
      exact ih
    · rw [hfilled]
      exact labelled_named (labelled_fillMemberNode (sorted_grow t paths) ih) t.name

/-- The chains of a tree are those on the way of some path. -/
theorem descend_grow (t : DynamicType) (paths : List String) {chain : List String}
    (hchain : chain ≠ []) :
    ((grow t paths).descend chain).isSome = true ↔ ∃ path ∈ paths, chain <+: t.chainOf path := by
  induction paths using List.reverseRecOn with
  | nil =>
    refine iff_of_false ?_ (by simp)
    obtain ⟨m, ms, rfl⟩ := List.exists_cons_of_ne_nil hchain
    exact Bool.false_ne_true
  | append_singleton paths path ih =>
    rw [grow_append]
    have hlast : (∃ path' ∈ paths ++ [path], chain <+: t.chainOf path') ↔
        (∃ path' ∈ paths, chain <+: t.chainOf path') ∨ chain <+: t.chainOf path := by
      simp [or_and_right, exists_or]
    rw [hlast, ← ih]
    rcases fillRootNode_spec (grow t paths) t path with ⟨hsame, -, hnil⟩ | ⟨-, ms, hms, hfilled⟩
    · rw [hsame, hnil, List.prefix_nil]
      simp [hchain]
    · rw [hfilled, hms, descend_named _ _ hchain, descend_fillMemberNode (sorted_grow t paths)]

/-- The root is named by the first path that belongs to it. -/
theorem typeName_grow (t : DynamicType) (paths : List String) :
    ((∃ path ∈ paths, NamesRoot t path) → (grow t paths).typeName = t.name) ∧
      ((∀ path ∈ paths, ¬ NamesRoot t path) → (grow t paths).typeName = "") := by
  induction paths using List.reverseRecOn with
  | nil => exact ⟨fun h => absurd h (by simp), fun _ => rfl⟩
  | append_singleton paths path ih =>
    rw [grow_append]
    rcases fillRootNode_spec (grow t paths) t path with
      ⟨hsame, hnames, -⟩ | ⟨hnames, ms, -, hfilled⟩
    · rw [hsame]
      constructor
      -- the new path leaves the root alone, so it was named by one of the others
      · rintro ⟨path', hpath', hnames'⟩
        rcases List.mem_append.mp hpath' with hpath' | hpath'
        · exact ih.1 ⟨path', hpath', hnames'⟩
        · rw [List.mem_singleton.mp hpath'] at hnames'
          exact absurd hnames' hnames
      · intro hnone
        exact ih.2 fun path' hpath' => hnone path' (List.mem_append_left _ hpath')
    · rw [hfilled]
      exact ⟨fun _ => rfl, fun hnone => absurd hnames (hnone path (by simp))⟩

theorem memberName_grow (t : DynamicType) (paths : List String) :
    (grow t paths).memberName = "" := by
  induction paths using List.reverseRecOn with
  | nil => rfl
  | append_singleton paths path ih =>
    rw [grow_append]
    rcases fillRootNode_spec (grow t paths) t path with ⟨hsame, -⟩ | ⟨-, ms, -, hfilled⟩
    · rw [hsame]
      exact ih
    · rw [hfilled]
      exact (names_fillMemberNode t ms (grow t paths)).1.trans ih

/-- Neither the order of the paths nor how often each of them comes makes a difference. -/
theorem grow_congr {t : DynamicType} {paths paths' : List String}
    (h : ∀ path, path ∈ paths ↔ path ∈ paths') : grow t paths = grow t paths' := by
  refine eq_of_chains (sorted_grow t paths) (sorted_grow t paths') (labelled_grow t paths)
    (labelled_grow t paths') ?_ ?_ ?_
  · rw [memberName_grow, memberName_grow]
  · by_cases hnames : ∃ path ∈ paths, NamesRoot t path
    · obtain ⟨path, hpath, hnamed⟩ := hnames
      rw [(typeName_grow t paths).1 ⟨path, hpath, hnamed⟩,
        (typeName_grow t paths').1 ⟨path, (h path).mp hpath, hnamed⟩]
    · have hnone : ∀ path ∈ paths, ¬ NamesRoot t path :=
        fun path hpath hnamed => hnames ⟨path, hpath, hnamed⟩
      rw [(typeName_grow t paths).2 hnone,
        (typeName_grow t paths').2 fun path hpath => hnone path ((h path).mpr hpath)]
  -- both trees have the chains on the way of the same paths
  · intro chain
    by_cases hchain : chain = []
    · rw [hchain]
      exact iff_of_true rfl rfl
    · rw [descend_grow t paths hchain, descend_grow t paths' hchain]
      refine exists_congr fun path => ?_
      rw [h path]

/-! ## Names without dots -/

theorem mem_pathFields_of_mem_chainOf {t : DynamicType} {path m : String}
    (h : m ∈ t.chainOf path) : m ∈ pathFields path := by
  cases hfields : pathFields path with
  | nil =>
    rw [chainOf, pathTokens_eq, hfields] at h
    cases h
  | cons typeName ms =>
    rw [chainOf_of_fields hfields] at h
    split at h
    · have hpre := (prefix_follow_iff.mp (List.prefix_refl (t.follow (dropEmpty ms)))).1
      have hmem : m ∈ dropEmpty ms := hpre.subset h
      have hsub : dropEmpty ms ⊆ ms := by
        unfold dropEmpty
        split
        · exact List.dropLast_subset ms
        · exact List.Subset.refl ms
      exact List.mem_cons_of_mem _ (hsub hmem)
    · cases h

theorem undotted_of_descend_grow {t : DynamicType} {paths chain : List String}
    (h : ((grow t paths).descend chain).isSome = true) : ∀ m ∈ chain, Undotted m := by
  intro m hm
  obtain ⟨path, -, hpre⟩ := (descend_grow t paths (List.ne_nil_of_mem hm)).mp h
  exact undotted_of_mem_pathFields (mem_pathFields_of_mem_chainOf (hpre.subset hm))

/-- Below a root there are members only if the root has the name of the type. -/
theorem typeName_of_descend_grow {t : DynamicType} {paths chain : List String}
    (h : ((grow t paths).descend chain).isSome = true) (hchain : chain ≠ []) :
    (grow t paths).typeName = t.name := by
  obtain ⟨path, hpath, hpre⟩ := (descend_grow t paths hchain).mp h
  refine (typeName_grow t paths).1 ⟨path, hpath, .inr (.inr ?_)⟩
  intro hnil
  rw [hnil, List.prefix_nil] at hpre
  exact hchain hpre

theorem undotted_typeName_grow (t : DynamicType) (paths : List String) :
    Undotted (grow t paths).typeName := by
  by_cases hnames : ∃ path ∈ paths, NamesRoot t path
  · rw [(typeName_grow t paths).1 hnames]
    obtain ⟨path, -, hnamed⟩ := hnames
    apply undotted_of_mem_pathFields (p := path)
    -- a path that names the root has the name for its first piece
    rcases hnamed with h | h | h
    · rw [h]
      exact List.mem_cons_self
    · rw [h]
      exact List.mem_cons_self
    · cases hfields : pathFields path with
      | nil =>
        rw [chainOf, pathTokens_eq, hfields] at h
        exact absurd rfl h
      | cons typeName ms =>
        rw [chainOf_of_fields hfields] at h
        by_cases hname : typeName = t.name
        · rw [hname]
          exact List.mem_cons_self
        · rw [if_neg hname] at h
          exact absurd rfl h
  · rw [(typeName_grow t paths).2 fun path hpath hnamed => hnames ⟨path, hpath, hnamed⟩]
    show '.' ∉ "".toList
    decide

end NavigationNode

end FastDdsSh
