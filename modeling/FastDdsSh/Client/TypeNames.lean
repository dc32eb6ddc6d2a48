import FastDdsSh.Client
import FastDdsSh.Navigation.Chains

/-!
# Type names by path

`get_type` looks a path up in the navigation trees, as `get_path` writes it.  It stops one member
early: what it gives for a path is the type name at the path without its last member.
-/

namespace FastDdsSh

namespace NavigationNode

def getTypeFrom : NavigationNode → List String → String
  -- the path is empty, or there is no dot in it
  | n, [] => n.typeName
  | n, [_] => n.typeName
  | n, m :: ms =>
      match n.memberNode.lookup m with
      | none => ""
      | some child =>
          -- no dot in what is left
          if ms.length = 1 then child.typeName else child.getTypeFrom ms

def getType (mapNodes : KeyedStore String NavigationNode) (fullPath : String) : String :=
  match pathFields fullPath with
  | [] => fullPath
  | [root] =>
      match mapNodes root with
      | some n => n.typeName
      | none => fullPath
  | root :: ms =>
      match mapNodes root with
      | some n => n.getTypeFrom ms
      | none => ""

/-! ## What the path leads to -/

/-- The last member of the path is not looked at. -/
theorem getTypeFrom_eq (n : NavigationNode) (ms : List String) :
    n.getTypeFrom ms = ((n.descend ms.dropLast).map typeName).getD "" := by
  induction ms generalizing n with
  | nil => rfl
  | cons m ms ih =>
    cases ms with
    | nil => rfl
    | cons k ks =>
      rw [getTypeFrom, List.dropLast_cons_cons, descend_cons]
      cases n.memberNode.lookup m with
      | none => rfl
      | some child =>
        dsimp only
        rw [Option.bind_some, ← ih child]
        split
        · -- the remaining path is a member of the child, whose own name is given
          rename_i hone
          obtain rfl : ks = [] := List.length_eq_zero_iff.mp (Nat.succ.inj hone)
          rfl
        · rfl
      · intro hnil
        cases hnil

theorem getType_of_fields {mapNodes : KeyedStore String NavigationNode} {path name : String}
    {ms : List String} {root : NavigationNode} (hfields : pathFields path = name :: ms)
    (hroot : mapNodes name = some root) :
    getType mapNodes path = ((root.descend ms.dropLast).map typeName).getD "" := by
  rw [getType, hfields]
  cases ms with
  | nil =>
    dsimp only
    rw [hroot]
    rfl
  | cons m ms =>
    dsimp only
    rw [hroot]
    exact getTypeFrom_eq root (m :: ms)

end NavigationNode

namespace Client

open KeyedStore NavigationNode

variable {S Cb : Type}

def addMemberCalls (c : Client S Cb) (calls : List (DynamicType × String)) : Client S Cb :=
  calls.foldl (fun c call => c.addMember call.1 call.2) c

/-! ## The trees -/

/-- A root is named as its key, and paths can be made of the names; where an error has left it
without a name, it has no members. -/
structure RootedAt (name : String) (root : NavigationNode) : Prop where
  keys : root.Every fun keys => ∀ k ∈ keys, Undotted k
  named : (root.typeName = name ∧ Undotted name) ∨ (root.typeName = "" ∧ root.memberNode = [])

theorem rootedAt_fresh (name : String) : RootedAt name fresh where
  keys := every_fresh (List.forall_mem_nil _)
  named := .inr ⟨rfl, rfl⟩

theorem RootedAt.fillRootNode {t : DynamicType} {root : NavigationNode}
    (h : RootedAt t.name root) (path : String) :
    RootedAt t.name (root.fillRootNode t path) where
  keys := by
    refine every_fillRootNode (List.forall_mem_nil _) ?_ t h.keys
    intro m hm keys hkeys k hk
    rcases mem_insertKey.mp hk with rfl | hk
    · exact undotted_of_mem_pathFields (List.mem_of_mem_drop hm)
    · exact hkeys k hk
  named := by
    rcases fillRootNode_spec root t path with ⟨hsame, -⟩ | ⟨hnames, ms, -, hfilled⟩
    · rw [hsame]
      exact h.named
    · rw [hfilled]
      refine .inl ⟨rfl, ?_⟩
      apply undotted_of_mem_pathFields (p := path)
      -- whatever the path is, its first piece is the name
      rcases hnames with hfields | hfields | hchain
      · rw [hfields]
        exact List.mem_cons_self
      · rw [hfields]
        exact List.mem_cons_self
      · obtain ⟨typeName, rest, hfields⟩ := List.exists_cons_of_ne_nil (pathFields_ne_nil path)
        rw [chainOf_of_fields hfields] at hchain
        by_cases hname : typeName = t.name
        · rw [hfields, hname]
          exact List.mem_cons_self
        · rw [if_neg hname] at hchain
          exact absurd rfl hchain

theorem rootedAt_addMember {c : Client S Cb}
    (h : ∀ name root, c.memberTree name = some root → RootedAt name root) (t : DynamicType)
    (path : String) :
    ∀ name root, (c.addMember t path).memberTree name = some root → RootedAt name root := by
  intro name root hroot
  have hset : c.memberTree.set t.name
      (((c.memberTree t.name).getD .fresh).fillRootNode t path) name = some root := hroot
  by_cases hname : name = t.name
  · rw [hname, set_self] at hset
    cases hset
    rw [hname]
    apply RootedAt.fillRootNode
    cases hold : c.memberTree t.name with
    | none => exact rootedAt_fresh t.name
    | some old => exact h t.name old hold
  · rw [set_ne _ _ hname] at hset
    exact h name root hset

theorem rootedAt_addMemberCalls (calls : List (DynamicType × String)) :
    ∀ name root, ((initial : Client S Cb).addMemberCalls calls).memberTree name = some root →
      RootedAt name root := by
  induction calls using List.reverseRecOn with
  | nil =>
    intro name root hroot
    cases hroot
  | append_singleton calls call ih =>
    unfold addMemberCalls at ih ⊢
    rw [List.foldl_append]
    exact rootedAt_addMember ih call.1 call.2

/-- The members of a chain in the tree are names that paths can be made of. -/
theorem RootedAt.undotted {name : String} {root n : NavigationNode} {chain : List String}
    (h : RootedAt name root) (hn : root.descend chain = some n) : ∀ m ∈ chain, Undotted m := by
  intro m hm
  obtain ⟨keys, hkeys, hmem⟩ := mem_of_descend h.keys hn hm
  exact hkeys m hmem

/-- `get_type` of the path of a node gives the type name of the node it is a member of. -/
theorem getType_getPath {trees : KeyedStore String NavigationNode} {name : String}
    {root n : NavigationNode} {chain : List String}
    (htrees : ∀ name root, trees name = some root → RootedAt name root)
    (hroot : trees name = some root) (hn : root.descend chain = some n) :
    getType trees (getPath root.typeName chain) =
      ((root.descend chain.dropLast).map typeName).getD "" := by
  rcases (htrees name root hroot).named with ⟨hname, hundotted⟩ | ⟨hname, hnone⟩
  · have hfields := pathFields_getPath root.typeName ((htrees name root hroot).undotted hn)
    rw [hname, pathFields_of_undotted hundotted] at hfields
    rw [hname]
    exact getType_of_fields hfields hroot
  · -- a root without a name, whose path is empty
    have hchain : chain = [] := by
      cases chain with
      | nil => rfl
      | cons m ms =>
        rw [descend_cons, hnone] at hn
        cases hn
    subst hchain
    have hfields : pathFields "" = [""] := by decide
    show getType trees root.typeName = root.typeName
    rw [hname, getType, hfields]
    dsimp only
    cases hempty : trees "" with
    | none => rfl
    | some other =>
      rcases (htrees "" other hempty).named with h | h
      · exact h.1
      · exact h.1

/-- For the path of a node `get_type` gives the node's type name exactly if the node is a root or
has the type name of the node it is a member of.  For a path that leads to no node of a tree it
gives the empty string exactly if the path without its last member leads to no node either, or to
one without a name. -/
theorem getType_iff (calls : List (DynamicType × String)) {name : String} {root : NavigationNode}
    (hroot : ((initial : Client S Cb).addMemberCalls calls).memberTree name = some root) :
    let trees := ((initial : Client S Cb).addMemberCalls calls).memberTree
    (∀ chain n, root.descend chain = some n →
      (getType trees (getPath root.typeName chain) = n.typeName ↔
        chain = [] ∨ ∃ parent, root.descend chain.dropLast = some parent ∧
          parent.typeName = n.typeName)) ∧
    ∀ path chain, pathFields path = name :: chain → root.descend chain = none →
      (getType trees path = "" ↔
        ∀ parent, root.descend chain.dropLast = some parent → parent.typeName = "") := by
  intro trees
  refine ⟨fun chain n hn => ?_, fun path chain hfields hnone => ?_⟩
  · rw [getType_getPath (rootedAt_addMemberCalls calls) hroot hn]
    rcases chain.eq_nil_or_concat with rfl | ⟨ms, m, rfl⟩
    · have hsame : root = n := Option.some.inj hn
      exact iff_of_true (congrArg typeName hsame) (.inl rfl)
    · rw [List.concat_eq_append] at hn ⊢
      rw [descend_concat] at hn
      obtain ⟨parent, hparent, -⟩ := Option.bind_eq_some_iff.mp hn
      rw [List.dropLast_concat, hparent]
      simp
  · rw [getType_of_fields hfields hroot]
    cases root.descend chain.dropLast with
    | none => simp
    | some parent => simp

def nestedPair : DynamicType :=
  .structType "Pair" [("inner", .structType "Inner" [("x", .leafType "int32_t" .int32)])]

theorem getType_iff_nestedPair :
    let trees := ((initial : Client PUnit PUnit).addMemberCalls
      [(nestedPair, "Pair.inner")]).memberTree
    ∃ root, trees "Pair" = some root ∧ ∀ n, root.descend ["inner"] = some n →
      (getType trees (getPath root.typeName ["inner"]) = n.typeName ↔
        root.typeName = n.typeName) := by
  refine ⟨node "" "Pair" [("inner", node "inner" "Inner" [])], rfl, fun n hn => ?_⟩
  have hroot : ((initial : Client PUnit PUnit).addMemberCalls
      [(nestedPair, "Pair.inner")]).memberTree "Pair" =
        some (node "" "Pair" [("inner", node "inner" "Inner" [])]) := rfl
  have hiff := (getType_iff [(nestedPair, "Pair.inner")] hroot).1 ["inner"] n hn
  rw [hiff]
  simp [descend]

/-- The path of a member gives the type name of the structure, and so does that of no member. -/
theorem not_getType_getPath :
    let trees := ((initial : Client PUnit PUnit).addMemberCalls
      [(nestedPair, "Pair.inner")]).memberTree
    ∃ root n, trees "Pair" = some root ∧ root.descend ["inner"] = some n ∧
      getType trees (getPath root.typeName ["inner"]) ≠ n.typeName ∧
      root.descend ["other"] = none ∧ getType trees "Pair.other" ≠ "" := by
  refine ⟨node "" "Pair" [("inner", node "inner" "Inner" [])], node "inner" "Inner" [], ?_, rfl, ?_,
    rfl, ?_⟩
  · rfl
  · decide +kernel
  · decide +kernel

end Client

end FastDdsSh
