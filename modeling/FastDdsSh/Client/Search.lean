import FastDdsSh.Navigation.Chains
import FastDdsSh.Client.Dispatch

/-!
# What a search of a type's tree finds

`get_discriminator` on a value and the tree grown by `add_member` calls for its type: the first node
that is present and of a type in the list, or none, and the way back to its component along the path
of the node.
-/

namespace FastDdsSh

namespace Client

open NavigationNode

variable {S Cb : Type}

/-! ## The trees after calls -/

def addTree (memberTree : KeyedStore String NavigationNode) (call : DynamicType × String) :
    KeyedStore String NavigationNode :=
  memberTree.set call.1.name
    (((memberTree call.1.name).getD .fresh).fillRootNode call.1 call.2)

theorem memberTree_foldl_addMember (calls : List (DynamicType × String)) (c : Client S Cb) :
    (calls.foldl (fun c call => c.addMember call.1 call.2) c).memberTree =
      calls.foldl addTree c.memberTree := by
  -- the other tables of the client take no part in `add_member`
  induction calls generalizing c with
  | nil => rfl
  | cons call calls ih => exact ih (c.addMember call.1 call.2)

def pathsFor (name : String) (calls : List (DynamicType × String)) : List String :=
  (calls.filter fun call => call.1.name = name).map Prod.snd

theorem pathsFor_concat (name : String) (calls : List (DynamicType × String))
    (call : DynamicType × String) :
    pathsFor name (calls ++ [call]) =
      if call.1.name = name then pathsFor name calls ++ [call.2] else pathsFor name calls := by
  unfold pathsFor
  by_cases hname : call.1.name = name
  · rw [if_pos hname]
    simp [List.filter_append, hname]
  · rw [if_neg hname]
    simp [List.filter_append, hname]

/-- Where calls for a name are for one type, its tree is grown from their paths. -/
theorem addTree_apply {t : DynamicType} {name : String} {calls : List (DynamicType × String)}
    (h : ∀ call ∈ calls, call.1.name = name → call.1 = t) :
    calls.foldl addTree .empty name =
      if pathsFor name calls = [] then none else some (grow t (pathsFor name calls)) := by
  -- from the last call on; a call for another name leaves the tree alone
  induction calls using List.reverseRecOn with
  | nil => rfl
  | append_singleton calls call ih =>
    have hcalls := ih fun call' hcall' => h call' (List.mem_append_left _ hcall')
    rw [List.foldl_append, List.foldl_cons, List.foldl_nil, addTree, pathsFor_concat]
    by_cases hname : call.1.name = name
    · have ht : call.1 = t := h call (by simp) hname
      have hlast : pathsFor name calls ++ [call.2] ≠ [] := by simp
      rw [hname, KeyedStore.set_self, hcalls, if_pos rfl, if_neg hlast, grow_append, ht]
      by_cases hnil : pathsFor name calls = []
      · rw [if_pos hnil, hnil]
        rfl
      · rw [if_neg hnil]
        rfl
    · rw [KeyedStore.set_ne _ _ (Ne.symm hname), hcalls, if_neg hname]

def addMembers (t : DynamicType) (paths : List String) : Client S Cb :=
  paths.foldl (fun c path => c.addMember t path) initial

theorem memberTree_addMembers (t : DynamicType) (paths : List String) (name : String) :
    (addMembers t paths : Client S Cb).memberTree name =
      if name = t.name ∧ paths ≠ [] then some (grow t paths) else none := by
  have hcalls : (addMembers t paths : Client S Cb).memberTree =
      (paths.map fun path => (t, path)).foldl addTree .empty := by
    have hfold := memberTree_foldl_addMember (paths.map fun path => (t, path))
      (initial : Client S Cb)
    rw [List.foldl_map] at hfold
    exact hfold
  rw [hcalls, addTree_apply (t := t) (by simp)]
  have hpaths : pathsFor name (paths.map fun path => (t, path)) =
      if t.name = name then paths else [] := by
    unfold pathsFor
    by_cases hname : t.name = name <;> simp [hname, List.filter_map]
  rw [hpaths]
  by_cases hname : t.name = name
  · rw [if_pos hname]
    simp [hname]
  · rw [if_neg hname, if_pos rfl, if_neg fun h => hname h.1.symm]

variable [Xtypes]

/-- The search of the tree for a value finds the first node that is present and of a type in the
list, whose path leads to its component without a change to the value, and null if there is none. -/
structure FindsActive (memberTree : KeyedStore String NavigationNode) (t : DynamicType)
    (root : NavigationNode) (v : Value) (memberTypes : List String) : Prop where
  found : (∃ y, root.Visited t v y ∧ y.dataName ∈ memberTypes) →
    ∃ x n, root.First memberTypes t v x ∧
      getDiscriminator memberTree t.resolve v memberTypes = some n ∧
      n.path = getPath root.typeName x.chain ∧ n.typeName = x.typeName ∧
      v.component t (memberPath n.path) = v.component t x.chain ∧
      v.accessed t (memberPath n.path) = some v
  null : (∀ y, root.Visited t v y → y.dataName ∉ memberTypes) →
    getDiscriminator memberTree t.resolve v memberTypes = none

/-- The tree is kept under the name that the data's type has, and a node whose member has the empty
name, which ends no path, comes after another one for data of a type with the same name. -/
structure Findable (t : DynamicType) (root : NavigationNode) (v : Value) : Prop where
  name : t.resolve.name = t.name
  member : ∀ x, root.Visited t v x → x.chain.getLast? = some "" →
    ∃ y, root.Visited t v y ∧ y.chain < x.chain ∧ y.dataName = x.dataName

omit [Xtypes] in
theorem getPath_fields {t : DynamicType} {paths chain : List String}
    (h : ((grow t paths).descend chain).isSome = true) :
    pathFields (getPath (grow t paths).typeName chain) = (grow t paths).typeName :: chain := by
  rw [pathFields_getPath _ (undotted_of_descend_grow h),
    pathFields_of_undotted (undotted_typeName_grow t paths)]
  rfl

theorem visited_resolve {n : NavigationNode} {t : DynamicType} {v : Value} {x : Visit} :
    n.Visited t.resolve v x ↔ n.Visited t v x := by
  unfold Visited
  simp only [component_resolve]

theorem first_resolve {n : NavigationNode} {t : DynamicType} {v : Value} {memberTypes : List String}
    {x : Visit} : n.First memberTypes t.resolve v x ↔ n.First memberTypes t v x := by
  constructor
  · intro h
    exact ⟨visited_resolve.mp h.visited, h.isOf, fun y hy => h.least y (visited_resolve.mpr hy)⟩
  · intro h
    exact ⟨visited_resolve.mpr h.visited, h.isOf, fun y hy => h.least y (visited_resolve.mp hy)⟩

section Trees

variable {t : DynamicType} {paths : List String} {v : Value}

omit [Xtypes] in
/-- The search of the root for the value. -/
theorem getDiscriminator_grow {memberTree : KeyedStore String NavigationNode}
    (hroot : memberTree t.resolve.name = some (grow t paths)) (memberTypes : List String) :
    getDiscriminator memberTree t.resolve v memberTypes =
      ((grow t paths).discriminator memberTypes t.resolve v).map fun found =>
        ⟨getPath (grow t paths).typeName found.1, found.2⟩ := by
  unfold getDiscriminator
  rw [hroot]

theorem findsActive_of_findable {memberTree : KeyedStore String NavigationNode}
    (hroot : memberTree t.resolve.name = some (grow t paths)) (hv : t.admits v = true)
    (h : Findable t (grow t paths) v) (memberTypes : List String) :
    FindsActive memberTree t (grow t paths) v memberTypes := by
  have hsorted := sorted_grow t paths
  rw [← DynamicType.admits_resolve] at hv
  -- the search of a tree, as it is characterised for any tree whose members are in order
  have hnone := discriminator_eq_none_iff hsorted hv memberTypes
  have hsome := discriminator_eq_some_iff hsorted hv memberTypes
  refine ⟨?_, ?_⟩
  · rintro ⟨y, hy, hmem⟩
    cases hfound : (grow t paths).discriminator memberTypes t.resolve v with
    | none => exact absurd hmem (hnone.mp hfound y (visited_resolve.mpr hy))
    | some found =>
      obtain ⟨x, hx, rfl⟩ := (hsome found).mp hfound
      rw [first_resolve] at hx
      have hselected := getDiscriminator_grow (v := v) hroot memberTypes
      rw [hfound, Option.map_some] at hselected
      obtain ⟨n', u, w, hdescend, hpresent, hcomponent, -⟩ := hx.visited
      -- a chain that ends in the empty name is not the first
      have hlast : x.chain.getLast? ≠ some "" := by
        intro hlast
        obtain ⟨z, hz, hlt, hname⟩ := h.member x hx.visited hlast
        exact hx.least z hz (by rw [hname]; exact hx.isOf) hlt
      have hpath : memberPath (getPath (grow t paths).typeName x.chain) = x.chain := by
        rw [memberPath_eq_dropEmpty (getPath_fields (by rw [hdescend]; rfl)),
          dropEmpty_eq_self hlast]
      refine ⟨x, _, hx, hselected, rfl, rfl, ?_, ?_⟩
      · show v.component t (memberPath (getPath (grow t paths).typeName x.chain)) = _
        rw [hpath]
      · show v.accessed t (memberPath (getPath (grow t paths).typeName x.chain)) = _
        rw [hpath]
        exact DynamicType.accessed_of_present hpresent hcomponent
  · intro hnever
    rw [getDiscriminator_grow hroot, hnone.mpr]
    · rfl
    · intro y hy
      exact hnever y (visited_resolve.mp hy)

/-- A component is not the one it is a member of. -/
theorem component_dropLast_ne {u : DynamicType} {w : Value} {chain : List String} {m : String}
    (hlast : chain.getLast? = some m) (h : v.component t chain = some (u, w)) :
    v.component t chain.dropLast ≠ some (u, w) := by
  intro hshort
  have hchain : chain.dropLast ++ [m] = chain := List.dropLast_append_getLast? m hlast
  have hlong := Value.typeAt_of_component h
  rw [← hchain, DynamicType.typeAt_append, Value.typeAt_of_component hshort,
    Option.bind_some] at hlong
  -- a type is deeper than what its members lead to
  have hdepth := DynamicType.depth_of_typeAt hlong
  rw [List.length_singleton] at hdepth
  omega

theorem findable_of_findsActive
    (h : ∀ memberTypes, FindsActive (addMembers t paths : Client S Cb).memberTree t (grow t paths)
      v memberTypes) : Findable t (grow t paths) v := by
  have hname : t.resolve.name = t.name := by
    by_contra hne
    -- without a tree for the data's type a fresh node is returned
    have hnone : (addMembers t paths : Client S Cb).memberTree t.resolve.name = none := by
      rw [memberTree_addMembers, if_neg fun h => hne h.1]
    have hnull := (h []).null fun y _ => List.not_mem_nil
    unfold getDiscriminator at hnull
    rw [hnone] at hnull
    cases hnull
  refine ⟨hname, ?_⟩
  intro x hx hlast
  -- otherwise `x` would be found by the name of its own type, and lose its last member
  by_contra hfirst
  obtain ⟨x', n, hx', -, hpath, -, hcomponent, -⟩ :=
    (h [x.dataName]).found ⟨x, hx, List.mem_singleton_self _⟩
  have hname' : x'.dataName = x.dataName := List.mem_singleton.mp hx'.isOf
  -- the node that is found is the one at the chain
  have hchain : x'.chain = x.chain := by
    rcases lt_trichotomy x'.chain x.chain with hlt | heq | hgt
    · exact absurd ⟨x', hx'.visited, hlt, hname'⟩ hfirst
    · exact heq
    · exact absurd hgt (hx'.least x hx (List.mem_singleton_self _))
  obtain ⟨n', u, w, hdescend, -, hat, -⟩ := hx'.visited
  have hfields : pathFields (getPath (grow t paths).typeName x'.chain) =
      (grow t paths).typeName :: x'.chain := getPath_fields (by rw [hdescend]; rfl)
  rw [hpath, memberPath_eq_dropEmpty hfields, hat] at hcomponent
  have hdrop : dropEmpty x'.chain = x'.chain.dropLast := if_pos (by rw [hchain]; exact hlast)
  rw [hdrop] at hcomponent
  exact component_dropLast_ne (by rw [hchain]; exact hlast) hat hcomponent

/-- After any calls for a type, the search of its tree for a value finds what is to be found, for
whatever list of names, exactly if the type is not an alias with a name of its own and no member
with the empty name is in the way. -/
theorem findsActive_iff (t : DynamicType) (path : String) (paths : List String) {v : Value}
    (hv : t.admits v = true) :
    (∀ memberTypes, FindsActive (addMembers t (path :: paths) : Client S Cb).memberTree t
      (grow t (path :: paths)) v memberTypes) ↔ Findable t (grow t (path :: paths)) v := by
  constructor
  · exact findable_of_findsActive
  · intro h memberTypes
    have hroot : (addMembers t (path :: paths) : Client S Cb).memberTree t.resolve.name =
        some (grow t (path :: paths)) := by
      rw [memberTree_addMembers, if_pos ⟨h.name, List.cons_ne_nil path paths⟩]
    exact findsActive_of_findable hroot hv h memberTypes

end Trees

/-! ## Examples -/

omit [Xtypes]

def moveType : DynamicType := .structType "Move" [("x", .leafType "int32_t" .int32)]

def orderType : DynamicType :=
  .structType "Order" [("what", .unionType "What" (.leafType "int32_t" .int32)
    [("move", moveType), ("stop", .structType "Stop" [("now", .leafType "bool" .boolean)])]
    [⟨[1], false⟩, ⟨[2], false⟩])]

def orderValue : Value :=
  .struct [("what", .union 1 "move" (.struct [("x", .leaf (.integral 3))]))]

/-- No member of the tree has the empty name. -/
theorem findable_orderType :
    @Findable firstLabelXtypes orderType
      (grow orderType ["Order.what.stop", "Order.what.move"]) orderValue := by
  refine @Findable.mk firstLabelXtypes _ _ _ rfl ?_
  intro x hx hlast
  obtain ⟨n, u, w, hdescend, -⟩ := hx
  have hchain : x.chain ≠ [] := by
    intro hnil
    rw [hnil] at hlast
    cases hlast
  obtain ⟨path, hpath, hprefix⟩ := (descend_grow _ _ hchain).mp (by rw [hdescend]; rfl)
  have hempty : "" ∈ orderType.chainOf path := hprefix.subset (List.mem_of_getLast? hlast)
  have hnamed : ∀ p ∈ ["Order.what.stop", "Order.what.move"], "" ∉ orderType.chainOf p := by
    decide +kernel
  exact absurd hempty (hnamed path hpath)

theorem findsActive_orderType :
    @FindsActive firstLabelXtypes
      (addMembers orderType ["Order.what.stop", "Order.what.move"] : Client Nat Nat).memberTree
      orderType (grow orderType ["Order.what.stop", "Order.what.move"]) orderValue ["Move"] :=
  (@findsActive_iff Nat Nat firstLabelXtypes orderType "Order.what.stop" ["Order.what.move"]
    orderValue (by decide)).mpr findable_orderType ["Move"]

/-- A request type that is an alias: the tree is kept under the alias, and the search goes to the
name that the data's type has. -/
theorem not_findsActive_aliasType :
    (DynamicType.aliasType "MoveAlias" moveType).admits (.struct [("x", .leaf (.integral 3))]) =
        true ∧
      (addMembers (.aliasType "MoveAlias" moveType) ["MoveAlias"] : Client Nat Nat).memberTree
        "MoveAlias" ≠ none ∧
      getDiscriminator
        (addMembers (.aliasType "MoveAlias" moveType) ["MoveAlias"] : Client Nat Nat).memberTree
        moveType (.struct [("x", .leaf (.integral 3))]) ["Stop"] = some ⟨"Move", "Move"⟩ ∧
      ¬ @FindsActive firstLabelXtypes
        (addMembers (.aliasType "MoveAlias" moveType) ["MoveAlias"] : Client Nat Nat).memberTree
        (.aliasType "MoveAlias" moveType)
        (grow (.aliasType "MoveAlias" moveType) ["MoveAlias"])
        (.struct [("x", .leaf (.integral 3))]) ["Stop"] := by
  have hreturned : getDiscriminator
      (addMembers (.aliasType "MoveAlias" moveType) ["MoveAlias"] : Client Nat Nat).memberTree
      moveType (.struct [("x", .leaf (.integral 3))]) ["Stop"] = some ⟨"Move", "Move"⟩ := by
    decide
  refine ⟨by decide, by decide, hreturned, ?_⟩
  intro h
  have hroot : grow (.aliasType "MoveAlias" moveType) ["MoveAlias"] = .node "" "MoveAlias" [] := by
    rfl
  have hnull := @FindsActive.null firstLabelXtypes _ _ _ _ _ h
  rw [hroot] at hnull
  -- the root is the only node, and its data is a `Move`
  have hnone := hnull (by
    intro y hy
    obtain ⟨n, u, w, hdescend, -, hcomponent, -, hdata⟩ := hy
    cases hchain : y.chain with
    | nil =>
      rw [hchain] at hcomponent
      cases hcomponent
      rw [hdata]
      decide
    | cons m ms =>
      rw [hchain] at hdescend
      cases hdescend)
  change getDiscriminator
    (addMembers (.aliasType "MoveAlias" moveType) ["MoveAlias"] : Client Nat Nat).memberTree
    moveType (.struct [("x", .leaf (.integral 3))]) ["Stop"] = none at hnone
  rw [hreturned] at hnone
  cases hnone

end Client

end FastDdsSh
