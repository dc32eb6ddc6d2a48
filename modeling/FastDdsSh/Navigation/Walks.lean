import FastDdsSh.Navigation.Trees

/-!
# Three walks along a path

`resolve_discriminator_type` follows declared types and stays where it is at an alias,
`access_member_data` follows the members of the data, aliases resolved, and `fill_root_node` makes
nodes as far as the declared types are structures and unions.  They agree where no alias is on the
way.
-/

namespace FastDdsSh

open DynamicType NavigationNode

namespace NodeStore

def filled (t : DynamicType) (path : String) : NodeStore :=
  fillRootNode [⟨"", "", none, []⟩] 0 t path

end NodeStore

open NodeStore

/-- The walks along the path of a chain end at a declared type, a component and a node with one type
name, the node being that of the chain and having the path for its own. -/
def WalksAgree [Xtypes] (t : DynamicType) (data : Value) (chain : List String) : Prop :=
  let path := NavigationNode.getPath t.name chain
  ∃ resolved u w id n,
    t.resolveDiscriminatorType path = some resolved ∧
    data.component t (memberPath path) = some (u, w) ∧
    (filled t path).descend 0 chain = some id ∧ (filled t path)[id]? = some n ∧
    resolved.name = u.name ∧ n.typeName = u.name ∧ (filled t path).getPath id = some path

/-- The names can be told apart in the path, and no alias is on the way: the declared types lead
along the chain, and the last of them has the name that it has with aliases resolved. -/
structure Walkable (t : DynamicType) (chain : List String) : Prop where
  rootName : Undotted t.name
  undotted : ∀ m ∈ chain, Undotted m
  last : chain.getLast? ≠ some ""
  declared : ∃ u, t.declaredAt chain = some u ∧ u.name = u.resolve.name

/-! ## What each walk gives -/

theorem pathFields_of_walkable {t : DynamicType} {chain : List String} (hroot : Undotted t.name)
    (h : ∀ m ∈ chain, Undotted m) :
    pathFields (NavigationNode.getPath t.name chain) = t.name :: chain := by
  rw [pathFields_getPath t.name h, pathFields_of_undotted hroot]
  rfl

/-- The loop over declared types follows them as long as they are structures and unions. -/
theorem foldlM_resolveStep_of_declaredAt {t u : DynamicType} {chain : List String}
    (h : t.declaredAt chain = some u) : chain.foldlM resolveStep t = some u := by
  induction chain generalizing t with
  | nil => exact h
  | cons m ms ih =>
    obtain ⟨mt, hm, hrest⟩ := Option.bind_eq_some_iff.mp h
    have hstep : resolveStep t m = some mt := by
      rw [resolveStep, isAggregation_of_member hm, if_pos rfl, hm]
    rw [List.foldlM_cons, hstep]
    exact ih hrest

theorem typeAt_of_declaredAt {t u : DynamicType} {chain : List String}
    (h : t.declaredAt chain = some u) : t.typeAt chain = some u.resolve := by
  induction chain generalizing t with
  | nil =>
    cases h
    rfl
  | cons m ms ih =>
    obtain ⟨mt, hm, hrest⟩ := Option.bind_eq_some_iff.mp h
    rw [typeAt, resolve_of_isAggregation (isAggregation_of_member hm), hm]
    exact ih hrest

/-- The root that is filled with one path. -/
theorem filled_spec (t : DynamicType) (path : String) :
    ∃ n, (filled t path).Rooted t 0 n ∧ (NamesRoot t path → n.typeName = t.name) ∧
      (¬ NamesRoot t path → n.typeName = "") ∧ ∀ chain, chain ≠ [] →
        (((filled t path).descend 0 chain).isSome = true ↔ chain <+: t.chainOf path) := by
  obtain ⟨n, hn, -, hnamed, hsame, hchains⟩ :=
    rooted_fillRootNode (StoredTrees.rooted_fresh t) path
  refine ⟨n, hn, hnamed, hsame, ?_⟩
  intro chain hchain
  show ((fillRootNode [⟨"", "", none, []⟩] 0 t path).descend 0 chain).isSome = true ↔ _
  rw [hchains]
  refine or_iff_right ?_
  obtain ⟨m, ms, rfl⟩ := List.exists_cons_of_ne_nil hchain
  exact Bool.false_ne_true

/-- A path that the root is named by begins with the name of the type. -/
theorem undotted_of_namesRoot {t : DynamicType} {path : String} (h : NamesRoot t path) :
    ∃ ms, pathFields path = t.name :: ms ∧ Undotted t.name := by
  have hfields : ∃ ms, pathFields path = t.name :: ms := by
    rcases root_cases t path with ⟨typeName, ms, -, hnames, -⟩ | ⟨ms, hfields, -⟩ |
      ⟨ms, hfields, -⟩
    · exact absurd h hnames
    · exact ⟨ms, hfields⟩
    · exact ⟨ms, hfields⟩
  obtain ⟨ms, hms⟩ := hfields
  refine ⟨ms, hms, undotted_of_mem_pathFields (p := path) ?_⟩
  rw [hms]
  exact List.mem_cons_self

/-! ## When they agree -/

variable [Xtypes]

theorem walksAgree_of_walkable {t : DynamicType} {data : Value} {chain : List String}
    (hdata : t.admits data = true) (h : Walkable t chain) : WalksAgree t data chain := by
  obtain ⟨u, hu, hname⟩ := h.declared
  have hfields := pathFields_of_walkable h.rootName h.undotted
  have hmembers := memberPath_eq_dropEmpty hfields
  rw [dropEmpty_eq_self h.last] at hmembers
  obtain ⟨w, hw⟩ := component_of_typeAt hdata (typeAt_of_declaredAt hu)
  obtain ⟨root, hroot, hnamed, -, hchains⟩ := filled_spec t (NavigationNode.getPath t.name chain)
  -- the three walks, each along the pieces that the path is cut into again
  have hresolve : t.resolveDiscriminatorType (NavigationNode.getPath t.name chain) = some u := by
    rw [resolveDiscriminatorType, hfields]
    exact foldlM_resolveStep_of_declaredAt hu
  have hchainOf := chainOf_of_fields hfields t
  rw [if_pos rfl, dropEmpty_eq_self h.last] at hchainOf
  have hpre : chain <+: t.chainOf (NavigationNode.getPath t.name chain) := by
    rw [hchainOf]
    exact prefix_follow_iff.mpr ⟨List.prefix_refl chain, by rw [hu]; rfl⟩
  rw [← hmembers] at hw
  by_cases hchain : chain = []
  · -- the node is the root
    subst hchain
    cases hu
    have hself : (filled t (NavigationNode.getPath t.name [])).descend 0 [] = some 0 := rfl
    have hroottype : root.typeName = t.name := hnamed (.inl hfields)
    refine ⟨t, _, w, 0, root, hresolve, hw, hself, hroot.root, hname, hroottype.trans hname, ?_⟩
    rw [getPath_of_descend hroot hself, hroottype]
  -- the chain is on the way of the path, and it is labelled with its declared type
  · have hroottype : root.typeName = t.name := by
      apply hnamed
      refine .inr (.inr fun hnil => hchain ?_)
      rw [hnil] at hpre
      exact List.prefix_nil.mp hpre
    obtain ⟨id, hid⟩ := Option.isSome_iff_exists.mp ((hchains chain hchain).mpr hpre)
    obtain ⟨n, hn⟩ : ∃ n, (filled t (NavigationNode.getPath t.name chain))[id]? = some n :=
      ⟨_, List.getElem?_eq_getElem (lt_length_of_descend hroot hid)⟩
    obtain ⟨u', hu', htype⟩ := hroot.labelled chain id n hchain hid hn
    rw [hu] at hu'
    cases hu'
    refine ⟨u, _, w, id, n, hresolve, hw, hid, hn, hname, htype.trans hname, ?_⟩
    rw [getPath_of_descend hroot hid, hroottype]

theorem walkable_of_walksAgree {t : DynamicType} {data : Value} {chain : List String}
    (haggregation : t.isAggregation = true) (h : WalksAgree t data chain) :
    Walkable t chain := by
  obtain ⟨resolved, u, w, id, n, hresolved, hw, hid, hn, hname, htype, hpath⟩ := h
  obtain ⟨root, hroot, hnamed, hunnamed, hchains⟩ :=
    filled_spec t (NavigationNode.getPath t.name chain)
  by_cases hchain : chain = []
  · -- the root has the path for its name
    subst hchain
    refine ⟨?_, by simp, by simp, t, rfl, ?_⟩
    · by_cases hnames : NamesRoot t (NavigationNode.getPath t.name [])
      · obtain ⟨ms, -, hundotted⟩ := undotted_of_namesRoot hnames
        exact hundotted
      · cases hid
        have hself : (filled t (NavigationNode.getPath t.name [])).descend 0 [] = some 0 := rfl
        rw [getPath_of_descend hroot hself, hunnamed hnames, Option.some_inj] at hpath
        have hempty : "" = t.name := hpath
        rw [← hempty]
        show '.' ∉ "".toList
        decide
    · rw [resolve_of_isAggregation haggregation]
  -- a node at the chain is one that the path has made, so its pieces are those of the chain
  · have hpre := (hchains chain hchain).mp (by rw [hid]; rfl)
    have hnames : NamesRoot t (NavigationNode.getPath t.name chain) := by
      refine .inr (.inr fun hnil => hchain ?_)
      rw [hnil] at hpre
      exact List.prefix_nil.mp hpre
    obtain ⟨-, -, hundotted⟩ := undotted_of_namesRoot hnames
    have hmembers : ∀ m ∈ chain, Undotted m := fun m hm =>
      undotted_of_mem_pathFields (mem_pathFields_of_mem_chainOf (hpre.subset hm))
    have hfields := pathFields_of_walkable hundotted hmembers
    rw [chainOf_of_fields hfields, if_pos rfl] at hpre
    obtain ⟨hpieces, hdeclared⟩ := prefix_follow_iff.mp hpre
    obtain ⟨v, hv⟩ := Option.isSome_iff_exists.mp hdeclared
    -- no piece has been dropped
    have hlast : chain.getLast? ≠ some "" := by
      intro hlast
      unfold dropEmpty at hpieces
      rw [if_pos hlast] at hpieces
      have hle := hpieces.length_le
      have hpos : 0 < chain.length := List.length_pos_of_ne_nil hchain
      rw [List.length_dropLast] at hle
      omega
    refine ⟨hundotted, hmembers, hlast, v, hv, ?_⟩
    obtain ⟨v', hv', hlabel⟩ := hroot.labelled chain id n hchain hid hn
    rw [hv] at hv'
    cases hv'
    -- the component's type is the declared one, aliases resolved, and has the node's type name
    have htypeAt := Value.typeAt_of_component hw
    rw [memberPath_eq_dropEmpty hfields, dropEmpty_eq_self hlast, typeAt_of_declaredAt hv,
      Option.some_inj] at htypeAt
    rw [htypeAt, ← hlabel, htype]

/-- The three walks along a path of a structure or union agree exactly if its names have no dots,
the last is not empty, no member before the last is declared through an alias, and the last not
through one with another name. -/
theorem walksAgree_iff {t : DynamicType} {data : Value} {chain : List String}
    (haggregation : t.isAggregation = true) (hdata : t.admits data = true) :
    WalksAgree t data chain ↔ Walkable t chain :=
  ⟨walkable_of_walksAgree haggregation, walksAgree_of_walkable hdata⟩

/-! ## Examples -/

omit [Xtypes]

def innerType : DynamicType := .structType "Inner" [("x", .leafType "int32_t" .int32)]

def outerType (aliased : Bool) : DynamicType :=
  .structType "Outer"
    [("in", if aliased then .aliasType "InnerAlias" innerType else innerType)]

def outerValue : Value :=
  .struct [("in", .struct [("x", .leaf (.integral 3))])]

theorem walkable_outerType : Walkable (outerType false) ["in", "x"] := by
  refine ⟨?_, ?_, by decide, _, rfl, rfl⟩
  · show '.' ∉ "Outer".toList
    decide
  · show ∀ m ∈ ["in", "x"], '.' ∉ m.toList
    decide

theorem walksAgree_outerType :
    @WalksAgree firstLabelXtypes (outerType false) outerValue ["in", "x"] :=
  (@walksAgree_iff firstLabelXtypes (outerType false) outerValue ["in", "x"] rfl (by decide)).mpr
    walkable_outerType

/-- Through the alias the data has a component, but the declared types lead no further. -/
theorem not_walksAgree_outerType :
    (outerType true).isAggregation = true ∧ (outerType true).admits outerValue = true ∧
      ((outerType true).typeAt ["in", "x"]).map DynamicType.name = some "int32_t" ∧
      ((outerType true).resolveDiscriminatorType "Outer.in.x").map DynamicType.name =
        some "InnerAlias" ∧
      ¬ @WalksAgree firstLabelXtypes (outerType true) outerValue ["in", "x"] := by
  refine ⟨rfl, by decide, rfl, by decide +kernel, ?_⟩
  intro h
  obtain ⟨u, hu, -⟩ := (@walkable_of_walksAgree firstLabelXtypes _ _ _ rfl h).declared
  cases hu

end FastDdsSh
