import Mathlib.Data.String.Basic
import FastDdsSh.Lib.KeyedStore
import FastDdsSh.DataAccess

/-!
# Navigation trees

A `Client` keeps, for each service type, the tree of the members on its configured paths, and
searches it for the component that a received request is about.  The parent of a node is the node
it is a member of, so `get_path` is a matter of the chain of members that leads to the node.
-/

namespace FastDdsSh

open Lookup

inductive NavigationNode where
  | node (memberName typeName : String) (memberNode : List (String × NavigationNode))
  deriving Repr, BEq

namespace NavigationNode

def memberName : NavigationNode → String
  | node memberName _ _ => memberName

def typeName : NavigationNode → String
  | node _ typeName _ => typeName

def memberNode : NavigationNode → List (String × NavigationNode)
  | node _ _ memberNode => memberNode

def fresh : NavigationNode := node "" "" []

def getPath (rootTypeName : String) (chain : List String) : String :=
  chain.foldl (fun path m => path ++ "." ++ m) rootTypeName

/-! ## Growing a tree -/

def updateMember (m : String) (new : NavigationNode) (f : NavigationNode → NavigationNode) :
    List (String × NavigationNode) → List (String × NavigationNode)
  | [] => [(m, f new)]
  | (n, child) :: rest =>
      -- the entries of a `std::map` are in the order of their keys
      if m < n then (m, f new) :: (n, child) :: rest
      else if m = n then (n, f child) :: rest
      else (n, child) :: updateMember m new f rest

/-- `fill_member_node` for the pieces of the remaining path; nothing is left to do when the
remaining path is empty, that is without pieces or with an empty last one. -/
def fillMemberNode (t : DynamicType) (path : List String) (n : NavigationNode) : NavigationNode :=
  match path with
  | [] => n
  | m :: ms =>
      -- `path.empty()`
      if m = "" ∧ ms = [] then n
      else
        match t.member m with
        -- the type is no aggregation, or has no such member: the path ends here
        | none => n
        | some mt =>
            match n with
            | node memberName typeName children =>
                node memberName typeName
                  -- a node that is there keeps its type name
                  (updateMember m (node m mt.name []) (fillMemberNode mt ms) children)

/-- `fill_root_node`; an error leaves the root as it is, its type name included. -/
def fillRootNode (root : NavigationNode) (t : DynamicType) (fullPath : String) : NavigationNode :=
  match pathFields fullPath with
  | [] => root
  | typeName :: path =>
      -- "a type with different name"
      if typeName ≠ t.name then root
      -- nothing but the name of the type, or a dot after it
      else if path = [] ∨ path = [""] then
        match root with
        | node memberName _ children => node memberName t.name children
      -- an unknown first member leaves the root without its type name
      else if (path.head?.bind t.member).isNone then root
      else
        match fillMemberNode t path root with
        | node memberName _ children => node memberName t.name children

/-! ## Searching a tree -/

def activeMember (t : DynamicType) (v : Value) (m : String) : Option (DynamicType × Value) :=
  match t.resolve, v with
  | .structType _ ms, .struct fields =>
      (ms.lookup m).bind fun mt => (fields.lookup m).map fun w => (mt, w)
  -- no other case than the current one is entered
  | .unionType _ _ ms _, .union _ c w => if c = m then (ms.lookup m).map fun mt => (mt, w) else none
  | _, _ => none

mutual

/-- `get_discriminator` on a node: the chain of members from this node to the one that is found, and
the type name of that one. -/
def discriminator (memberTypes : List String) :
    NavigationNode → DynamicType → Value → Option (List String × String)
  | node _ typeName children, t, v =>
      -- the name is the one of the data's type, the node's own may be an alias
      if t.resolve.name ∈ memberTypes then some ([], typeName)
      else
        match t.resolve, v with
        | .unionType _ _ _ _, .union _ c _ => discriminatorOfCase memberTypes children t v c
        | .structType _ _, .struct _ => discriminatorOfMembers memberTypes children t v
        | _, _ => none

def discriminatorOfCase (memberTypes : List String) :
    List (String × NavigationNode) → DynamicType → Value → String → Option (List String × String)
  | [], _, _, _ => none
  | (m, child) :: rest, t, v, c =>
      if m = c then
        (activeMember t v m).bind fun (mt, w) =>
          (child.discriminator memberTypes mt w).map fun (chain, typeName) => (m :: chain, typeName)
      else discriminatorOfCase memberTypes rest t v c

def discriminatorOfMembers (memberTypes : List String) :
    List (String × NavigationNode) → DynamicType → Value → Option (List String × String)
  | [], _, _ => none
  | (m, child) :: rest, t, v =>
      ((activeMember t v m).bind fun (mt, w) =>
        (child.discriminator memberTypes mt w).map fun (chain, typeName) =>
          (m :: chain, typeName)).or (discriminatorOfMembers memberTypes rest t v)

end

structure Selected where
  path : String
  typeName : String
  deriving DecidableEq, Repr

/-- `get_discriminator`; `none` is the null node.  Without a tree the node is a fresh one that has
the name of the type. -/
def getDiscriminator (memberMap : KeyedStore String NavigationNode) (t : DynamicType) (v : Value)
    (memberTypes : List String) : Option Selected :=
  match memberMap t.name with
  | none => some ⟨t.name, t.name⟩
  | some root =>
      (root.discriminator memberTypes t v).map fun (chain, typeName) =>
        ⟨getPath root.typeName chain, typeName⟩

/-! ## The nodes that are present in a value, in the order of the search -/

/-- A node that is present: its chain of members, its type name, and the name of the data's type. -/
structure Visit where
  chain : List String
  typeName : String
  dataName : String
  deriving DecidableEq, Repr

def Visit.below (m : String) (x : Visit) : Visit :=
  { x with chain := m :: x.chain }

mutual

def visits : NavigationNode → DynamicType → Value → List Visit
  | node _ typeName children, t, v => ⟨[], typeName, t.resolve.name⟩ :: visitsOfMembers children t v

def visitsOfMembers : List (String × NavigationNode) → DynamicType → Value → List Visit
  | [], _, _ => []
  | (m, child) :: rest, t, v =>
      (match activeMember t v m with
        | some (mt, w) => (child.visits mt w).map (Visit.below m)
        | none => []) ++ visitsOfMembers rest t v

end

mutual

def Every (P : List String → Prop) : NavigationNode → Prop
  | node _ _ children => P (children.map Prod.fst) ∧ EveryMember P children

def EveryMember (P : List String → Prop) : List (String × NavigationNode) → Prop
  | [] => True
  | (_, child) :: rest => child.Every P ∧ EveryMember P rest

end

def Sorted (n : NavigationNode) : Prop :=
  n.Every fun keys => keys.Pairwise (· < ·)

/-! ## The search finds the first visit of a given type -/

def Visit.isOf (memberTypes : List String) (x : Visit) : Bool :=
  decide (x.dataName ∈ memberTypes)

def Visit.found (x : Visit) : List String × String := (x.chain, x.typeName)

theorem find?_below (memberTypes : List String) (m : String) (xs : List Visit) :
    ((xs.map (Visit.below m)).find? (Visit.isOf memberTypes)).map Visit.found =
      ((xs.find? (Visit.isOf memberTypes)).map Visit.found).map
        fun (chain, typeName) => (m :: chain, typeName) := by
  have hsame : Visit.isOf memberTypes ∘ Visit.below m = Visit.isOf memberTypes := rfl
  rw [List.find?_map, hsame, Option.map_map, Option.map_map]
  rfl

/-- Nothing is visited below data without members. -/
theorem visitsOfMembers_eq_nil {t : DynamicType} {v : Value}
    (h : ∀ m, activeMember t v m = none) (children : List (String × NavigationNode)) :
    visitsOfMembers children t v = [] := by
  induction children with
  | nil => rw [visitsOfMembers]
  | cons head rest ih =>
    obtain ⟨m, child⟩ := head
    rw [visitsOfMembers, h m, ih]
    rfl

/-- Only the active case of a union is visited. -/
theorem visitsOfMembers_of_not_mem {t : DynamicType} {v : Value} {c : String}
    (h : ∀ m, m ≠ c → activeMember t v m = none) {children : List (String × NavigationNode)}
    (hc : c ∉ children.map Prod.fst) : visitsOfMembers children t v = [] := by
  induction children with
  | nil => rw [visitsOfMembers]
  | cons head rest ih =>
    obtain ⟨m, child⟩ := head
    rw [List.map_cons, List.mem_cons, not_or] at hc
    rw [visitsOfMembers, h m (Ne.symm hc.1), ih hc.2]
    rfl

mutual

theorem discriminator_eq_find? (memberTypes : List String) :
    ∀ (n : NavigationNode) (t : DynamicType) (v : Value), n.Sorted →
      n.discriminator memberTypes t v =
        ((n.visits t v).find? (Visit.isOf memberTypes)).map Visit.found
  | node memberName typeName children, t, v, hsorted => by
    rw [Sorted, Every] at hsorted
    unfold discriminator
    rw [visits, List.find?_cons]
    -- the node itself comes first in both
    by_cases hmem : t.resolve.name ∈ memberTypes
    · have hhit : Visit.isOf memberTypes ⟨[], typeName, t.resolve.name⟩ = true :=
        decide_eq_true hmem
      rw [if_pos hmem, hhit]
      rfl
    · have hmiss : Visit.isOf memberTypes ⟨[], typeName, t.resolve.name⟩ = false :=
        decide_eq_false hmem
      rw [if_neg hmem, hmiss]
      split
      · rename_i c w ht
        -- only the active case has a member to go on with
        refine discriminatorOfCase_eq_find? memberTypes children t _ c hsorted.1 hsorted.2 ?_
        intro m hm
        simp only [activeMember, ht]
        rw [if_neg (Ne.symm hm)]
      · exact discriminatorOfMembers_eq_find? memberTypes children t _ hsorted.2
      · rename_i v _ _ hunion hstruct
        have hnone : ∀ m, activeMember t v m = none := by
          intro m
          unfold activeMember
          split
          · rename_i ht
            exact absurd rfl (hstruct _ _ _ ht)
          · rename_i ht
            exact absurd rfl (hunion _ _ _ _ _ _ _ ht)
          · rfl
        rw [visitsOfMembers_eq_nil hnone]
        rfl

theorem discriminatorOfCase_eq_find? (memberTypes : List String) :
    ∀ (children : List (String × NavigationNode)) (t : DynamicType) (v : Value) (c : String),
      (children.map Prod.fst).Pairwise (· < ·) →
      EveryMember (fun keys => keys.Pairwise (· < ·)) children →
      (∀ m, m ≠ c → activeMember t v m = none) →
      discriminatorOfCase memberTypes children t v c =
        ((visitsOfMembers children t v).find? (Visit.isOf memberTypes)).map Visit.found
  | [], t, v, c, _, _, _ => by
    rw [discriminatorOfCase, visitsOfMembers]
    rfl
  | (m, child) :: rest, t, v, c, hkeys, hevery, hcase => by
    rw [EveryMember] at hevery
    rw [List.map_cons, List.pairwise_cons] at hkeys
    rw [discriminatorOfCase, visitsOfMembers]
    by_cases hm : m = c
    · subst hm
      -- the case has one node, so nothing more is visited after it
      have hrest : m ∉ rest.map Prod.fst := fun hmem => lt_irrefl m (hkeys.1 m hmem)
      rw [if_pos rfl, visitsOfMembers_of_not_mem hcase hrest, List.append_nil]
      cases hactive : activeMember t v m with
      | none => rfl
      | some member =>
        obtain ⟨mt, w⟩ := member
        rw [Option.bind_some, find?_below]
        simp only
        rw [discriminator_eq_find? memberTypes child mt w hevery.1]
    · rw [if_neg hm, hcase m hm, List.nil_append]
      exact discriminatorOfCase_eq_find? memberTypes rest t v c hkeys.2 hevery.2 hcase

theorem discriminatorOfMembers_eq_find? (memberTypes : List String) :
    ∀ (children : List (String × NavigationNode)) (t : DynamicType) (v : Value),
      EveryMember (fun keys => keys.Pairwise (· < ·)) children →
      discriminatorOfMembers memberTypes children t v =
        ((visitsOfMembers children t v).find? (Visit.isOf memberTypes)).map Visit.found
  | [], t, v, _ => by
    rw [discriminatorOfMembers, visitsOfMembers]
    rfl
  | (m, child) :: rest, t, v, hevery => by
    rw [EveryMember] at hevery
    -- the first hit is below this member, or else below the others
    rw [discriminatorOfMembers, visitsOfMembers, List.find?_append,
      discriminatorOfMembers_eq_find? memberTypes rest t v hevery.2]
    cases hactive : activeMember t v m with
    | none => rfl
    | some member =>
      obtain ⟨mt, w⟩ := member
      rw [Option.bind_some]
      simp only
      rw [discriminator_eq_find? memberTypes child mt w hevery.1, ← find?_below]
      cases ((child.visits mt w).map (Visit.below m)).find? (Visit.isOf memberTypes) <;> rfl

end

/-! ## Visits and chains of members -/

variable [Xtypes]

def descend (n : NavigationNode) : List String → Option NavigationNode
  | [] => some n
  | m :: ms => (n.memberNode.lookup m).bind fun child => child.descend ms

/-- What there is to a node that is visited: a chain in the tree, present in the data. -/
def Visited (n : NavigationNode) (t : DynamicType) (v : Value) (x : Visit) : Prop :=
  ∃ n' u w, n.descend x.chain = some n' ∧ v.Present x.chain ∧
    v.component t x.chain = some (u, w) ∧ x.typeName = n'.typeName ∧ x.dataName = u.name

theorem activeMember_iff {t : DynamicType} {v : Value} (hv : t.admits v = true) (m : String)
    (mt : DynamicType) (w : Value) :
    activeMember t v m = some (mt, w) ↔
      t.resolve.member m = some mt ∧ v.Present [m] ∧ v.field mt m = some w := by
  rw [← DynamicType.admits_resolve] at hv
  unfold activeMember
  split
  -- a structure: every member is present
  · rename_i n ms fields ht
    rw [ht]
    constructor
    · intro h
      obtain ⟨mt', hm, hrest⟩ := Option.bind_eq_some_iff.mp h
      obtain ⟨w', hw, heq⟩ := Option.map_eq_some_iff.mp hrest
      obtain ⟨rfl, rfl⟩ := Prod.mk.inj heq
      exact ⟨hm, ⟨_, hw, trivial⟩, hw⟩
    · rintro ⟨hm, -, hw⟩
      have hm : ms.lookup m = some mt := hm
      have hw : fields.lookup m = some w := hw
      rw [hm, hw]
      rfl
  -- a union: the active case is
  · rename_i n d ms cs d' c x ht
    rw [ht]
    constructor
    · intro h
      split at h
      · rename_i hc
        obtain ⟨mt', hm, heq⟩ := Option.map_eq_some_iff.mp h
        cases heq
        exact ⟨hm, ⟨hc, trivial⟩, by rw [Value.field, if_pos hc]⟩
      · cases h
    · rintro ⟨hm, ⟨hc, -⟩, hw⟩
      have hm : ms.lookup m = some mt := hm
      rw [Value.field, if_pos hc] at hw
      rw [if_pos hc, hm, Option.map_some]
      rw [Option.some_inj] at hw
      rw [hw]
  -- anything else has no members
  · rename_i v _ _ hstruct hunion
    refine ⟨fun h => (by cases h), ?_⟩
    rintro ⟨hm, hpresent, -⟩
    exfalso
    unfold DynamicType.member DynamicType.members at hm
    split at hm
    · rename_i ht
      rw [ht] at hv
      cases v with
      | struct fields => exact hstruct _ _ _ ht rfl
      | union | leaf | list | map => cases hv
    · rename_i ht
      rw [ht] at hv
      cases v with
      | union d c w' => exact hunion _ _ _ _ _ _ _ ht rfl
      | struct | leaf | list | map => cases hv
    · cases hm

theorem activeMember_admits {t mt : DynamicType} {v w : Value} {m : String}
    (hv : t.admits v = true) (h : activeMember t v m = some (mt, w)) : mt.admits w = true := by
  obtain ⟨hm, hpresent, hw⟩ := (activeMember_iff hv m mt w).mp h
  exact DynamicType.admits_field hm (by rw [DynamicType.admits_resolve]; exact hv) hpresent hw

theorem visited_nil (n : NavigationNode) (t : DynamicType) (v : Value) :
    n.Visited t v ⟨[], n.typeName, t.resolve.name⟩ :=
  ⟨n, t.resolve, v, rfl, trivial, rfl, rfl, rfl⟩

/-- A visit below a member is a visit of the member's node. -/
theorem visited_cons {n : NavigationNode} {t : DynamicType} {v : Value} (hv : t.admits v = true)
    (m : String) (ms : List String) (typeName dataName : String) :
    n.Visited t v ⟨m :: ms, typeName, dataName⟩ ↔
      ∃ child mt w, n.memberNode.lookup m = some child ∧ activeMember t v m = some (mt, w) ∧
        child.Visited mt w ⟨ms, typeName, dataName⟩ := by
  constructor
  · rintro ⟨n', u, w', hdescend, hpresent, hcomponent, htype, hdata⟩
    obtain ⟨child, hchild, hrest⟩ := Option.bind_eq_some_iff.mp hdescend
    obtain ⟨mt, hm, hcomponent⟩ := Option.bind_eq_some_iff.mp hcomponent
    obtain ⟨w, hw, hcomponent⟩ := Option.bind_eq_some_iff.mp hcomponent
    obtain ⟨hfirst, hbelow⟩ := DynamicType.present_cons hpresent hw
    exact ⟨child, mt, w, hchild, (activeMember_iff hv m mt w).mpr ⟨hm, hfirst, hw⟩,
      n', u, w', hrest, hbelow, hcomponent, htype, hdata⟩
  -- the member is present, and what lies below it was so in the member
  · rintro ⟨child, mt, w, hchild, hactive, n', u, w', hdescend, hpresent, hcomponent, htype, hdata⟩
    obtain ⟨hm, hfirst, hw⟩ := (activeMember_iff hv m mt w).mp hactive
    refine ⟨n', u, w', ?_, ?_, ?_, htype, hdata⟩
    · rw [descend, hchild]
      exact hdescend
    · cases v with
      | struct fields => exact ⟨w, hw, hpresent⟩
      | union d c x =>
        obtain ⟨hc, -⟩ := hfirst
        rw [Value.field, if_pos hc] at hw
        cases hw
        exact ⟨hc, hpresent⟩
      | leaf | list | map => cases hw
    · rw [Value.component, hm, Option.bind_some, hw]
      exact hcomponent

omit [Xtypes] in
theorem mem_visitsOfMembers {children : List (String × NavigationNode)} {t : DynamicType}
    {v : Value} (hkeys : (children.map Prod.fst).Pairwise (· < ·)) (x : Visit) :
    x ∈ visitsOfMembers children t v ↔
      ∃ m child mt w, children.lookup m = some child ∧ activeMember t v m = some (mt, w) ∧
        x ∈ (child.visits mt w).map (Visit.below m) := by
  induction children with
  | nil =>
    rw [visitsOfMembers]
    simp
  | cons head rest ih =>
    obtain ⟨n, c⟩ := head
    rw [List.map_cons, List.pairwise_cons] at hkeys
    rw [visitsOfMembers, List.mem_append, ih hkeys.2]
    constructor
    · rintro (h | ⟨m, child, mt, w, hchild, hrest⟩)
      · cases hactive : activeMember t v n with
        | none =>
          rw [hactive] at h
          cases h
        | some member =>
          obtain ⟨mt, w⟩ := member
          rw [hactive] at h
          exact ⟨n, c, mt, w, List.lookup_cons_self, hactive, h⟩
      · refine ⟨m, child, mt, w, ?_, hrest⟩
        have hmem : m ∈ rest.map Prod.fst := List.mem_map_of_mem (mem_of_lookup hchild)
        rw [lookup_cons_ne (hkeys.1 m hmem).ne']
        exact hchild
    · rintro ⟨m, child, mt, w, hchild, hactive, hx⟩
      -- a key comes once, so the lookup does not stop short of it
      by_cases hmn : m = n
      · rw [hmn, List.lookup_cons_self] at hchild
        cases hchild
        rw [hmn] at hactive hx
        left
        rw [hactive]
        exact hx
      · rw [lookup_cons_ne hmn] at hchild
        exact .inr ⟨m, child, mt, w, hchild, hactive, hx⟩

omit [Xtypes] in
theorem everyMember_of_lookup {P : List String → Prop}
    {children : List (String × NavigationNode)} (h : EveryMember P children) {m : String}
    {child : NavigationNode} (hchild : children.lookup m = some child) : child.Every P := by
  induction children with
  | nil => cases hchild
  | cons head rest ih =>
    obtain ⟨n, c⟩ := head
    rw [EveryMember] at h
    rw [List.lookup_cons] at hchild
    split at hchild
    · cases hchild
      exact h.1
    · exact ih h.2 hchild

/-- The visits are the chains of the tree that are present in the data. -/
theorem mem_visits_iff {n : NavigationNode} {t : DynamicType} {v : Value} (hsorted : n.Sorted)
    (hv : t.admits v = true) (x : Visit) : x ∈ n.visits t v ↔ n.Visited t v x := by
  obtain ⟨chain, typeName, dataName⟩ := x
  -- on the chain, as the tree and the data are gone down together
  induction chain generalizing n t v with
  | nil =>
    obtain ⟨memberName, nodeName, children⟩ := n
    rw [visits, List.mem_cons]
    constructor
    · rintro (h | h)
      · rw [h]
        exact visited_nil (node memberName nodeName children) t v
      · rw [Sorted, Every] at hsorted
        obtain ⟨m, child, mt, w, -, -, hx⟩ := (mem_visitsOfMembers hsorted.1 _).mp h
        obtain ⟨y, -, hy⟩ := List.mem_map.mp hx
        cases congrArg Visit.chain hy
    · rintro ⟨n', u, w, hdescend, -, hcomponent, htype, hdata⟩
      left
      have hnode : node memberName nodeName children = n' := by
        simpa [descend] using hdescend
      have hu : t.resolve = u := by
        simpa [Value.component] using congrArg (Option.map Prod.fst) hcomponent
      rw [← hnode] at htype
      rw [← hu] at hdata
      dsimp only at htype hdata
      rw [htype, hdata]
      rfl
  | cons m ms ih =>
    obtain ⟨memberName, nodeName, children⟩ := n
    rw [Sorted, Every] at hsorted
    rw [visits, List.mem_cons, mem_visitsOfMembers hsorted.1, visited_cons hv]
    constructor
    · rintro (h | ⟨m', child, mt, w, hchild, hactive, hx⟩)
      · cases congrArg Visit.chain h
      · obtain ⟨y, hy, heq⟩ := List.mem_map.mp hx
        obtain ⟨yc, yt, yd⟩ := y
        cases heq
        exact ⟨child, mt, w, hchild, hactive,
          (ih (everyMember_of_lookup hsorted.2 hchild) (activeMember_admits hv hactive)).mp hy⟩
    · rintro ⟨child, mt, w, hchild, hactive, hvisited⟩
      right
      refine ⟨m, child, mt, w, hchild, hactive,
        List.mem_map.mpr ⟨⟨ms, typeName, dataName⟩, ?_, rfl⟩⟩
      exact (ih (everyMember_of_lookup hsorted.2 hchild) (activeMember_admits hv hactive)).mpr
        hvisited

/-! ## The order of the search -/

section Order

omit [Xtypes]

theorem chain_of_mem_visitsOfMembers {children : List (String × NavigationNode)}
    {t : DynamicType} {v : Value} {x : Visit} (h : x ∈ visitsOfMembers children t v) :
    ∃ m ms, m ∈ children.map Prod.fst ∧ x.chain = m :: ms := by
  induction children with
  | nil =>
    rw [visitsOfMembers] at h
    cases h
  | cons head rest ih =>
    obtain ⟨n, c⟩ := head
    rw [visitsOfMembers, List.mem_append] at h
    rcases h with h | h
    · cases hactive : activeMember t v n with
      | none =>
        rw [hactive] at h
        cases h
      | some member =>
        rw [hactive] at h
        obtain ⟨y, -, rfl⟩ := List.mem_map.mp h
        exact ⟨n, y.chain, List.mem_cons_self, rfl⟩
    · obtain ⟨m, ms, hm, hx⟩ := ih h
      exact ⟨m, ms, List.mem_cons_of_mem _ hm, hx⟩

mutual

/-- Nodes are visited in lexicographic order of their chains, a node before those below it. -/
theorem pairwise_visits :
    ∀ (n : NavigationNode) (t : DynamicType) (v : Value), n.Sorted →
      (n.visits t v).Pairwise fun x y => x.chain < y.chain
  | node memberName typeName children, t, v, hsorted => by
    rw [Sorted, Every] at hsorted
    rw [visits, List.pairwise_cons]
    refine ⟨?_, pairwise_visitsOfMembers children t v hsorted.1 hsorted.2⟩
    intro y hy
    obtain ⟨m, ms, -, hchain⟩ := chain_of_mem_visitsOfMembers hy
    rw [hchain]
    apply List.nil_lt_cons

theorem pairwise_visitsOfMembers :
    ∀ (children : List (String × NavigationNode)) (t : DynamicType) (v : Value),
      (children.map Prod.fst).Pairwise (· < ·) →
      EveryMember (fun keys => keys.Pairwise (· < ·)) children →
      (visitsOfMembers children t v).Pairwise fun x y => x.chain < y.chain
  | [], t, v, _, _ => by
    rw [visitsOfMembers]
    exact List.Pairwise.nil
  | (m, child) :: rest, t, v, hkeys, hevery => by
    rw [EveryMember] at hevery
    rw [List.map_cons, List.pairwise_cons] at hkeys
    rw [visitsOfMembers, List.pairwise_append]
    -- below one member the chains begin alike; other members come later by their keys
    refine ⟨?_, pairwise_visitsOfMembers rest t v hkeys.2 hevery.2, ?_⟩
    · cases activeMember t v m with
      | none => exact List.Pairwise.nil
      | some member =>
        obtain ⟨mt, w⟩ := member
        have hchild := pairwise_visits child mt w hevery.1
        show ((child.visits mt w).map (Visit.below m)).Pairwise fun x y => x.chain < y.chain
        rw [List.pairwise_map]
        refine hchild.imp ?_
        intro x y hxy
        exact List.cons_lt_cons_iff.mpr (.inr ⟨rfl, hxy⟩)
    · intro x hx y hy
      obtain ⟨k, ks, hk, hy⟩ := chain_of_mem_visitsOfMembers hy
      cases hactive : activeMember t v m with
      | none =>
        rw [hactive] at hx
        cases hx
      | some member =>
        rw [hactive] at hx
        obtain ⟨z, -, rfl⟩ := List.mem_map.mp hx
        rw [hy]
        exact List.cons_lt_cons_iff.mpr (.inl (hkeys.1 k hk))

end

end Order

/-- A visited node whose data is of one of the types, none of which comes before it. -/
structure First (n : NavigationNode) (memberTypes : List String) (t : DynamicType) (v : Value)
    (x : Visit) : Prop where
  visited : n.Visited t v x
  isOf : x.dataName ∈ memberTypes
  least : ∀ y, n.Visited t v y → y.dataName ∈ memberTypes → ¬ y.chain < x.chain

/-- The search gives the first node that is present and of one of the types. -/
theorem discriminator_eq_some_iff {n : NavigationNode} {t : DynamicType} {v : Value}
    (hsorted : n.Sorted) (hv : t.admits v = true) (memberTypes : List String)
    (found : List String × String) :
    n.discriminator memberTypes t v = some found ↔
      ∃ x, n.First memberTypes t v x ∧ x.found = found := by
  rw [discriminator_eq_find? memberTypes n t v hsorted, Option.map_eq_some_iff]
  refine exists_congr fun x => and_congr_left' ?_
  have hasymm : ∀ x y : Visit, x.chain < y.chain → ¬ y.chain < x.chain :=
    fun _ _ h h' => List.lt_irrefl _ (List.lt_trans h h')
  -- in a list in order the first hit is the least one
  rw [find?_eq_some_iff_least (pairwise_visits n t v hsorted) hasymm]
  constructor
  · rintro ⟨hx, hof, hleast⟩
    refine ⟨(mem_visits_iff hsorted hv x).mp hx, of_decide_eq_true hof, ?_⟩
    intro y hy hyof
    exact hleast y ((mem_visits_iff hsorted hv y).mpr hy) (decide_eq_true hyof)
  · rintro ⟨hx, hof, hleast⟩
    refine ⟨(mem_visits_iff hsorted hv x).mpr hx, decide_eq_true hof, ?_⟩
    intro y hy hyof
    exact hleast y ((mem_visits_iff hsorted hv y).mp hy) (of_decide_eq_true hyof)

/-- The search gives a node whenever one is present that is of one of the types. -/
theorem discriminator_eq_none_iff {n : NavigationNode} {t : DynamicType} {v : Value}
    (hsorted : n.Sorted) (hv : t.admits v = true) (memberTypes : List String) :
    n.discriminator memberTypes t v = none ↔
      ∀ x, n.Visited t v x → x.dataName ∉ memberTypes := by
  rw [discriminator_eq_find? memberTypes n t v hsorted, Option.map_eq_none_iff,
    List.find?_eq_none]
  refine forall_congr' fun x => ?_
  rw [mem_visits_iff hsorted hv]
  refine imp_congr_right fun _ => ?_
  show ¬ decide (x.dataName ∈ memberTypes) = true ↔ _
  rw [decide_eq_true_iff]

/-! ## Trees stay in order -/

omit [Xtypes]

def insertKey (m : String) : List String → List String
  | [] => [m]
  | k :: keys =>
      if m < k then m :: k :: keys else if m = k then k :: keys else k :: insertKey m keys

theorem keys_updateMember (m : String) (new : NavigationNode) (f : NavigationNode → NavigationNode)
    (children : List (String × NavigationNode)) :
    (updateMember m new f children).map Prod.fst = insertKey m (children.map Prod.fst) := by
  induction children with
  | nil => rfl
  | cons head rest ih =>
    obtain ⟨n, child⟩ := head
    rw [updateMember, List.map_cons, insertKey]
    split
    · rfl
    · split
      · rfl
      · rw [List.map_cons, ih]

theorem mem_insertKey {m k : String} {keys : List String} :
    k ∈ insertKey m keys ↔ k = m ∨ k ∈ keys := by
  induction keys with
  | nil => simp [insertKey]
  | cons n keys ih =>
    rw [insertKey]
    split
    · simp
    · split
      · rename_i hm
        simp [hm]
      · rw [List.mem_cons, List.mem_cons, ih]
        tauto

theorem pairwise_insertKey (m : String) {keys : List String} (h : keys.Pairwise (· < ·)) :
    (insertKey m keys).Pairwise (· < ·) := by
  induction keys with
  | nil => exact List.pairwise_singleton _ m
  | cons k keys ih =>
    rw [insertKey]
    rw [List.pairwise_cons] at h
    split
    · rename_i hlt
      refine List.pairwise_cons.mpr ⟨?_, List.pairwise_cons.mpr h⟩
      intro n hn
      rcases List.mem_cons.mp hn with rfl | hn
      · exact hlt
      · exact lt_trans hlt (h.1 n hn)
    · split
      · exact List.pairwise_cons.mpr h
      · rename_i hnlt hne
        refine List.pairwise_cons.mpr ⟨?_, ih h.2⟩
        intro n hn
        -- the new key is greater than `k`, which stays in front
        rcases mem_insertKey.mp hn with rfl | hn
        · exact lt_of_le_of_ne (not_lt.mp hnlt) (Ne.symm hne)
        · exact h.1 n hn

section Growth

variable {P : List String → Prop}

theorem everyMember_updateMember {m : String} {new : NavigationNode}
    {f : NavigationNode → NavigationNode} {children : List (String × NavigationNode)}
    (h : EveryMember P children) (hnew : new.Every P) (hf : ∀ n, n.Every P → (f n).Every P) :
    EveryMember P (updateMember m new f children) := by
  induction children with
  | nil =>
    rw [updateMember, EveryMember]
    exact ⟨hf new hnew, by rw [EveryMember]; trivial⟩
  | cons head rest ih =>
    obtain ⟨n, child⟩ := head
    rw [EveryMember] at h
    rw [updateMember]
    split
    · rw [EveryMember, EveryMember]
      exact ⟨hf new hnew, h⟩
    · split
      · rw [EveryMember]
        exact ⟨hf child h.1, h.2⟩
      · rw [EveryMember]
        exact ⟨h.1, ih h.2⟩

/-- What holds of no keys and is kept by every insertion from the path holds after growing. -/
theorem every_fillMemberNode (hnil : P []) {path : List String}
    (hinsert : ∀ m ∈ path, ∀ keys, P keys → P (insertKey m keys)) (t : DynamicType)
    {n : NavigationNode} (h : n.Every P) : (fillMemberNode t path n).Every P := by
  -- on the path, with one insertion at each node on the way
  induction path generalizing t n with
  | nil => exact h
  | cons m ms ih =>
    rw [fillMemberNode]
    split
    · exact h
    · split
      · exact h
      · rename_i mt hm
        obtain ⟨memberName, typeName, children⟩ := n
        rw [Every] at h
        show Every P (node memberName typeName (updateMember m _ _ children))
        rw [Every, keys_updateMember]
        refine ⟨hinsert m List.mem_cons_self _ h.1, ?_⟩
        refine everyMember_updateMember h.2 ?_ ?_
        · rw [Every]
          exact ⟨hnil, by rw [EveryMember]; trivial⟩
        · intro child hchild
          exact ih (fun k hk => hinsert k (List.mem_cons_of_mem _ hk)) mt hchild

theorem every_fillRootNode (hnil : P []) {fullPath : String}
    (hinsert : ∀ m ∈ (pathFields fullPath).drop 1, ∀ keys, P keys → P (insertKey m keys))
    (t : DynamicType) {root : NavigationNode} (h : root.Every P) :
    (fillRootNode root t fullPath).Every P := by
  unfold fillRootNode
  split
  · exact h
  · rename_i typeName path hfields
    rw [hfields, List.drop_succ_cons, List.drop_zero] at hinsert
    split
    · exact h
    · split
      · obtain ⟨memberName, _, children⟩ := root
        exact h
      · split
        · exact h
        -- setting the type name leaves the members as they have grown
        · have hgrown := every_fillMemberNode hnil hinsert t h
          generalize fillMemberNode t path root = grown at hgrown ⊢
          obtain ⟨memberName, _, children⟩ := grown
          exact hgrown

end Growth

theorem every_fresh {P : List String → Prop} (hnil : P []) : fresh.Every P := by
  rw [fresh, Every]
  exact ⟨hnil, by rw [EveryMember]; trivial⟩

theorem sorted_fillRootNode {root : NavigationNode} (h : root.Sorted) (t : DynamicType)
    (fullPath : String) : (fillRootNode root t fullPath).Sorted :=
  every_fillRootNode List.Pairwise.nil (fun m _ _ hkeys => pairwise_insertKey m hkeys) t h

theorem typeName_fillRootNode (root : NavigationNode) (t : DynamicType) (fullPath : String) :
    (fillRootNode root t fullPath).typeName = root.typeName ∨
      (fillRootNode root t fullPath).typeName = t.name := by
  unfold fillRootNode
  split
  · exact .inl rfl
  · split
    · exact .inl rfl
    · split
      · right
        cases root
        rfl
      · split
        · exact .inl rfl
        · right
          cases fillMemberNode t _ root
          rfl

/-- Each member of a chain in the tree is a key of some node. -/
theorem mem_of_descend {P : List String → Prop} {n n' : NavigationNode} {chain : List String}
    (h : n.Every P) (hdescend : n.descend chain = some n') {m : String} (hm : m ∈ chain) :
    ∃ keys, P keys ∧ m ∈ keys := by
  induction chain generalizing n with
  | nil => cases hm
  | cons k ks ih =>
    obtain ⟨child, hchild, hrest⟩ := Option.bind_eq_some_iff.mp hdescend
    obtain ⟨memberName, typeName, children⟩ := n
    rw [Every] at h
    rcases List.mem_cons.mp hm with rfl | hm
    · exact ⟨children.map Prod.fst, h.1, List.mem_map_of_mem (mem_of_lookup hchild)⟩
    · exact ih (everyMember_of_lookup h.2 hchild) hrest hm

/-! ## Paths of nodes -/

theorem getPath_concat (rootTypeName : String) (chain : List String) (m : String) :
    getPath rootTypeName (chain ++ [m]) = getPath rootTypeName chain ++ "." ++ m := by
  unfold getPath
  rw [List.foldl_append]
  rfl

theorem pathFields_getPath (rootTypeName : String) {chain : List String}
    (h : ∀ m ∈ chain, Undotted m) :
    pathFields (getPath rootTypeName chain) = pathFields rootTypeName ++ chain := by
  unfold getPath
  -- on the chain, whose first member goes to the end of the path so far
  induction chain generalizing rootTypeName with
  | nil => rw [List.foldl_nil, List.append_nil]
  | cons m ms ih =>
    rw [List.foldl_cons, ih _ fun k hk => h k (List.mem_cons_of_mem _ hk), pathFields_append,
      pathFields_of_undotted (h m List.mem_cons_self), List.append_assoc]
    rfl

/-- The path of a node leads through its chain of members. -/
theorem memberPath_getPath {rootTypeName : String} {chain : List String}
    (hroot : Undotted rootTypeName) (h : ∀ m ∈ chain, Undotted m ∧ m ≠ "") :
    memberPath (getPath rootTypeName chain) = chain := by
  have hfields := pathFields_getPath rootTypeName fun m hm => (h m hm).1
  rw [pathFields_of_undotted hroot] at hfields
  exact memberPath_of_fields hfields fun hmem => (h "" hmem).2 rfl

end NavigationNode

end FastDdsSh
