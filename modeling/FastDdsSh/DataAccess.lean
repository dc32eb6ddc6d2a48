import FastDdsSh.Lib.Lookup
import FastDdsSh.XTypes

/-!
# Dotted paths into dynamic data

`access_member_data` splits a path at its dots and follows `operator[]`; the first token is the name
of the type and is not looked at.  `resolve_discriminator_type` follows the declared types instead.
-/

namespace FastDdsSh

open Lookup

/-! ## Paths -/

def pathFields (path : String) : List String :=
  (path.toList.splitOn '.').map String.ofList

/-- What `std::getline` reads with `'.'` as the delimiter: no token after a final dot. -/
def pathTokens (path : String) : List String :=
  if (pathFields path).getLast? = some "" then (pathFields path).dropLast else pathFields path

def memberPath (path : String) : List String :=
  (pathTokens path).drop 1

def stripped (typeName : String) : String :=
  if "::".toList.isPrefixOf typeName.toList then String.ofList (typeName.toList.drop 2)
  else typeName

example : memberPath "Request.data.x" = ["data", "x"] ∧ memberPath "" = [] := by decide

/-- The name can be a piece of a path. -/
def Undotted (m : String) : Prop :=
  '.' ∉ m.toList

theorem pathFields_of_undotted {m : String} (h : Undotted m) : pathFields m = [m] := by
  unfold pathFields
  rw [List.splitOn_eq_singleton h, List.map_singleton, String.ofList_toList]

theorem pathFields_append (p m : String) :
    pathFields (p ++ "." ++ m) = pathFields p ++ pathFields m := by
  have htoList : (p ++ "." ++ m).toList = p.toList ++ '.' :: m.toList := by
    simp [String.toList_append]
  unfold pathFields
  rw [htoList, List.splitOn_append_cons_self, List.map_append]

theorem not_mem_of_mem_splitOn {α : Type} [DecidableEq α] {a : α} {l piece : List α}
    (h : piece ∈ l.splitOn a) : a ∉ piece := by
  -- on the characters: a delimiter starts a piece, any other one goes into the first
  induction l generalizing piece with
  | nil =>
    rw [List.splitOn_nil, List.mem_singleton] at h
    rw [h]
    exact List.not_mem_nil
  | cons x l ih =>
    rw [List.splitOn_cons_eq_if_modifyHead] at h
    split at h
    · rcases List.mem_cons.mp h with rfl | h
      · exact List.not_mem_nil
      · exact ih h
    · rename_i hx
      cases hl : l.splitOn a with
      | nil => exact absurd hl (List.splitOn_ne_nil a l)
      | cons first rest =>
        rw [hl] at h ih
        rcases List.mem_cons.mp h with rfl | h
        · have hfirst : a ∉ first := ih List.mem_cons_self
          rw [List.mem_cons, not_or]
          exact ⟨fun hax => hx (by simp [hax]), hfirst⟩
        · exact ih (List.mem_cons_of_mem _ h)

theorem undotted_of_mem_pathFields {p m : String} (h : m ∈ pathFields p) : Undotted m := by
  obtain ⟨piece, hpiece, rfl⟩ := List.mem_map.mp h
  unfold Undotted
  rw [String.toList_ofList]
  exact not_mem_of_mem_splitOn hpiece

/-- A chain of proper names is what is read back from the path made of it. -/
theorem memberPath_of_fields {p root : String} {ms : List String}
    (hfields : pathFields p = root :: ms) (hne : "" ∉ ms) : memberPath p = ms := by
  unfold memberPath pathTokens
  -- a final empty piece would be dropped, but no name is empty
  split
  · rename_i hlast
    rw [hfields] at hlast ⊢
    cases hms : ms.getLast? with
    | none =>
      rw [List.getLast?_eq_none_iff.mp hms]
      rfl
    | some m =>
      have hm : m = "" := by
        rw [List.getLast?_cons, hms] at hlast
        simpa using hlast
      rw [hm] at hms
      exact absurd (List.mem_of_getLast? hms) hne
  · rw [hfields]
    rfl

namespace DynamicType

def typeAt : DynamicType → List String → Option DynamicType
  | t, [] => some t.resolve
  | t, m :: ms => (t.resolve.member m).bind fun mt => mt.typeAt ms

def resolveStep (t : DynamicType) (m : String) : Option DynamicType :=
  if t.isAggregation then t.member m else some t

def resolveDiscriminatorType (service : DynamicType) (discriminator : String) :
    Option DynamicType :=
  ((pathFields discriminator).drop 1).foldlM resolveStep service

/-- The path is `T.m1...mk` with `T` the name of the type and `m1...mk` leading to a component. -/
def ValidPath (t : DynamicType) (path : String) : Prop :=
  ∃ ms, pathFields path = t.name :: ms ∧ "" ∉ ms ∧ (t.typeAt ms).isSome = true

theorem ValidPath.fields {t : DynamicType} {path : String} (h : t.ValidPath path) :
    (pathFields path).drop 1 = memberPath path := by
  obtain ⟨ms, hfields, hne, -⟩ := h
  rw [memberPath_of_fields hfields hne, hfields]
  rfl

theorem ValidPath.typeAt_isSome {t : DynamicType} {path : String} (h : t.ValidPath path) :
    (t.typeAt (memberPath path)).isSome = true := by
  have hfields := h.fields
  obtain ⟨ms, heq, -, hsome⟩ := h
  rw [heq] at hfields
  rw [← hfields]
  exact hsome

/-! ## The loop over declared types -/

theorem isAggregation_of_member {t mt : DynamicType} {m : String} (h : t.member m = some mt) :
    t.isAggregation = true := by
  unfold member members at h
  split at h <;> first | rfl | cases h

theorem resolve_of_isAggregation {t : DynamicType} (h : t.isAggregation = true) :
    t.resolve = t := by
  cases t <;> first | rfl | cases h

theorem foldlM_resolveStep_of_not_isAggregation {t : DynamicType} (h : t.isAggregation = false)
    (ms : List String) : ms.foldlM resolveStep t = some t := by
  induction ms with
  | nil => rfl
  | cons m ms ih =>
    have hstep : resolveStep t m = some t := by rw [resolveStep, h]; rfl
    rw [List.foldlM_cons, hstep]
    exact ih

/-- The loop does not throw on a path along which there is a component. -/
theorem foldlM_resolveStep_isSome {t : DynamicType} {ms : List String}
    (h : (t.typeAt ms).isSome = true) : (ms.foldlM resolveStep t).isSome = true := by
  induction ms generalizing t with
  | nil => rfl
  | cons m ms ih =>
    -- the loop stays at a type without members, where `access_member_data` would throw
    by_cases hagg : t.isAggregation = true
    · rw [typeAt, resolve_of_isAggregation hagg] at h
      cases hm : t.member m with
      | none =>
        rw [hm] at h
        cases h
      | some mt =>
        rw [hm] at h
        have hstep : resolveStep t m = some mt := by rw [resolveStep, hagg, hm]; rfl
        rw [List.foldlM_cons, hstep]
        exact ih h
    · rw [foldlM_resolveStep_of_not_isAggregation (by simpa using hagg)]
      rfl

theorem ValidPath.resolveDiscriminatorType_isSome {t : DynamicType} {path : String}
    (h : t.ValidPath path) : (t.resolveDiscriminatorType path).isSome = true := by
  rw [resolveDiscriminatorType, h.fields]
  exact foldlM_resolveStep_isSome h.typeAt_isSome

theorem depth_of_typeAt {t u : DynamicType} {ms : List String} (h : t.typeAt ms = some u) :
    u.depth + ms.length ≤ t.depth := by
  induction ms generalizing t with
  | nil =>
    rw [typeAt] at h
    cases h
    simp
  | cons m ms ih =>
    rw [typeAt] at h
    obtain ⟨mt, hm, hrest⟩ := Option.bind_eq_some_iff.mp h
    -- one level for each member
    have hlt := depth_member_lt hm
    have hle := ih hrest
    rw [depth_resolve] at hlt
    rw [List.length_cons]
    omega

end DynamicType

variable [Xtypes]

/-! ## Reading and assigning a component -/

namespace Value

/-- `access_member_data` as it is read from: the type and the value of the component. -/
def component : DynamicType → Value → List String → Option (DynamicType × Value)
  | t, v, [] => some (t.resolve, v)
  | t, v, m :: ms =>
      (t.resolve.member m).bind fun mt => (v.field mt m).bind fun w => component mt w ms

/-- `access_member_data(data, path) = v'` for `v'` of type `t'`: the whole after the assignment. -/
def assign (t : DynamicType) (v : Value) (path : List String) (t' : DynamicType) (v' : Value) :
    Option Value :=
  match path with
  | [] => if Xtypes.assignable t.resolve t'.resolve then some v' else none
  | m :: ms =>
      (t.resolve.member m).bind fun mt => (v.field mt m).bind fun w =>
        (assign mt w ms t' v').map fun w' => v.withField t.resolve m w'

/-- The whole after `access_member_data`: on the way every union has been switched to its case. -/
def accessed : DynamicType → Value → List String → Option Value
  | _, v, [] => some v
  | t, v, m :: ms =>
      (t.resolve.member m).bind fun mt => (v.field mt m).bind fun w =>
        (accessed mt w ms).map fun w' => v.withField t.resolve m w'

/-- Every union on the way to the component has its case active. -/
def Present (v : Value) : List String → Prop
  | [] => True
  | m :: ms =>
      match v with
      | .struct fields => ∃ w, fields.lookup m = some w ∧ w.Present ms
      | .union _ c w => c = m ∧ w.Present ms
      | _ => False

/-! ## One member -/

omit [Xtypes] in
theorem lookup_setField {fields : List (String × Value)} {m : String} {w : Value} (v : Value)
    (h : fields.lookup m = some w) : (setField fields m v).lookup m = some v := by
  induction fields with
  | nil => cases h
  | cons head rest ih =>
    obtain ⟨n, u⟩ := head
    rw [setField]
    by_cases hn : n = m
    · rw [if_pos hn, hn, List.lookup_cons_self]
    · rw [lookup_cons_ne (Ne.symm hn)] at h
      rw [if_neg hn, lookup_cons_ne (Ne.symm hn)]
      exact ih h

omit [Xtypes] in
theorem lookup_setField_ne {m n : String} (fields : List (String × Value)) (v : Value)
    (h : n ≠ m) : (setField fields m v).lookup n = fields.lookup n := by
  induction fields with
  | nil => rfl
  | cons head rest ih =>
    obtain ⟨k, u⟩ := head
    rw [setField]
    by_cases hk : k = m
    · have hne : n ≠ k := by rwa [hk]
      rw [if_pos hk, lookup_cons_ne hne, lookup_cons_ne hne]
    · rw [if_neg hk, List.lookup_cons, List.lookup_cons, ih]

omit [Xtypes] in
theorem map_fst_setField (fields : List (String × Value)) (m : String) (v : Value) :
    (setField fields m v).map Prod.fst = fields.map Prod.fst := by
  induction fields with
  | nil => rfl
  | cons head fields ih =>
    obtain ⟨n, w⟩ := head
    rw [setField]
    split
    · rfl
    · rw [List.map_cons, List.map_cons, ih]

omit [Xtypes] in
theorem setField_self {fields : List (String × Value)} {m : String} {w : Value}
    (h : fields.lookup m = some w) : setField fields m w = fields := by
  induction fields with
  | nil => rfl
  | cons head rest ih =>
    obtain ⟨n, u⟩ := head
    rw [setField]
    by_cases hn : n = m
    · rw [hn, List.lookup_cons_self] at h
      cases h
      rw [if_pos hn]
    · rw [lookup_cons_ne (Ne.symm hn)] at h
      rw [if_neg hn, ih h]

/-- What was written to a member is read back from it. -/
theorem field_withField {t mt : DynamicType} {m : String} {v w : Value} (w' : Value)
    (h : v.field mt m = some w) : (v.withField t m w').field mt m = some w' := by
  cases v with
  | struct fields => exact lookup_setField w' h
  | union d c u =>
    -- another case is selected first, with fresh data, and then written to
    by_cases hc : c = m
    · subst hc
      rw [withField_active, field, if_pos rfl]
    · rw [withField_select t d w' u hc, field, if_pos rfl]
  | leaf | list | map => cases h

/-- Another member does not depend on what was written. -/
theorem field_withField_ne {t nt : DynamicType} {m n : String} (v w w' : Value) (h : n ≠ m) :
    (v.withField t m w).field nt n = (v.withField t m w').field nt n := by
  cases v with
  | struct fields =>
    show (setField fields m w).lookup n = (setField fields m w').lookup n
    rw [lookup_setField_ne fields w h, lookup_setField_ne fields w' h]
  | union d c u =>
    have hn : ¬ m = n := Ne.symm h
    -- the case that is selected is `m`, so there is nothing at `n`, whatever was written
    by_cases hc : c = m
    · subst hc
      rw [withField_active, withField_active, field, field, if_neg hn, if_neg hn]
    · rw [withField_select t d w u hc, withField_select t d w' u hc, field, field, if_neg hn,
        if_neg hn]
  | leaf | list | map => rfl

/-! ## Chains of members -/

theorem typeAt_of_component {t u : DynamicType} {v w : Value} {path : List String}
    (h : component t v path = some (u, w)) : t.typeAt path = some u := by
  induction path generalizing t v with
  | nil =>
    rw [component] at h
    rw [DynamicType.typeAt]
    simpa using congrArg (Option.map Prod.fst) h
  | cons m ms ih =>
    rw [component] at h
    obtain ⟨mt, hm, hrest⟩ := Option.bind_eq_some_iff.mp h
    obtain ⟨x, -, hx⟩ := Option.bind_eq_some_iff.mp hrest
    rw [DynamicType.typeAt, hm]
    exact ih hx

/-- Reading back what was assigned. -/
theorem component_assign {t t' : DynamicType} {v v' r : Value} {path : List String}
    (h : assign t v path t' v' = some r) :
    ∃ u, t.typeAt path = some u ∧ component t r path = some (u, v') := by
  induction path generalizing t v r with
  | nil =>
    rw [assign] at h
    split at h
    · cases h
      exact ⟨t.resolve, rfl, rfl⟩
    · cases h
  -- what is below the first member is assigned, and the member is written back
  | cons m ms ih =>
    rw [assign] at h
    obtain ⟨mt, hm, hrest⟩ := Option.bind_eq_some_iff.mp h
    obtain ⟨w, hw, hrest⟩ := Option.bind_eq_some_iff.mp hrest
    obtain ⟨w', hw', rfl⟩ := Option.map_eq_some_iff.mp hrest
    obtain ⟨u, htype, hcomponent⟩ := ih hw'
    refine ⟨u, by rw [DynamicType.typeAt, hm]; exact htype, ?_⟩
    rw [component, hm, Option.bind_some, field_withField w' hw]
    exact hcomponent

/-- An assignment goes through wherever there is a component of a type it can be made to. -/
theorem assign_isSome {t u t' : DynamicType} {v w : Value} {path : List String} (v' : Value)
    (h : component t v path = some (u, w)) (hassignable : Xtypes.assignable u t'.resolve = true) :
    ∃ r, assign t v path t' v' = some r := by
  induction path generalizing t v with
  | nil =>
    rw [component] at h
    have hu : t.resolve = u := by simpa using congrArg (Option.map Prod.fst) h
    exact ⟨v', by rw [assign, hu, if_pos hassignable]⟩
  | cons m ms ih =>
    rw [component] at h
    obtain ⟨mt, hm, hrest⟩ := Option.bind_eq_some_iff.mp h
    obtain ⟨x, hx, hrest⟩ := Option.bind_eq_some_iff.mp hrest
    obtain ⟨r, hr⟩ := ih hrest
    refine ⟨v.withField t.resolve m r, ?_⟩
    rw [assign, hm, Option.bind_some, hx, Option.bind_some, hr, Option.map_some]

theorem assignable_of_assign {t u t' : DynamicType} {v v' r : Value} {path : List String}
    (h : assign t v path t' v' = some r) (hu : t.typeAt path = some u) :
    Xtypes.assignable u t'.resolve = true := by
  induction path generalizing t v r with
  | nil =>
    rw [DynamicType.typeAt] at hu
    cases hu
    rw [assign] at h
    split at h
    · rename_i hassignable
      exact hassignable
    · cases h
  | cons m ms ih =>
    rw [assign] at h
    rw [DynamicType.typeAt] at hu
    obtain ⟨mt, hm, hrest⟩ := Option.bind_eq_some_iff.mp h
    obtain ⟨w, -, hrest⟩ := Option.bind_eq_some_iff.mp hrest
    obtain ⟨w', hw', -⟩ := Option.map_eq_some_iff.mp hrest
    rw [hm] at hu
    exact ih hw' hu

/-- The component lies under an active case of every union above it once it has been assigned. -/
theorem present_of_assign {t t' : DynamicType} {v v' r : Value} {path : List String}
    (h : assign t v path t' v' = some r) : r.Present path := by
  induction path generalizing t v r with
  | nil => trivial
  | cons m ms ih =>
    rw [assign] at h
    obtain ⟨mt, -, hrest⟩ := Option.bind_eq_some_iff.mp h
    obtain ⟨w, hw, hrest⟩ := Option.bind_eq_some_iff.mp hrest
    obtain ⟨w', hw', rfl⟩ := Option.map_eq_some_iff.mp hrest
    have hpresent := ih hw'
    cases v with
    | struct fields => exact ⟨w', lookup_setField w' hw, hpresent⟩
    | union d c x =>
      -- a case that is written to is the active one afterwards
      by_cases hc : c = m
      · subst hc
        rw [withField_active]
        exact ⟨rfl, hpresent⟩
      · rw [withField_select t.resolve d w' x hc]
        exact ⟨rfl, hpresent⟩
    | leaf | list | map => cases hw

/-! ## Two chains -/

def Diverges : List String → List String → Prop
  | m :: ms, n :: ns => m ≠ n ∨ (m = n ∧ Diverges ms ns)
  | _, _ => False

omit [Xtypes] in
theorem prefix_or_diverges (p q : List String) : p <+: q ∨ q <+: p ∨ Diverges p q := by
  induction p generalizing q with
  | nil => exact .inl q.nil_prefix
  | cons m ms ih =>
    cases q with
    | nil => exact .inr (.inl (List.nil_prefix))
    | cons n ns =>
      by_cases hmn : m = n
      · subst hmn
        rcases ih ns with h | h | h
        · exact .inl (List.cons_prefix_cons.mpr ⟨rfl, h⟩)
        · exact .inr (.inl (List.cons_prefix_cons.mpr ⟨rfl, h⟩))
        · exact .inr (.inr (.inr ⟨rfl, h⟩))
      · exact .inr (.inr (.inl hmn))

omit [Xtypes] in
theorem diverges_symm {p q : List String} (h : Diverges p q) : Diverges q p := by
  induction p generalizing q with
  | nil => cases h
  | cons m ms ih =>
    cases q with
    | nil => cases h
    | cons n ns =>
      rcases h with h | ⟨rfl, h⟩
      · exact .inl (Ne.symm h)
      · exact .inr ⟨rfl, ih h⟩

/-- A component elsewhere does not depend on what was assigned. -/
theorem component_assign_of_diverges {t t₁ t₂ : DynamicType} {v v₁ v₂ r₁ r₂ : Value}
    {p q : List String} (hpq : Diverges p q) (h₁ : assign t v p t₁ v₁ = some r₁)
    (h₂ : assign t v p t₂ v₂ = some r₂) : component t r₁ q = component t r₂ q := by
  -- on the common beginning, along which both assignments go through the same members
  induction p generalizing t v r₁ r₂ q with
  | nil => cases hpq
  | cons m ms ih =>
    cases q with
    | nil => cases hpq
    | cons n ns =>
      rw [assign] at h₁ h₂
      obtain ⟨mt, hm, h₁⟩ := Option.bind_eq_some_iff.mp h₁
      rw [hm, Option.bind_some] at h₂
      obtain ⟨w, hw, h₁⟩ := Option.bind_eq_some_iff.mp h₁
      rw [hw, Option.bind_some] at h₂
      obtain ⟨w₁, hw₁, rfl⟩ := Option.map_eq_some_iff.mp h₁
      obtain ⟨w₂, hw₂, rfl⟩ := Option.map_eq_some_iff.mp h₂
      rw [component, component]
      -- the chains part here, or below the member
      rcases hpq with hne | ⟨rfl, hrest⟩
      · congr 1
        funext nt
        rw [field_withField_ne v w₁ w₂ (Ne.symm hne)]
      · rw [hm, Option.bind_some, Option.bind_some, field_withField w₁ hw, field_withField w₂ hw]
        exact ih hrest hw₁ hw₂

end Value

/-! ## Fresh data -/

namespace DynamicType

@[simp] theorem default_resolve (t : DynamicType) : t.resolve.default = t.default := by
  induction t using DynamicType.resolve.induct with
  | case1 n t ih =>
    rw [resolve, default]
    exact ih
  | case2 t h =>
    rw [resolve]
    exact h

theorem lookup_defaultMembers {ms : List (String × DynamicType)} {m : String} {mt : DynamicType}
    (h : ms.lookup m = some mt) : (defaultMembers ms).lookup m = some mt.default := by
  induction ms with
  | nil => cases h
  | cons head ms ih =>
    obtain ⟨n, t⟩ := head
    rw [List.lookup_cons] at h
    rw [defaultMembers, List.lookup_cons]
    split at h
    · cases h
      rfl
    · exact ih h

/-- Every member of fresh data is fresh. -/
theorem field_default {t mt : DynamicType} {m : String} (h : t.member m = some mt) :
    t.default.field mt m = some mt.default := by
  unfold member members at h
  split at h
  · rw [default, Value.field]
    exact lookup_defaultMembers h
  -- the case that is not active is fresh too: it is made when it is asked for
  · rename_i n d ms cs
    simp only [default, Value.field]
    split
    · rename_i hc
      rw [hc, lookup_defaultMembers h]
      rfl
    · rfl
  · cases h

theorem component_default {t u : DynamicType} {path : List String} (h : t.typeAt path = some u) :
    Value.component t t.default path = some (u, u.default) := by
  induction path generalizing t with
  | nil =>
    rw [typeAt] at h
    cases h
    rw [Value.component, default_resolve]
  | cons m ms ih =>
    rw [typeAt] at h
    obtain ⟨mt, hm, hrest⟩ := Option.bind_eq_some_iff.mp h
    have hfield := field_default hm
    rw [default_resolve] at hfield
    rw [Value.component, hm, Option.bind_some, hfield]
    exact ih hrest

end DynamicType

/-! ## Instances -/

namespace DynamicType

omit [Xtypes] in
@[simp] theorem admits_resolve (t : DynamicType) (v : Value) : t.resolve.admits v = t.admits v := by
  induction t using DynamicType.resolve.induct with
  | case1 n t ih =>
    rw [resolve, admits]
    exact ih
  | case2 t h =>
    rw [resolve]
    exact h

omit [Xtypes] in
theorem admits_of_lookup {ms : List (String × DynamicType)} {fields : List (String × Value)}
    {m : String} {mt : DynamicType} {w : Value} (h : admitsFields ms fields = true)
    (hm : ms.lookup m = some mt) (hw : fields.lookup m = some w) : mt.admits w = true := by
  induction ms generalizing fields with
  | nil => cases hm
  | cons head ms ih =>
    obtain ⟨n, t⟩ := head
    cases fields with
    | nil => cases hw
    | cons head fields =>
      obtain ⟨k, v⟩ := head
      simp only [admitsFields, Bool.and_eq_true, decide_eq_true_eq] at h
      obtain ⟨⟨rfl, hv⟩, hrest⟩ := h
      by_cases hn : m = n
      · rw [hn, List.lookup_cons_self] at hm hw
        cases hm
        cases hw
        exact hv
      · rw [lookup_cons_ne hn] at hm hw
        exact ih hrest hm hw

omit [Xtypes] in
theorem admitsFields_setField {ms : List (String × DynamicType)} {fields : List (String × Value)}
    {m : String} {mt : DynamicType} {w : Value} (h : admitsFields ms fields = true)
    (hm : ms.lookup m = some mt) (hw : mt.admits w = true) :
    admitsFields ms (Value.setField fields m w) = true := by
  induction ms generalizing fields with
  | nil => cases hm
  | cons head ms ih =>
    obtain ⟨n, t⟩ := head
    cases fields with
    | nil => cases h
    | cons head fields =>
      obtain ⟨k, v⟩ := head
      simp only [admitsFields, Bool.and_eq_true, decide_eq_true_eq] at h
      obtain ⟨⟨rfl, hv⟩, hrest⟩ := h
      rw [Value.setField]
      by_cases hn : n = m
      · rw [hn, List.lookup_cons_self] at hm
        cases hm
        rw [if_pos hn]
        simp only [admitsFields, hw, hrest, decide_true, Bool.and_self]
      · rw [lookup_cons_ne (Ne.symm hn)] at hm
        rw [if_neg hn]
        simp only [admitsFields, hv, ih hrest hm, decide_true, Bool.and_self]

omit [Xtypes] in
theorem admitsCase_eq {ms : List (String × DynamicType)} {m : String} {mt : DynamicType}
    (h : ms.lookup m = some mt) (v : Value) : admitsCase ms m v = mt.admits v := by
  apply eq_of_lookup _ h
  intro n t ms
  rw [admitsCase]

theorem admits_field {t mt : DynamicType} {m : String} {v w : Value}
    (hm : t.member m = some mt) (h : t.admits v = true) (hpresent : v.Present [m])
    (hw : v.field mt m = some w) : mt.admits w = true := by
  -- a member of a structure, or the active case of a union
  have hlookup := hm
  unfold member members at hlookup
  split at hlookup
  · cases v with
    | struct fields =>
      rw [admits] at h
      exact admits_of_lookup h hlookup hw
    | union | leaf | list | map => cases h
  · cases v with
    | union d c u =>
      obtain ⟨rfl, -⟩ := hpresent
      rw [admits, admitsCase_eq hlookup] at h
      rw [Value.field, if_pos rfl] at hw
      cases hw
      exact h
    | struct | leaf | list | map => cases h
  · cases hlookup

/-- Writing an instance to a member that is there keeps the whole an instance. -/
theorem admits_withField {t mt : DynamicType} {m : String} {v x : Value}
    (hm : t.member m = some mt) (h : t.admits v = true) (hpresent : v.Present [m])
    (hx : mt.admits x = true) : t.admits (v.withField t m x) = true := by
  have hlookup := hm
  unfold member members at hlookup
  split at hlookup
  · cases v with
    | struct fields =>
      rw [admits] at h
      show DynamicType.admits (structType _ _) (.struct _) = true
      rw [admits]
      exact admitsFields_setField h hlookup hx
    | union | leaf | list | map => cases h
  · cases v with
    | union d c u =>
      obtain ⟨rfl, -⟩ := hpresent
      rw [Value.withField_active, admits, admitsCase_eq hlookup]
      exact hx
    | struct | leaf | list | map => cases h
  · cases hlookup

/-- The first member of a chain that is present, and the rest of the chain below it. -/
theorem present_cons {v w : Value} {mt : DynamicType} {m : String} {ms : List String}
    (hpresent : v.Present (m :: ms)) (hw : v.field mt m = some w) :
    v.Present [m] ∧ w.Present ms := by
  cases v with
  | struct fields =>
    obtain ⟨x, hx, hbelow⟩ := hpresent
    have hsame : fields.lookup m = some w := hw
    have heq : x = w := by
      rw [hx] at hsame
      simpa using hsame
    rw [heq] at hx hbelow
    exact ⟨⟨w, hx, trivial⟩, hbelow⟩
  | union d c x =>
    obtain ⟨hc, hbelow⟩ := hpresent
    rw [Value.field, if_pos hc] at hw
    have heq : x = w := by simpa using hw
    rw [heq] at hbelow
    exact ⟨⟨hc, trivial⟩, hbelow⟩
  | leaf | list | map => cases hpresent

theorem field_of_present {v : Value} (mt : DynamicType) {m : String} {ms : List String}
    (hpresent : v.Present (m :: ms)) : ∃ w, v.field mt m = some w := by
  cases v with
  | struct fields =>
    obtain ⟨w, hw, -⟩ := hpresent
    exact ⟨w, hw⟩
  | union d c x =>
    obtain ⟨hc, -⟩ := hpresent
    exact ⟨x, by rw [Value.field, if_pos hc]⟩
  | leaf | list | map => cases hpresent

/-- A chain that is present leads to an instance of the type there. -/
theorem component_of_present {t u : DynamicType} {v : Value} {path : List String}
    (h : t.admits v = true) (hpresent : v.Present path) (htype : t.typeAt path = some u) :
    ∃ w, v.component t path = some (u, w) ∧ u.admits w = true := by
  induction path generalizing t v with
  | nil =>
    rw [typeAt] at htype
    cases htype
    exact ⟨v, rfl, by rw [admits_resolve]; exact h⟩
  -- instances go down along the chain, aliases resolved at each member
  | cons m ms ih =>
    rw [typeAt] at htype
    obtain ⟨mt, hm, hrest⟩ := Option.bind_eq_some_iff.mp htype
    obtain ⟨w, hw⟩ := field_of_present mt hpresent
    obtain ⟨hfirst, hbelow⟩ := present_cons hpresent hw
    rw [← admits_resolve] at h
    rw [Value.component, hm, Option.bind_some, hw, Option.bind_some]
    exact ih (admits_field hm h hfirst hw) hbelow hrest

omit [Xtypes] in
theorem exists_lookup_of_admitsFields {ms : List (String × DynamicType)}
    {fields : List (String × Value)} {m : String} {mt : DynamicType}
    (h : admitsFields ms fields = true) (hm : ms.lookup m = some mt) :
    ∃ w, fields.lookup m = some w := by
  induction ms generalizing fields with
  | nil => cases hm
  | cons head ms ih =>
    obtain ⟨n, t⟩ := head
    cases fields with
    | nil => cases h
    | cons head fields =>
      obtain ⟨k, v⟩ := head
      simp only [admitsFields, Bool.and_eq_true, decide_eq_true_eq] at h
      obtain ⟨⟨rfl, -⟩, hrest⟩ := h
      rw [List.lookup_cons] at hm ⊢
      split
      · exact ⟨v, rfl⟩
      · rename_i hne
        rw [hne] at hm
        exact ih hrest hm

/-- A member of an instance is an instance, or is fresh. -/
theorem field_of_admits {t mt : DynamicType} {m : String} {v : Value} (hm : t.member m = some mt)
    (h : t.admits v = true) :
    ∃ w, v.field mt m = some w ∧ (mt.admits w = true ∨ w = mt.default) := by
  have hlookup := hm
  unfold member members at hlookup
  split at hlookup
  · cases v with
    | struct fields =>
      rw [admits] at h
      obtain ⟨w, hw⟩ := exists_lookup_of_admitsFields h hlookup
      exact ⟨w, hw, .inl (admits_of_lookup h hlookup hw)⟩
    | union | leaf | list | map => cases h
  · cases v with
    | union d c u =>
      rw [Value.field]
      by_cases hc : c = m
      -- the active case, whose value is an instance; another one would be selected
      · rw [if_pos hc]
        rw [admits, hc, admitsCase_eq hlookup] at h
        exact ⟨u, rfl, .inl h⟩
      · rw [if_neg hc]
        exact ⟨_, rfl, .inr rfl⟩
    | struct | leaf | list | map => cases h
  · cases hlookup

/-- Every chain of members leads to a component, whether or not it is present. -/
theorem component_of_typeAt {t u : DynamicType} {v : Value} {path : List String}
    (h : t.admits v = true) (htype : t.typeAt path = some u) :
    ∃ w, v.component t path = some (u, w) := by
  induction path generalizing t v with
  | nil =>
    rw [typeAt] at htype
    cases htype
    exact ⟨v, rfl⟩
  | cons m ms ih =>
    rw [typeAt] at htype
    obtain ⟨mt, hm, hrest⟩ := Option.bind_eq_some_iff.mp htype
    rw [← admits_resolve] at h
    obtain ⟨w, hw, hadmits⟩ := field_of_admits hm h
    rw [Value.component, hm, Option.bind_some, hw, Option.bind_some]
    -- below fresh data everything is fresh
    rcases hadmits with hadmits | rfl
    · exact ih hadmits hrest
    · exact ⟨_, component_default hrest⟩

/-- Going to a component that is present changes nothing. -/
theorem accessed_of_present {t : DynamicType} {v : Value} {path : List String}
    {c : DynamicType × Value} (hpresent : v.Present path) (h : v.component t path = some c) :
    v.accessed t path = some v := by
  induction path generalizing t v with
  | nil => rfl
  | cons m ms ih =>
    obtain ⟨mt, hm, hrest⟩ := Option.bind_eq_some_iff.mp h
    obtain ⟨w, hw, hbelow⟩ := Option.bind_eq_some_iff.mp hrest
    rw [Value.accessed, hm, Option.bind_some, hw, Option.bind_some,
      ih (present_cons hpresent hw).2 hbelow, Option.map_some]
    cases v with
    | struct fields => rw [Value.withField, Value.setField_self hw]
    | union d k x =>
      obtain ⟨rfl, -⟩ := hpresent
      rw [Value.field, if_pos rfl] at hw
      cases hw
      rw [Value.withField_active]
    | leaf | list | map => cases hw

theorem admits_assign {t t' u : DynamicType} {v v' r : Value} {path : List String}
    (h : t.admits v = true) (hpresent : v.Present path) (htype : t.typeAt path = some u)
    (hv' : u.admits v' = true) (hassign : v.assign t path t' v' = some r) :
    t.admits r = true := by
  induction path generalizing t v r with
  | nil =>
    rw [typeAt] at htype
    cases htype
    rw [Value.assign] at hassign
    split at hassign
    · cases hassign
      rw [← admits_resolve]
      exact hv'
    · cases hassign
  | cons m ms ih =>
    rw [Value.assign] at hassign
    rw [typeAt] at htype
    obtain ⟨mt, hm, hrest⟩ := Option.bind_eq_some_iff.mp hassign
    rw [hm] at htype
    obtain ⟨w, hw, hrest⟩ := Option.bind_eq_some_iff.mp hrest
    obtain ⟨w', hw', rfl⟩ := Option.map_eq_some_iff.mp hrest
    rw [← admits_resolve] at h
    obtain ⟨hfirst, hbelow⟩ := present_cons hpresent hw
    have hrec := ih (admits_field hm h hfirst hw) hbelow htype hw'
    rw [← admits_resolve]
    exact admits_withField hm h hfirst hrec

/-! ## A component is found at its own place only -/

omit [Xtypes] in
theorem typeAt_resolve (t : DynamicType) (path : List String) :
    t.resolve.typeAt path = t.typeAt path := by
  cases path with
  | nil => rw [typeAt, typeAt, resolve_resolve]
  | cons m ms => rw [typeAt, typeAt, resolve_resolve]

omit [Xtypes] in
theorem typeAt_append (t : DynamicType) (p q : List String) :
    t.typeAt (p ++ q) = (t.typeAt p).bind fun u => u.typeAt q := by
  induction p generalizing t with
  | nil => rw [List.nil_append, typeAt, Option.bind_some, typeAt_resolve]
  | cons m ms ih =>
    rw [List.cons_append, typeAt, typeAt, Option.bind_assoc]
    congr 1
    funext mt
    exact ih mt

omit [Xtypes] in
theorem resolve_of_typeAt {t u : DynamicType} {path : List String}
    (h : t.typeAt path = some u) : u.resolve = u := by
  have hself := typeAt_append t path []
  rw [List.append_nil, h, Option.bind_some, typeAt] at hself
  simpa using hself.symm

omit [Xtypes] in
/-- Along a chain the types get less deep, so equally deep types sit at the same place. -/
theorem eq_of_prefix_of_depth {t u u' : DynamicType} {p q : List String} (h : p <+: q)
    (hp : t.typeAt p = some u) (hq : t.typeAt q = some u') (hdepth : u.depth = u'.depth) :
    p = q := by
  obtain ⟨rest, rfl⟩ := h
  rw [typeAt_append, hp, Option.bind_some] at hq
  have hle := depth_of_typeAt hq
  have hnil : rest = [] := List.eq_nil_of_length_eq_zero (by omega)
  rw [hnil, List.append_nil]

/-- Assigning at `q` shows at `p`, for two different values, only if `q` is `p`. -/
theorem eq_of_assign [LawfulXtypes] {t u : DynamicType} {v v₁ v₂ r₁ r₂ : Value}
    {p q : List String} (hne : v₁ ≠ v₂) (hu : u.resolve = u)
    (h₁ : v.assign t q u v₁ = some r₁) (h₂ : v.assign t q u v₂ = some r₂)
    (hc₁ : r₁.component t p = some (u, v₁)) (hc₂ : r₂.component t p = some (u, v₂)) : q = p := by
  -- what can be assigned is of the same depth, so only `p` itself is on the way of `p`
  obtain ⟨u', htype, -⟩ := Value.component_assign h₁
  have hassignable := Value.assignable_of_assign h₁ htype
  have hdepth := LawfulXtypes.depth_of_assignable _ _ hassignable
  rw [hu] at hdepth
  have hp := Value.typeAt_of_component hc₁
  rcases Value.prefix_or_diverges q p with h | h | h
  · exact eq_of_prefix_of_depth h htype hp hdepth
  · exact (eq_of_prefix_of_depth h hp htype hdepth.symm).symm
  -- elsewhere the two assignments could not be told apart
  · have hsame := Value.component_assign_of_diverges h h₁ h₂
    rw [hc₁, hc₂] at hsame
    exact absurd (by simpa using hsame) hne

/-- Reading at `q` gives what is at `p`, in every instance in which `p` is present, only if `q` is
`p`; the type at `p` has two values. -/
theorem eq_of_component [LawfulXtypes] {t u : DynamicType} {v v₁ v₂ : Value} {p q : List String}
    (hv : t.admits v = true) (hpresent : v.Present p) (htype : t.typeAt p = some u)
    (h₁ : u.admits v₁ = true) (h₂ : u.admits v₂ = true) (hne : v₁ ≠ v₂)
    (h : ∀ r, t.admits r = true → r.Present p → r.component t q = r.component t p) : q = p := by
  have hassignable : Xtypes.assignable u u.resolve = true := by
    rw [resolve_of_typeAt htype]
    exact LawfulXtypes.assignable_self u
  obtain ⟨w, hw, -⟩ := component_of_present hv hpresent htype
  -- two instances that differ in what they have at `p`
  obtain ⟨r₁, hr₁⟩ := Value.assign_isSome v₁ hw hassignable
  obtain ⟨r₂, hr₂⟩ := Value.assign_isSome v₂ hw hassignable
  obtain ⟨u₁, hu₁, hc₁⟩ := Value.component_assign hr₁
  obtain ⟨u₂, hu₂, hc₂⟩ := Value.component_assign hr₂
  rw [htype] at hu₁ hu₂
  cases hu₁
  cases hu₂
  have hq₁ := h r₁ (admits_assign hv hpresent htype h₁ hr₁) (Value.present_of_assign hr₁)
  have hq₂ := h r₂ (admits_assign hv hpresent htype h₂ hr₂) (Value.present_of_assign hr₂)
  rw [hc₁] at hq₁
  rw [hc₂] at hq₂
  have hq := Value.typeAt_of_component hq₁
  rcases Value.prefix_or_diverges q p with hpre | hpre | hdiv
  · exact eq_of_prefix_of_depth hpre hq htype rfl
  · exact (eq_of_prefix_of_depth hpre htype hq rfl).symm
  · have hsame : r₁.component t q = r₂.component t q := by
      refine Value.component_assign_of_diverges ?_ hr₁ hr₂
      exact Value.diverges_symm hdiv
    rw [hq₁, hq₂] at hsame
    exact absurd (by simpa using hsame) hne

end DynamicType

end FastDdsSh
