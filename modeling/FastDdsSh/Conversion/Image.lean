import FastDdsSh.Conversion.Aggregations
import FastDdsSh.Conversion.Arrays

/-!
# The DDS content of a value

What can be observed of DDS data once a value has been converted into it, as a function of the value
alone, and the data that a conversion can be made into.  The components of an array whose elements
are declared as an alias of an array are never reached by a store.
-/

namespace FastDdsSh

/-! ## What can be observed -/

namespace DdsData

mutual

/-- Of a union only the discriminator, the active member and the content of that member. -/
def observable : DdsData → DdsData
  | leaf l v => leaf l v
  | composite t cs => composite t (observables cs)
  | union t n a cs => union t n a (activeObservable a cs)

def observables : List DdsData → List DdsData
  | [] => []
  | c :: cs => c.observable :: observables cs

def activeObservable : MemberId → List DdsData → List DdsData
  | some 0, c :: _ => [c.observable]
  | some (i + 1), _ :: cs => activeObservable (some i) cs
  | _, _ => []

end

theorem observables_eq_map (cs : List DdsData) : observables cs = cs.map observable := by
  induction cs with
  | nil => rfl
  | cons c cs ih => rw [observables, ih, List.map_cons]

theorem activeObservable_of_getElem? {cs : List DdsData} {i : Nat} {c : DdsData}
    (h : cs[i]? = some c) : activeObservable (some i) cs = [c.observable] := by
  induction cs generalizing i with
  | nil => cases h
  | cons d cs ih =>
    cases i with
    | zero =>
      cases h
      rfl
    | succ i => exact ih h

end DdsData

namespace DynamicType

def ddsType (t : DynamicType) : DdsType :=
  t.getBuilder.getD (.struct [])

theorem ddsType_of_getBuilder {t : DynamicType} {T : DdsType} (h : t.getBuilder = some T) :
    t.ddsType = T := by
  rw [ddsType, h, Option.getD_some]

/-! ## The content -/

variable [Dds]

mutual

/-- The observable DDS content of a value; with `inArray`, the components that it takes up as the
element of an array.  A map from anything but leaves keeps one entry, with a fresh key. -/
def image : DynamicType → Bool → Value → List DdsData
  | leafType n l, _, .leaf content => [.leaf (l.getBuilder n) (l.ddsCppType.cast content)]
  | aliasType _ t, inArray, v =>
      if inArray && t.isArray then [t.ddsType.createData.observable] else t.image inArray v
  | arrayType n t d, inArray, .list vs =>
      if inArray then vs.flatMap (t.image true)
      else [.composite (arrayType n t d).ddsType (vs.flatMap (t.image true))]
  | sequenceType n t b, _, .list vs =>
      [.composite (sequenceType n t b).ddsType (vs.flatMap (t.image false))]
  | mapType n k t b, _, .map es =>
      if k.isLeaf then
        [.composite (mapType n k t b).ddsType
          (es.flatMap fun e => k.image false e.1 ++ t.image false e.2)]
      else
        [.composite (mapType n k t b).ddsType
          ((es.take 1).flatMap fun e => k.ddsType.createData.observable :: t.image false e.2)]
  | structType n ms, _, .struct fields =>
      [.composite (structType n ms).ddsType (imageOfMembers ms fields)]
  | unionType n d ms cs, _, .union x c v =>
      let U := (unionType n d ms cs).ddsType
      let discriminator :=
        if d.isDiscriminator then (x % 2 ^ 64).toNat else (Dds.initialMember U).1
      [.union U discriminator (U.members.findIdx? fun m => m.1 = c) (imageOfCase ms c v)]
  | _, _, _ => []

def imageOfMembers : List (String × DynamicType) → List (String × Value) → List DdsData
  | (_, t) :: ms, (_, v) :: fields => t.image false v ++ imageOfMembers ms fields
  | _, _ => []

def imageOfCase : List (String × DynamicType) → String → Value → List DdsData
  | [], _, _ => []
  | (m, t) :: ms, c, v => if m = c then t.image false v else imageOfCase ms c v

end

/-! ## Data that can be converted into -/

mutual

/-- Data, or a component of an array, that has been converted into any number of times: what no
store reaches is as it was created. -/
def Reusable : DynamicType → Bool → DdsData → Prop
  | leafType n l, _, x => ∃ content, x = .leaf (l.getBuilder n) content
  | bitsetType _, _, _ => False
  | aliasType _ t, inArray, x =>
      if inArray && t.isArray then x = t.ddsType.createData else t.Reusable inArray x
  | arrayType n t d, inArray, x =>
      if inArray then t.Reusable true x
      else ∃ E bounds cs, (arrayType n t d).getBuilder = some (.array E bounds) ∧
        x = .composite (.array E bounds) cs ∧ cs.length = bounds.prod ∧ ∀ c ∈ cs, t.Reusable true c
  | sequenceType n t b, _, x => ∃ cs, x = .composite (sequenceType n t b).ddsType cs
  | mapType n k t b, _, x => ∃ cs, x = .composite (mapType n k t b).ddsType cs
  | structType n ms, _, x =>
      ∃ cs, x = .composite (structType n ms).ddsType cs ∧ ReusableMembers ms cs
  | unionType n d ms cases, _, x =>
      ∃ k a cs, x = .union (unionType n d ms cases).ddsType k a cs ∧
        (d.isDiscriminator = false →
          k = (Dds.initialMember (unionType n d ms cases).ddsType).1) ∧ ReusableMembers ms cs

def ReusableMembers : List (String × DynamicType) → List DdsData → Prop
  | [], cs => cs = []
  | (_, t) :: ms, cs => ∃ c rest, cs = c :: rest ∧ t.Reusable false c ∧ ReusableMembers ms rest

end

theorem reusableMembers_iff {ms : List (String × DynamicType)} {cs : List DdsData} :
    ReusableMembers ms cs ↔ List.Forall₂ (fun m c => m.2.Reusable false c) ms cs := by
  induction ms generalizing cs with
  | nil => exact List.forall₂_nil_left_iff.symm
  | cons head ms ih =>
    rw [ReusableMembers, List.forall₂_cons_left_iff]
    simp only [ih]
    constructor
    · rintro ⟨c, rest, rfl, hc, hrest⟩
      exact ⟨c, rest, hc, hrest, rfl⟩
    · rintro ⟨c, rest, hc, hrest, rfl⟩
      exact ⟨c, rest, rfl, hc, hrest⟩

/-- Only arrays and their aliases are something else as the element of an array. -/
theorem reusable_inArray {t : DynamicType} (ht : t.isArray = false) (x : DdsData) :
    t.Reusable true x ↔ t.Reusable false x := by
  induction t using DynamicType.resolve.induct with
  | case1 n t ih =>
    have hnot : t.isArray = false := ht
    rw [Reusable, Reusable, hnot]
    exact ih hnot
  | case2 t h =>
    cases t with
    | arrayType n t d => cases ht
    | aliasType n t => exact absurd rfl (h n t)
    | leafType | bitsetType | sequenceType | mapType | structType | unionType => rfl

theorem image_inArray {t : DynamicType} (ht : t.isArray = false) (v : Value) :
    t.image true v = t.image false v := by
  induction t using DynamicType.resolve.induct with
  | case1 n t ih =>
    have hnot : t.isArray = false := ht
    rw [image, image, hnot]
    exact ih hnot
  | case2 t h =>
    cases t with
    | arrayType n t d => cases ht
    | aliasType n t => exact absurd rfl (h n t)
    | leafType | bitsetType | sequenceType | mapType | structType | unionType =>
      cases v <;> simp [image]

theorem reusableMembers_createMembers {ms : List (String × DynamicType)}
    (hbuilt : ∀ m ∈ ms, m.2.isBuilt = true)
    (h : ∀ m ∈ ms, ∀ T, m.2.getBuilder = some T → m.2.Reusable false T.createData) :
    ReusableMembers ms (DdsType.createMembers (getMemberBuilders ms)) := by
  induction ms with
  | nil => rfl
  | cons head ms ih =>
    obtain ⟨T, hT⟩ := Option.isSome_iff_exists.mp
      (getBuilder_isSome_of_isBuilt (hbuilt _ List.mem_cons_self))
    rw [getMemberBuilders_cons hT]
    refine ⟨T.createData, _, rfl, h _ List.mem_cons_self T hT, ?_⟩
    exact ih (fun m hm => hbuilt m (List.mem_cons_of_mem _ hm))
      fun m hm => h m (List.mem_cons_of_mem _ hm)

/-- Fresh data can be converted into, and so can the components of a fresh array. -/
theorem reusable_createData {t : DynamicType} (h : t.isBuilt = true) :
    (∀ T, t.getBuilder = some T → t.Reusable false T.createData) ∧
      ∀ B E, ArrayContent t B E → t.Reusable true E.createData := by
  -- for all types but arrays an element is like any other component
  have hother {t : DynamicType} (hnot : t.isArray = false)
      (ht : ∀ T, t.getBuilder = some T → t.Reusable false T.createData) :
      (∀ T, t.getBuilder = some T → t.Reusable false T.createData) ∧
        ∀ B E, ArrayContent t B E → t.Reusable true E.createData := by
    refine ⟨ht, fun B E hcontent => ?_⟩
    rw [reusable_inArray hnot]
    exact ht E (arrayContent_of_not_isArray hnot hcontent).2
  induction t using inductionOn with
  | leafType n l =>
    apply hother rfl
    intro T hT
    cases hT
    exact ⟨_, rfl⟩
  | bitsetType n => cases h
  | aliasType n t ih =>
    obtain ⟨hwhole, -⟩ := ih h
    constructor
    · exact hwhole
    · intro B E hcontent
      have hE : t.getBuilder = some E := hcontent.2
      rw [Reusable]
      by_cases ht : t.isArray = true
      · rw [ht, Bool.and_self, if_pos rfl, ddsType_of_getBuilder hE]
      · rw [Bool.not_eq_true] at ht
        rw [ht, Bool.and_false, if_neg Bool.false_ne_true, reusable_inArray ht]
        exact hwhole E hE
  | arrayType n t d ih =>
    obtain ⟨-, helement⟩ := ih h
    constructor
    · intro T hT
      obtain ⟨B, E, hcontent, rfl⟩ := arrayContent_of_getBuilder hT
      refine ⟨E, d :: B, _, hT, rfl, List.length_replicate, ?_⟩
      intro c hc
      rw [List.eq_of_mem_replicate hc]
      exact helement B E hcontent
    · intro B E hcontent
      obtain ⟨B', E', hcontent', heq⟩ := arrayContent_of_getBuilder
        (show (arrayType n t d).getBuilder = some (.array E B) from hcontent)
      cases heq
      rw [Reusable, if_pos rfl]
      exact helement B' E hcontent'
  | sequenceType n t b ih =>
    apply hother rfl
    intro T hT
    obtain ⟨E, -, rfl⟩ := Option.map_eq_some_iff.mp hT
    exact ⟨[], by rw [ddsType_of_getBuilder hT]; rfl⟩
  | mapType n k t b ihk iht =>
    apply hother rfl
    intro T hT
    obtain ⟨K, -, hT'⟩ := Option.bind_eq_some_iff.mp hT
    obtain ⟨V, -, rfl⟩ := Option.map_eq_some_iff.mp hT'
    exact ⟨[], by rw [ddsType_of_getBuilder hT]; rfl⟩
  | structType n ms ih =>
    rw [isBuilt, Bool.and_eq_true] at h
    have hbuilt : ∀ m ∈ ms, m.2.isBuilt = true := fun m hm => isBuilt_of_mem h.2 hm
    apply hother rfl
    intro T hT
    cases hT
    refine ⟨_, rfl, reusableMembers_createMembers hbuilt ?_⟩
    exact fun m hm => (ih m hm (hbuilt m hm)).1
  | unionType n d ms cs ihd ih =>
    rw [isBuilt, Bool.and_eq_true] at h
    have hbuilt : ∀ m ∈ ms, m.2.isBuilt = true := fun m hm => isBuilt_of_mem h.2 hm
    apply hother rfl
    intro T hT
    obtain ⟨D, -, rfl⟩ := Option.map_eq_some_iff.mp hT
    refine ⟨_, _, _, by rw [ddsType_of_getBuilder hT]; rfl, fun _ => ?_,
      reusableMembers_createMembers hbuilt fun m hm => (ih m hm (hbuilt m hm)).1⟩
    rw [ddsType_of_getBuilder hT]

end DynamicType

end FastDdsSh
