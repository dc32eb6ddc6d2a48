import FastDdsSh.Conversion.Components

/-!
# A leaf at different positions

The switches over the kinds of leaves are written out for each position.  They agree, and use the
accessor for the C++ type of the leaf, except for wide characters and for signed bytes.
-/

namespace FastDdsSh

namespace LeafType

/-- The leaves for which the switches disagree or use the accessor for another C++ type. -/
def isIrregular (l : LeafType) : Bool :=
  match l with
  | .char16 | .wideChar | .int8 => true
  | _ => false

theorem readAs_of_regular {l : LeafType} (h : l.isIrregular = false) (p : Position) :
    l.readAs p = l.cppType := by
  cases l <;> first | rfl | cases h

theorem restoredAs_of_regular {l : LeafType} (h : l.isIrregular = false) (p : Position) :
    l.restoredAs p = l.cppType := by
  cases l <;> first | rfl | cases h

theorem restoredBy_of_regular {l : LeafType} (h : l.isIrregular = false) (p : Position) :
    (l.restoredBy p).cppType = l.cppType := by
  cases l <;> cases p <;> first | rfl | cases h

/-- An irregular leaf is read as something else at some position: a `char16` everywhere, a wide
character as an element, and a signed byte as a key or a value of a map. -/
theorem exists_readAs_ne {l : LeafType} (h : l.isIrregular = true) :
    ∃ p, l.readAs p ≠ l.cppType := by
  cases l with
  | char16 => exact ⟨.member, by decide⟩
  | wideChar => exact ⟨.arrayElement, by decide⟩
  | int8 => exact ⟨.entry, by decide⟩
  | _ => cases h

theorem restored_of_regular {l : LeafType} (h : l.isIrregular = false) (p : Position)
    (x : CppValue) : l.restored p x = l.cppType.cast (l.cppType.cast (l.cppType.cast x)) := by
  unfold restored
  rw [restoredAs_of_regular h, restoredBy_of_regular h]

end LeafType

variable [Xtypes] [Dds]

/-- Leaves of type `t`, which resolves to `l` and has the DDS type `D`, are converted alike at all
places, and with the accessors for the C++ type of the leaf. -/
structure PositionIndependent (t : DynamicType) (l : LeafType) (D : DdsLeaf) : Prop where
  encode : ∀ content, l.cppType.admits content = true → ∀ (p q : Place) (x y : CppValue),
    p.Holds (.leaf D) (.leaf D x) → q.Holds (.leaf D) (.leaf D y) →
      ∃ stored, XtypesToFastdds.encode t (.leaf content) p = .ok (p.put (.leaf D stored)) ∧
        XtypesToFastdds.encode t (.leaf content) q = .ok (q.put (.leaf D stored))
  decode : ∀ (x : CppValue) (p q : Place), p.Holds (.leaf D) (.leaf D x) →
    q.Holds (.leaf D) (.leaf D x) → ∀ (fuel : Nat) (v w : Value),
      ∃ content, FastddsToXtypes.decode fuel t p v = .ok (some (.leaf content)) ∧
        FastddsToXtypes.decode fuel t q w = .ok (some (.leaf content))
  accessors : ∀ p, l.readAs p = l.cppType ∧ l.restoredAs p = l.cppType

omit [Dds] in
theorem LeafType.readable_of_regular {l : LeafType} (h : l.isIrregular = false) (p : Position) :
    l.readable p = true := by
  rw [readable, readAs_of_regular h, accessibleAs, decide_eq_true rfl, Bool.true_or]

omit [Dds] in
theorem LeafType.writable_of_regular {l : LeafType} (h : l.isIrregular = false) (p : Position) :
    l.writable p = true := by
  rw [writable, restoredAs_of_regular h, accessibleAs, decide_eq_true rfl, Bool.true_or]

theorem positionIndependent_leafType {l : LeafType} (n : String) (h : l.isIrregular = false) :
    PositionIndependent (.leafType n l) l (l.getBuilder n) := by
  constructor
  · intro content hcontent p q x y hp hq
    have hencode {p : Place} {x : CppValue}
        (hp : p.Holds (.leaf (l.getBuilder n)) (.leaf (l.getBuilder n) x)) :
        XtypesToFastdds.encode (.leafType n l) (.leaf content) p =
          .ok (p.put (.leaf (l.getBuilder n) (l.ddsCppType.cast content))) := by
      have hset := XtypesToFastdds.setLeaf_outcome content hp
      rw [LeafType.readable_of_regular h, LeafType.stored_eq_cast hcontent] at hset
      exact hset.eq_ok_iff.mpr ⟨rfl, rfl⟩
    exact ⟨_, hencode hp, hencode hq⟩
  · intro x p q hp hq fuel v w
    have hdecode {p : Place} (hp : p.Holds (.leaf (l.getBuilder n)) (.leaf (l.getBuilder n) x))
        (v : Value) : FastddsToXtypes.decode fuel (.leafType n l) p v =
          .ok (some (.leaf (l.cppType.cast (l.cppType.cast (l.cppType.cast x))))) := by
      have hset := FastddsToXtypes.setLeaf_outcome v hp
      rw [LeafType.writable_of_regular h, LeafType.restored_of_regular h] at hset
      exact hset.eq_ok_iff.mpr ⟨rfl, rfl⟩
    exact ⟨_, hdecode hp v, hdecode hq w⟩
  · intro p
    exact ⟨LeafType.readAs_of_regular h p, LeafType.restoredAs_of_regular h p⟩

/-- A leaf type is converted alike everywhere exactly if it is, aliases resolved, none of `char16`,
the wide character and `int8`. -/
theorem positionIndependent_iff {t : DynamicType} {n : String} {l : LeafType} {D : DdsLeaf}
    (ht : t.resolve = .leafType n l) (hD : t.getBuilder = some (.leaf D)) :
    PositionIndependent t l D ↔ l.isIrregular = false := by
  constructor
  · intro h
    by_contra hirregular
    obtain ⟨p, hp⟩ := LeafType.exists_readAs_ne (Bool.not_eq_false _ ▸ hirregular)
    exact hp (h.accessors p).1
  · intro h
    have halike : ∀ fuel, Alike fuel t (.leafType n l) := fun fuel => ht ▸ alike_resolve fuel t
    rw [(halike 0).getBuilder] at hD
    cases hD
    have hleaf := positionIndependent_leafType n h
    constructor
    · intro content hcontent p q x y hp hq
      rw [(halike 0).encode, (halike 0).encode]
      exact hleaf.encode content hcontent p q x y hp hq
    · intro x p q hp hq fuel v w
      rw [(halike fuel).decode, (halike fuel).decode]
      exact hleaf.decode x p q hp hq fuel v w
    · exact hleaf.accessors

omit [Xtypes] [Dds]

theorem positionIndependent_longAlias :
    @PositionIndependent firstLabelXtypes zeroDds
      (.aliasType "Count" (.leafType "int32" .int32)) .int32 (.primitive .int32) :=
  (@positionIndependent_iff firstLabelXtypes zeroDds (.aliasType "Count" (.leafType "int32" .int32))
    "int32" .int32 (.primitive .int32) rfl rfl).mpr rfl

/-- The signed byte `-1` is stored as the member of a structure, but not as the value of a map; and
when a byte is read for it, it is an error to write the member of a union. -/
theorem not_positionIndependent_signedByte :
    (∃ stored, @XtypesToFastdds.encode firstLabelXtypes zeroDds (.leafType "int8" .int8)
        (.leaf (.integral (-1)))
        (.member (.composite (.struct [("x", .leaf (.primitive .byte))])
          [.leaf (.primitive .byte) (.integral 0)]) (some 0) false) = .ok stored) ∧
      @XtypesToFastdds.encode firstLabelXtypes zeroDds (.leafType "int8" .int8)
        (.leaf (.integral (-1))) (.whole (.leaf (.primitive .byte) (.integral 0))) =
          .error .exception ∧
      @FastddsToXtypes.decode firstLabelXtypes zeroDds 1 (.leafType "int8" .int8)
        (.member (.union (.union (.leaf (.primitive .int32)) [("x", .leaf (.primitive .byte))] []) 0
          (some 0) [.leaf (.primitive .byte) (.integral 255)]) (some 0) true)
        (.leaf (.integral 0)) = .error .exception ∧
      ¬ @PositionIndependent firstLabelXtypes zeroDds (.leafType "int8" .int8) .int8
        (.primitive .byte) := by
  refine ⟨⟨_, rfl⟩, rfl, rfl, ?_⟩
  intro h
  have hall := @PositionIndependent.encode firstLabelXtypes zeroDds _ _ _ h (.integral (-1)) rfl
  obtain ⟨stored, -, hvalue⟩ := hall (.whole (.leaf (.primitive .byte) (.integral 0)))
    (.whole (.leaf (.primitive .byte) (.integral 0))) (.integral 0) (.integral 0) rfl rfl
  cases hvalue

end FastDdsSh
