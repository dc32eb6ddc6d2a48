import FastDdsSh.Lib.Memo
import FastDdsSh.Conversion.Builder

/-!
# The builders that are kept

`create_builder` keeps its results in a static map under the names of the types, for all the system
handles of the process.  Types are told apart by their names there, as they are wherever this system
handle keeps them, so of two types with one name the first decides.
-/

namespace FastDdsSh

/-- What `create_builder` makes of a type when nothing is kept: `get_builder`, renamed. -/
def DynamicType.freshBuilder (t : DynamicType) : Option Builder :=
  t.getBuilder.map fun type => ⟨convertTypeName t.name, type⟩

def createBuilders (builders : KeyedStore String Builder) : List DynamicType → List (Option Builder)
  | [] => []
  | t :: types =>
      let result := createBuilder builders t
      result.1 :: createBuilders result.2 types

theorem createBuilder_empty (t : DynamicType) :
    (createBuilder KeyedStore.empty t).1 = t.freshBuilder := by
  unfold createBuilder DynamicType.freshBuilder
  cases t.getBuilder <;> rfl

/-- `create_builder` keeps what it makes under the name of the type. -/
theorem createBuilder_eq_call (builders : KeyedStore String Builder) (t : DynamicType) :
    createBuilder builders t = Memo.call DynamicType.name DynamicType.freshBuilder builders t := by
  unfold createBuilder Memo.call DynamicType.freshBuilder
  cases builders t.name with
  | some builder => rfl
  | none => cases t.getBuilder <;> rfl

theorem createBuilders_eq_results (builders : KeyedStore String Builder)
    (types : List DynamicType) :
    createBuilders builders types =
      Memo.results DynamicType.name DynamicType.freshBuilder builders types := by
  induction types generalizing builders with
  | nil => rfl
  | cons t types ih => rw [createBuilders, Memo.results, ih, createBuilder_eq_call]

/-- Of types with one name the builders are the same exactly if the DDS types are. -/
theorem freshBuilder_eq_iff {t u : DynamicType} (hname : u.name = t.name) :
    ((u.freshBuilder).isSome = true → t.freshBuilder = u.freshBuilder) ↔
      (u.getBuilder.isSome = true → t.getBuilder = u.getBuilder) := by
  unfold DynamicType.freshBuilder
  rw [Option.isSome_map, hname]
  refine imp_congr_right fun _ => ⟨fun h => ?_, fun h => by rw [h]⟩
  exact Option.map_injective (fun T U hTU => congrArg Builder.type hTU) h

/-- Every call of a sequence gives what it would give with nothing kept exactly if no type comes
after one that has the same name and another DDS type. -/
theorem createBuilders_coherent_iff (types : List DynamicType) :
    createBuilders KeyedStore.empty types =
        types.map (fun t => (createBuilder KeyedStore.empty t).1) ↔
      types.Pairwise fun u t =>
        u.name = t.name → u.getBuilder.isSome = true → t.getBuilder = u.getBuilder := by
  have hfresh : (fun t => (createBuilder KeyedStore.empty t).1) = DynamicType.freshBuilder :=
    funext createBuilder_empty
  rw [createBuilders_eq_results, hfresh, Memo.results_empty_eq_map_iff]
  apply List.Pairwise.iff
  intro u t
  exact forall_congr' fun hname => freshBuilder_eq_iff hname

def pointOf (members : List String) : DynamicType :=
  .structType "Point" (members.map fun m => (m, .leafType "int32_t" .int32))

/-- The points in space get the builder that was made for the points in the plane. -/
theorem not_createBuilders_coherent :
    ¬ ∀ types : List DynamicType, createBuilders KeyedStore.empty types =
      types.map fun t => (createBuilder KeyedStore.empty t).1 := by
  intro h
  have hlengths := congrArg
    (List.map fun builder => builder.map fun b : Builder => b.type.members.length)
    (h [pointOf ["x", "y"], pointOf ["x", "y", "z"]])
  revert hlengths
  decide +kernel

end FastDdsSh
