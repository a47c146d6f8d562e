import Capnp.Library.DepthFirst
import Capnp.Plugin.Imports
import Mathlib.Data.List.Perm.Basic

/-! The recursive structs of a generated file, which get no value type. Each struct is searched
for a way back to itself along the struct types of its fields.
-/

namespace Capnp.Plugin

-----------------------------------------------------------------------------------------
-- The search
-----------------------------------------------------------------------------------------

/-- A struct of the loader with its fields. -/
structure StructSchema (schemaLoader : SchemaLoader) where
  id : UInt64
  fields : List Field
  isStruct : ∃ node, schemaLoader.lookup id = some node ∧ node.kind = .struct fields

/-- The order in which the elements of an unordered set come. -/
structure SetOrder where
  walk : List UInt64 → List UInt64
  perm : ∀ elements, (walk elements).Perm elements

def collectStructDepsFromType : SchemaType → List UInt64 → List UInt64
  | .struct id, deps => deps.insert id
  | .list elementType, deps => collectStructDepsFromType elementType deps
  | _, deps => deps

section Search

variable {schemaLoader : SchemaLoader}

def collectStructDeps (schema : StructSchema schemaLoader) : List UInt64 :=
  schema.fields.foldl (fun deps field => collectStructDepsFromType field.type deps) []

variable (order : SetOrder) (structSchemas : List (StructSchema schemaLoader))

/-- A struct that is listed again takes its last place. -/
def indexById : Table UInt64 Nat :=
  structSchemas.zipIdx.foldl (fun indices entry => indices.insert entry.1.id entry.2) ∅

/-- Only the structs of the list are indexed, and only they are led to. -/
def edges : List (List Nat) :=
  structSchemas.map (fun schema =>
    (order.walk (collectStructDeps schema)).filterMap
      (fun depId => (indexById structSchemas).lookup depId))

/-- The structs that an edge leads to. -/
def successors (current : Nat) : List Nat :=
  (edges order structSchemas)[current]?.getD []

/-- The search from one struct for itself, with nothing seen yet. -/
def dfs (index : Nat) : Option (Bool × List Nat) :=
  DepthFirst.search (successors order structSchemas) index (structSchemas.length + 1) [] index

def findRecursiveStructs : Option (List UInt64) :=
  structSchemas.zipIdx.foldlM
    (fun recursive entry =>
      (dfs order structSchemas entry.2).map (fun searched =>
        if searched.1 then recursive.insert entry.1.id else recursive))
    []

end Search

-----------------------------------------------------------------------------------------
-- Dependencies
-----------------------------------------------------------------------------------------

/-- A value of the type holds a struct, if only as an element of its lists. -/
inductive SchemaType.Holds : SchemaType → UInt64 → Prop
  | struct (id : UInt64) : SchemaType.Holds (.struct id) id
  | list {elementType : SchemaType} {id : UInt64} (element : SchemaType.Holds elementType id)
    : SchemaType.Holds (.list elementType) id

section Dependencies

variable {schemaLoader : SchemaLoader}

/-- Two structs of the list, the first with a field that holds the second. A group is a field
whose type is the struct of the group.
-/
def Dependency (structSchemas : List (StructSchema schemaLoader)) (id depId : UInt64) : Prop :=
  ∃ schema ∈ structSchemas,
    schema.id = id
    ∧ (∃ field ∈ schema.fields, field.type.Holds depId)
    ∧ ∃ dep ∈ structSchemas, dep.id = depId

/-- A schema's fields are known by its id. -/
theorem StructSchema.fields_eq {schema other : StructSchema schemaLoader}
    (same : schema.id = other.id)
    : schema.fields = other.fields := by
  obtain ⟨node, found, kind⟩ := schema.isStruct
  obtain ⟨again, foundAgain, kindAgain⟩ := other.isStruct
  rw [same, foundAgain] at found
  obtain rfl := Option.some.inj found
  exact NodeKind.struct.inj (kind.symm.trans kindAgain)

/-- The dependencies of all structs of the loader. -/
def SchemaLoader.StructDependency (schemaLoader : SchemaLoader) (id depId : UInt64) : Prop :=
  ∃ schema : StructSchema schemaLoader,
    schema.id = id ∧ ∃ field ∈ schema.fields, field.type.Holds depId

/-- In a list that holds what its structs depend on, the paths from a struct of the list are
those of the loader.
-/
theorem transGen_dependency_iff_of_closed {structSchemas : List (StructSchema schemaLoader)}
    (closed
      : ∀ schema ∈ structSchemas, ∀ field ∈ schema.fields, ∀ depId,
          field.type.Holds depId → ∃ dep ∈ structSchemas, dep.id = depId)
    {schema : StructSchema schemaLoader} (member : schema ∈ structSchemas) {id : UInt64}
    : Relation.TransGen (Dependency structSchemas) schema.id id
      ↔ Relation.TransGen schemaLoader.StructDependency schema.id id := by
  have step {listed : StructSchema schemaLoader} (member : listed ∈ structSchemas) {depId : UInt64}
      (dependency : schemaLoader.StructDependency listed.id depId)
      : Dependency structSchemas listed.id depId := by
    obtain ⟨same, ids, field, fieldMember, holds⟩ := dependency
    rw [StructSchema.fields_eq ids] at fieldMember
    exact
      ⟨listed, member, rfl, ⟨field, fieldMember, holds⟩,
        closed listed member field fieldMember depId holds⟩
  constructor
  · refine Relation.TransGen.mono (fun id depId dependency => ?_) _ _
    obtain ⟨holder, _, same, holds, _⟩ := dependency
    exact ⟨holder, same, holds⟩
  · intro path
    induction path with
    | single dependency => exact .single (step member dependency)
    | tail _ dependency ih =>
        obtain ⟨_, _, _, _, _, _, dep, listed, rfl⟩ := Relation.TransGen.tail'_iff.mp ih
        exact .tail ih (step listed dependency)

/-- A type adds the struct that it holds. -/
theorem mem_collectStructDepsFromType {type : SchemaType} {deps : List UInt64} {id : UInt64}
    : id ∈ collectStructDepsFromType type deps ↔ type.Holds id ∨ id ∈ deps := by
  induction type with
  | struct other =>
      rw [collectStructDepsFromType, List.mem_insert_iff]
      refine or_congr_left ⟨?_, ?_⟩
      · rintro rfl
        exact .struct id
      · intro holds
        cases holds
        rfl
  | list elementType ih =>
      rw [collectStructDepsFromType, ih]
      refine or_congr_left ⟨.list, ?_⟩
      intro holds
      cases holds with
      | list element => exact element
  | _ =>
      refine ⟨.inr, ?_⟩
      rintro (holds | member)
      · cases holds
      · exact member

/-- A struct depends on those that its fields hold. -/
theorem mem_collectStructDeps {schema : StructSchema schemaLoader} {id : UInt64}
    : id ∈ collectStructDeps schema ↔ ∃ field ∈ schema.fields, field.type.Holds id := by
  have collected (fields : List Field) (deps : List UInt64)
      : id ∈ fields.foldl (fun deps field => collectStructDepsFromType field.type deps) deps
        ↔ (∃ field ∈ fields, field.type.Holds id) ∨ id ∈ deps := by
    induction fields generalizing deps with
    | nil => simp
    | cons field rest ih =>
        rw [List.foldl_cons, ih, mem_collectStructDepsFromType]
        simp only [List.mem_cons, exists_eq_or_imp, or_assoc, or_left_comm]
  rw [collectStructDeps, collected]
  simp only [List.not_mem_nil, or_false]

end Dependencies

-----------------------------------------------------------------------------------------
-- Indices and ids
-----------------------------------------------------------------------------------------

section Indices

variable {schemaLoader : SchemaLoader} {structSchemas : List (StructSchema schemaLoader)}
  {order : SetOrder}

/-- An index is the place of a struct with its id, by induction on what is inserted. -/
theorem getElem?_of_indexById {id : UInt64} {index : Nat}
    (indexed : (indexById structSchemas).lookup id = some index)
    : ∃ schema, structSchemas[index]? = some schema ∧ schema.id = id := by
  have placed (entries : List (StructSchema schemaLoader × Nat)) (indices : Table UInt64 Nat)
      (indexed
        : (entries.foldl (fun indices entry => indices.insert entry.1.id entry.2) indices).lookup id
          = some index)
      : (∃ entry ∈ entries, entry.1.id = id ∧ entry.2 = index)
        ∨ indices.lookup id = some index := by
    induction entries generalizing indices with
    | nil => exact .inr indexed
    | cons entry rest ih =>
        rcases ih _ indexed with ⟨other, member, found⟩ | earlier
        · exact .inl ⟨other, List.mem_cons_of_mem _ member, found⟩
        · by_cases same : id = entry.1.id
          · subst same
            rw [AList.lookup_insert] at earlier
            exact .inl ⟨entry, List.mem_cons_self, rfl, Option.some.inj earlier⟩
          · exact .inr (by rwa [AList.lookup_insert_ne same] at earlier)
  rcases placed _ _ indexed with ⟨⟨schema, place⟩, member, same, rfl⟩ | absent
  · exact ⟨schema, List.mem_zipIdx_iff_getElem?.mp member, same⟩
  · cases absent

/-- Every struct of the list has an index. -/
theorem exists_indexById {schema : StructSchema schemaLoader} (member : schema ∈ structSchemas)
    : ∃ index, (indexById structSchemas).lookup schema.id = some index := by
  have indexed (entries : List (StructSchema schemaLoader × Nat)) (indices : Table UInt64 Nat)
      (known : (∃ entry ∈ entries, entry.1.id = schema.id) ∨ schema.id ∈ indices)
      : schema.id
        ∈ entries.foldl (fun indices entry => indices.insert entry.1.id entry.2) indices := by
    induction entries generalizing indices with
    | nil => simpa using known
    | cons entry rest ih =>
        refine ih _ ?_
        rw [AList.mem_insert]
        rcases known with ⟨other, listed, same⟩ | earlier
        · rcases List.mem_cons.mp listed with rfl | listed
          · exact .inr (.inl same.symm)
          · exact .inl ⟨other, listed, same⟩
        · exact .inr (.inr earlier)
  obtain ⟨place, found⟩ := List.mem_iff_getElem?.mp member
  have listed : (schema, place) ∈ structSchemas.zipIdx := List.mem_zipIdx_iff_getElem?.mpr found
  exact Option.isSome_iff_exists.mp (AList.lookup_isSome.mpr (indexed _ _ (.inl ⟨_, listed, rfl⟩)))

/-- The successors of an index are those of its dependencies that have one. -/
theorem mem_successors_iff {current index : Nat}
    : index ∈ successors order structSchemas current
      ↔ ∃ schema depId,
          structSchemas[current]? = some schema
          ∧ (∃ field ∈ schema.fields, field.type.Holds depId)
          ∧ (indexById structSchemas).lookup depId = some index := by
  rw [successors, edges, List.getElem?_map]
  cases structSchemas[current]? with
  | none => simp
  | some schema =>
      simp only [Option.map_some, Option.getD_some, List.mem_filterMap, (order.perm _).mem_iff,
        mem_collectStructDeps, Option.some.injEq, exists_and_left, exists_eq_left']

/-- What is at the place of an index, and what index an id has. -/
def idAt (structSchemas : List (StructSchema schemaLoader)) (index : Nat) : UInt64 :=
  (structSchemas[index]?.map StructSchema.id).getD 0

def indexOf (structSchemas : List (StructSchema schemaLoader)) (id : UInt64) : Nat :=
  ((indexById structSchemas).lookup id).getD 0

/-- An edge is a dependency. -/
theorem dependency_of_edge {current index : Nat}
    (edge : DepthFirst.Edge (successors order structSchemas) current index)
    : Dependency structSchemas (idAt structSchemas current) (idAt structSchemas index) := by
  obtain ⟨schema, depId, found, holds, indexed⟩ := mem_successors_iff.mp edge
  obtain ⟨dep, place, rfl⟩ := getElem?_of_indexById indexed
  simp only [idAt, found, place, Option.map_some, Option.getD_some]
  exact
    ⟨schema, List.mem_of_getElem? found, rfl, holds, dep, List.mem_of_getElem? place, rfl⟩

/-- A dependency is an edge. -/
theorem edge_of_dependency (order : SetOrder) {id depId : UInt64}
    (dependency : Dependency structSchemas id depId)
    : DepthFirst.Edge (successors order structSchemas) (indexOf structSchemas id)
        (indexOf structSchemas depId) := by
  obtain ⟨schema, member, rfl, holds, dep, depMember, rfl⟩ := dependency
  obtain ⟨place, indexed⟩ := exists_indexById member
  obtain ⟨index, depIndexed⟩ := exists_indexById depMember
  obtain ⟨same, found, ids⟩ := getElem?_of_indexById indexed
  simp only [indexOf, indexed, depIndexed, Option.getD_some]
  exact
    mem_successors_iff.mpr ⟨same, dep.id, found, StructSchema.fields_eq ids ▸ holds, depIndexed⟩

/-- The search finds a struct again exactly if there is a cycle, and ends. -/
theorem dfs_spec (order : SetOrder) {index : Nat} (inside : index < structSchemas.length)
    : ∃ found seen,
        dfs order structSchemas index = some (found, seen)
        ∧ (found = true
          ↔ Relation.TransGen (DepthFirst.Edge (successors order structSchemas)) index index) := by
  have closed : ∀ current ∈ List.range structSchemas.length,
      successors order structSchemas current ⊆ List.range structSchemas.length := by
    intro current _ next member
    obtain ⟨_, _, _, _, indexed⟩ := mem_successors_iff.mp member
    obtain ⟨_, place, _⟩ := getElem?_of_indexById indexed
    exact List.mem_range.mpr (List.getElem?_eq_some_iff.mp place).1
  have spec := DepthFirst.search_spec index closed (List.mem_range.mpr inside)
  rwa [List.length_range] at spec

/-- What the loop over the structs collects, by induction on those that are left. -/
theorem exists_foldlM_dfs (order : SetOrder) (entries : List (StructSchema schemaLoader × Nat))
    (recursive : List UInt64) (inside : ∀ entry ∈ entries, entry.2 < structSchemas.length)
    : ∃ collected,
        entries.foldlM
            (fun recursive entry =>
              (dfs order structSchemas entry.2).map (fun searched =>
                if searched.1 then recursive.insert entry.1.id else recursive))
            recursive
          = some collected
        ∧ ∀ id,
            id ∈ collected
            ↔ id ∈ recursive
              ∨ ∃ entry ∈ entries,
                  entry.1.id = id
                  ∧ Relation.TransGen (DepthFirst.Edge (successors order structSchemas))
                      entry.2 entry.2 := by
  induction entries generalizing recursive with
  | nil => exact ⟨recursive, rfl, by simp⟩
  | cons entry rest ih =>
      obtain ⟨found, seen, searched, spec⟩ :=
        dfs_spec order (inside entry List.mem_cons_self)
      obtain ⟨collected, done, members⟩ :=
        ih (if found then recursive.insert entry.1.id else recursive)
          (fun other member => inside other (List.mem_cons_of_mem _ member))
      refine ⟨collected, ?_, fun id => ?_⟩
      · rw [List.foldlM_cons, searched]
        exact done
      · rw [members id]
        simp only [List.mem_cons, exists_eq_or_imp, ← spec]
        cases found with
        | true => simp only [if_true, List.mem_insert_iff]; tauto
        | false => simp

/-- The recursive structs are those on a cycle of dependencies, in whatever order the sets of
dependencies are walked.
-/
theorem mem_findRecursiveStructs_iff (schemaLoader : SchemaLoader) (order : SetOrder)
    (structSchemas : List (StructSchema schemaLoader))
    : ∃ recursive,
        findRecursiveStructs order structSchemas = some recursive
        ∧ ∀ id,
            id ∈ recursive ↔ Relation.TransGen (Dependency structSchemas) id id := by
  obtain ⟨recursive, done, members⟩ :=
    exists_foldlM_dfs order structSchemas.zipIdx [] (fun entry member =>
      (List.getElem?_eq_some_iff.mp (List.mem_zipIdx_iff_getElem?.mp member)).1)
  refine ⟨recursive, done, fun id => ?_⟩
  simp only [members, List.not_mem_nil, false_or]
  constructor
  · rintro ⟨⟨schema, index⟩, member, rfl, cycle⟩
    have place := List.mem_zipIdx_iff_getElem?.mp member
    have lifted :=
      Relation.TransGen.lift (idAt structSchemas) (fun _ _ => dependency_of_edge) _ _ cycle
    simpa [Function.onFun, idAt, place] using lifted
  · intro cycle
    obtain ⟨_, ⟨schema, member, rfl, _⟩, _⟩ := Relation.TransGen.head'_iff.mp cycle
    obtain ⟨index, indexed⟩ := exists_indexById member
    obtain ⟨same, place, ids⟩ := getElem?_of_indexById indexed
    have lifted :=
      Relation.TransGen.lift (indexOf structSchemas)
        (fun _ _ => edge_of_dependency order) _ _ cycle
    simp only [Function.onFun, indexOf, indexed, Option.getD_some] at lifted
    exact ⟨(same, index), List.mem_zipIdx_iff_getElem?.mpr place, ids, lifted⟩

end Indices

end Capnp.Plugin
