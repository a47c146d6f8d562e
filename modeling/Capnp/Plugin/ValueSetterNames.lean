import Capnp.Library.ByteString
import Capnp.Plugin.DrawnNames
import Capnp.Plugin.Imports

/-! The names of the definitions that are generated for the fields of a struct. Three functions of
the generator draw names for the setters, each from the fields alone; `setFromValue` calls what
the others emit. The projections of the emitted structures and the constants of annotations,
which are named after the annotations, are left out.
-/

namespace Capnp.Plugin

open ByteString

-----------------------------------------------------------------------------------------
-- Fields
-----------------------------------------------------------------------------------------

/-- `hasDefault`: there is a pointer literal for the default value. -/
structure NamedField where
  name : List UInt8
  kind : FieldKind
  hasDefault : Bool

namespace NamedField

def base (field : NamedField) : String :=
  capitalizeIdentifier (sanitizeIdentifier field.name)

def getName (field : NamedField) : String := "get" ++ field.base

def hasName (field : NamedField) : String := "has" ++ field.base

def defaultName (field : NamedField) : String := "_default_" ++ sanitizeIdentifier field.name

def setName (field : NamedField) : String := "set" ++ field.base

def readerSetName (field : NamedField) : String := field.setName ++ "FromReaders"

def initName (field : NamedField) : String := "init" ++ field.base

def clearName (field : NamedField) : String := "clear" ++ field.base

end NamedField

def SchemaType.isPointerType : SchemaType → Bool
  | .text | .data | .struct _ | .list _ | .anyPointer => true
  | _ => false

def SchemaType.listContainsStruct : SchemaType → Bool
  | .struct _ => true
  | .list elementType => elementType.listContainsStruct
  | _ => false

/-- Groups have no pointer of their own. -/
def FieldKind.isPointer : FieldKind → Bool
  | .slot type => type.isPointerType
  | .group _ => false

-----------------------------------------------------------------------------------------
-- Names drawn for the fields
-----------------------------------------------------------------------------------------

section Loops

variable (fields : List NamedField)

def accessorNames : List (List String) × List String :=
  drawByField (fields.map (fun field => [field.getName])) []

def checkedAccessorNames : List (List String) × List String :=
  let (accessors, usedAccessors) := accessorNames fields
  drawByField (accessors.map (fun accessor => accessor.map (fun name => name ++ "Checked")))
    usedAccessors

def viewBases (field : NamedField) (accessor : List String) : List String :=
  match field.kind with
  | .slot .text | .slot .data =>
      accessor.flatMap (fun name => [name ++ "View", name ++ "ViewChecked"])
  | _ => []

def viewNames : List (List String) × List String :=
  let (accessors, _) := accessorNames fields
  let (_, usedAccessors) := checkedAccessorNames fields
  drawByField ((fields.zip accessors).map (fun entry => viewBases entry.1 entry.2)) usedAccessors

def hasNames : List (List String) × List String :=
  drawByField (fields.map (fun field => if field.kind.isPointer then [field.hasName] else [])) []

def defaultNames : List (List String) × List String :=
  drawByField
    (fields.map (fun field =>
      if field.kind.isPointer && field.hasDefault then [field.defaultName] else [])) []

/-- The setter of a field and the one from readers, as `genStruct` and
`genDeferredValueListSetters` draw them.
-/
def setterNames : List (List String) × List String :=
  drawByField (fields.map (fun field => [field.setName, field.readerSetName])) []

/-- The setters that `genSetFromValue` draws. -/
def calledSetterNames : List (List String) × List String :=
  drawByField (fields.map (fun field => [field.setName])) []

def initNames : List (List String) × List String :=
  drawByField (fields.map (fun field => [field.initName])) []

def clearNames : List (List String) × List String :=
  drawByField (fields.map (fun field => if field.kind.isPointer then [field.clearName] else [])) []

end Loops

-----------------------------------------------------------------------------------------
-- Emitted definitions
-----------------------------------------------------------------------------------------

/-- The namespace of the struct, or the one of its readers or builders in it. -/
inductive Scope where
  | struct
  | reader
  | builder
deriving DecidableEq

/-- A definition by its scope and its name. -/
structure DefName where
  scope : Scope
  name : String
deriving DecidableEq

section Generators

variable (fields : List NamedField) (index : Nat)

/-- The definitions for the builder. A list with structs in it is set from readers here. -/
def builderNames (kind : FieldKind) : List String :=
  let setter := ((setterNames fields).1.getD index []).take 1
  let readerSetter := ((setterNames fields).1.getD index []).drop 1
  let init := (initNames fields).1.getD index []
  let accessor := (accessorNames fields).1.getD index []
  match kind with
  | .group _ => accessor
  | .slot type =>
      (clearNames fields).1.getD index []
      ++ match type with
        | .struct _ => init
        | .list elementType =>
            init ++ (if elementType.listContainsStruct then readerSetter else setter)
        | .anyPointer => accessor
        | _ => setter

/-- The definitions that `genStruct` emits for a field, constants of annotations aside. -/
def genStruct (kind : FieldKind) : List DefName :=
  ((defaultNames fields).1.getD index []).map (DefName.mk .struct)
  ++ ((accessorNames fields).1.getD index [] ++ (checkedAccessorNames fields).1.getD index []
      ++ (viewNames fields).1.getD index [] ++ (hasNames fields).1.getD index []).map
        (DefName.mk .reader)
  ++ (builderNames fields index kind).map (DefName.mk .builder)

/-- The setters that `genDeferredValueListSetters` emits, of lists with structs in them. -/
def genDeferredValueListSetters : FieldKind → List DefName
  | .slot (.list elementType) =>
      if elementType.listContainsStruct then
        (((setterNames fields).1.getD index []).take 1).map (DefName.mk .builder)
      else []
  | _ => []

def emitted (kind : FieldKind) : List DefName :=
  genStruct fields index kind ++ genDeferredValueListSetters fields index kind

/-- `setFromValue` sets the field through its setter. -/
def FieldKind.callsSetter : FieldKind → Bool
  | .group _ | .slot (.struct _) | .slot (.list _) | .slot .anyPointer => false
  | .slot _ => true

/-- What the emitted `setFromValue` calls for a field, by the names that `genSetFromValue` draws
itself. Lists and pointers are written without a helper; a recursive struct is copied whole.
-/
def genSetFromValue (recursiveStruct : Bool) (kind : FieldKind) : List DefName :=
  if recursiveStruct then []
  else
    let called :=
      match kind with
      | .group _ => (accessorNames fields).1.getD index []
      | .slot (.struct _) => (initNames fields).1.getD index []
      | kind => if kind.callsSetter then (calledSetterNames fields).1.getD index [] else []
    called.map (DefName.mk .builder)

end Generators

/-- What is called for a field is emitted for it, and fields share no definition. -/
structure ValueSetterNames (recursiveStruct : Bool) (fields : List NamedField) : Prop where
  exist
    : ∀ index field, fields[index]? = some field →
        genSetFromValue fields index recursiveStruct field.kind ⊆ emitted fields index field.kind
  distinct
    : ∀ index other field next,
        fields[index]? = some field → fields[other]? = some next → index ≠ other →
        List.Disjoint (emitted fields index field.kind) (emitted fields other next.kind)

-----------------------------------------------------------------------------------------
-- Definitions of distinct fields
-----------------------------------------------------------------------------------------

section Families

variable (fields : List NamedField)

/-- The bases of all fields begin with one letter. -/
theorem begins_map {first : Char} {bases : NamedField → List String}
    (begins : ∀ field, ∀ base ∈ bases field, Begins first base)
    : ∀ names ∈ fields.map bases, ∀ base ∈ names, Begins first base := by
  intro names member
  obtain ⟨field, _, rfl⟩ := List.mem_map.mp member
  exact begins field

/-- One name for each field of a kind. -/
theorem begins_ite {first : Char} {wanted : Prop} [Decidable wanted] {name : String}
    (begins : Begins first name)
    : ∀ base ∈ if wanted then [name] else [], Begins first base := by
  intro base member
  split at member
  · exact List.mem_singleton.mp member ▸ begins
  · cases member

/-- The accessors of readers: plain ones, checked ones and views. -/
def getFamily : NameFamily where
  first := 'g'
  passes := [(accessorNames fields).1, (checkedAccessorNames fields).1, (viewNames fields).1]
  begins := by
    have accessors : ∀ names ∈ (accessorNames fields).1, ∀ name ∈ names, Begins 'g' name :=
      drawByField_begins
        (begins_map fields fun field base member =>
          List.mem_singleton.mp member ▸ begins_append (by decide) field.base) []
    have checkedAccessors
        : ∀ names ∈ (checkedAccessorNames fields).1, ∀ name ∈ names, Begins 'g' name := by
      refine drawByField_begins (fun names member base inside => ?_) _
      obtain ⟨accessor, listed, rfl⟩ := List.mem_map.mp member
      obtain ⟨name, plain, rfl⟩ := List.mem_map.mp inside
      exact begins_append (accessors accessor listed name plain) _
    have views : ∀ names ∈ (viewNames fields).1, ∀ name ∈ names, Begins 'g' name := by
      refine drawByField_begins (fun names member base inside => ?_) _
      obtain ⟨⟨field, accessor⟩, listed, rfl⟩ := List.mem_map.mp member
      have plain := accessors accessor (List.of_mem_zip listed).2
      have viewed
          : base ∈ accessor.flatMap (fun name => [name ++ "View", name ++ "ViewChecked"]) := by
        simp only [viewBases] at inside
        split at inside
        · exact inside
        · exact inside
        · cases inside
      obtain ⟨name, accessed, view⟩ := List.mem_flatMap.mp viewed
      rcases List.mem_pair.mp view with rfl | rfl
      · exact begins_append (plain name accessed) _
      · exact begins_append (plain name accessed) _
    simp only [List.forall_mem_cons, List.not_mem_nil, false_imp_iff, implies_true, and_true]
    exact ⟨accessors, checkedAccessors, views⟩
  distinct := by
    have accessors : Drawn (accessorNames fields).1.flatten [] (accessorNames fields).2 :=
      drawByField_drawn _ _
    have checkedAccessors
        : Drawn (checkedAccessorNames fields).1.flatten (accessorNames fields).2
            (checkedAccessorNames fields).2 :=
      drawByField_drawn _ _
    have views
        : Drawn (viewNames fields).1.flatten (checkedAccessorNames fields).2 (viewNames fields).2 :=
      drawByField_drawn _ _
    simpa only [List.flatMap_cons, List.flatMap_nil, List.append_nil] using
      (accessors.append (checkedAccessors.append views)).distinct

def hasFamily : NameFamily :=
  .ofBases 'h' (fields.map (fun field => if field.kind.isPointer then [field.hasName] else []))
    (begins_map fields fun field => begins_ite (begins_append (by decide) field.base))

def defaultFamily : NameFamily :=
  .ofBases '_'
    (fields.map (fun field =>
      if field.kind.isPointer && field.hasDefault then [field.defaultName] else []))
    (begins_map fields fun field =>
      begins_ite (begins_append (by decide) (sanitizeIdentifier field.name)))

def setFamily : NameFamily :=
  .ofBases 's' (fields.map (fun field => [field.setName, field.readerSetName]))
    (begins_map fields fun field base member => by
      have setter : Begins 's' field.setName := begins_append (by decide) field.base
      rcases List.mem_pair.mp member with rfl | rfl
      · exact setter
      · exact begins_append setter _)

def initFamily : NameFamily :=
  .ofBases 'i' (fields.map (fun field => [field.initName]))
    (begins_map fields fun field base member =>
      List.mem_singleton.mp member ▸ begins_append (by decide) field.base)

def clearFamily : NameFamily :=
  .ofBases 'c' (fields.map (fun field => if field.kind.isPointer then [field.clearName] else []))
    (begins_map fields fun field => begins_ite (begins_append (by decide) field.base))

def families : List NameFamily :=
  [getFamily fields, hasFamily fields, defaultFamily fields, setFamily fields, initFamily fields,
    clearFamily fields]

/-- All names that are drawn for a field. -/
def drawnNames (index : Nat) : List String :=
  (families fields).flatMap (fun family => family.names index)

/-- The names drawn for a field, by the function that draws them. -/
theorem mem_drawnNames_iff {index : Nat} {name : String}
    : name ∈ drawnNames fields index
      ↔ (name ∈ (accessorNames fields).1.getD index []
          ∨ name ∈ (checkedAccessorNames fields).1.getD index []
          ∨ name ∈ (viewNames fields).1.getD index [])
        ∨ name ∈ (hasNames fields).1.getD index []
        ∨ name ∈ (defaultNames fields).1.getD index []
        ∨ name ∈ (setterNames fields).1.getD index []
        ∨ name ∈ (initNames fields).1.getD index []
        ∨ name ∈ (clearNames fields).1.getD index [] := by
  have get
      : name ∈ (getFamily fields).names index
        ↔ name ∈ (accessorNames fields).1.getD index []
          ∨ name ∈ (checkedAccessorNames fields).1.getD index []
          ∨ name ∈ (viewNames fields).1.getD index [] := by
    simp only [NameFamily.names, getFamily, List.flatMap_cons, List.flatMap_nil, List.append_nil,
      List.mem_append]
  simp only [drawnNames, families, List.flatMap_cons, List.flatMap_nil, List.append_nil,
    List.mem_append, get]
  simp only [hasFamily, defaultFamily, setFamily, initFamily, clearFamily, names_ofBases]
  rfl

/-- The builder's names are drawn ones. -/
theorem builderNames_subset (index : Nat) (kind : FieldKind)
    : builderNames fields index kind ⊆ drawnNames fields index := by
  intro name member
  rw [mem_drawnNames_iff]
  have setter (member : name ∈ ((setterNames fields).1.getD index []).take 1)
      : name ∈ (setterNames fields).1.getD index [] :=
    List.mem_of_mem_take member
  cases kind with
  | group => exact .inl (.inl member)
  | slot type =>
      rcases List.mem_append.mp member with clear | member
      · simp only [clear, or_true]
      · cases type with
        | struct =>
            have init : name ∈ (initNames fields).1.getD index [] := member
            simp only [init, true_or, or_true]
        | list elementType =>
            rcases List.mem_append.mp member with init | member
            · simp only [init, true_or, or_true]
            · have drawn : name ∈ (setterNames fields).1.getD index [] := by
                split at member
                · exact List.mem_of_mem_drop member
                · exact setter member
              simp only [drawn, true_or, or_true]
        | anyPointer => exact .inl (.inl member)
        | _ => simp only [setter member, true_or, or_true]

/-- Every emitted definition has a drawn name. -/
theorem emitted_subset {index : Nat} {kind : FieldKind} {definition : DefName}
    (member : definition ∈ emitted fields index kind)
    : definition.name ∈ drawnNames fields index := by
  rcases List.mem_append.mp member with inside | deferred
  · rcases List.mem_append.mp inside with inside | builder
    · rw [mem_drawnNames_iff]
      rcases List.mem_append.mp inside with atDefault | reader
      · obtain ⟨name, drawn, rfl⟩ := List.mem_map.mp atDefault
        simp only [drawn, true_or, or_true]
      · obtain ⟨name, drawn, rfl⟩ := List.mem_map.mp reader
        simp only [List.mem_append] at drawn
        rcases drawn with ((drawn | drawn) | drawn) | drawn
        · exact .inl (.inl drawn)
        · exact .inl (.inr (.inl drawn))
        · exact .inl (.inr (.inr drawn))
        · exact .inr (.inl drawn)
    · obtain ⟨name, drawn, rfl⟩ := List.mem_map.mp builder
      exact builderNames_subset fields index kind drawn
  · unfold genDeferredValueListSetters at deferred
    split at deferred
    · split at deferred
      · obtain ⟨name, drawn, rfl⟩ := List.mem_map.mp deferred
        rw [mem_drawnNames_iff]
        simp only [List.mem_of_mem_take drawn, true_or, or_true]
      · cases deferred
    · cases deferred

/-- Whatever the fields are, no two of them share a definition. -/
theorem disjoint_emitted {index other : Nat} (different : index ≠ other) (kind next : FieldKind)
    : List.Disjoint (emitted fields index kind) (emitted fields other next) := by
  have letters : ((families fields).map NameFamily.first).Nodup := by
    change ['g', 'h', '_', 's', 'i', 'c'].Nodup
    decide
  intro definition member also
  exact disjoint_families letters different (emitted_subset fields member)
    (emitted_subset fields also)

end Families

-----------------------------------------------------------------------------------------
-- Names in use before a field
-----------------------------------------------------------------------------------------

/-- The setters that `genSetFromValue` has drawn before it comes to a field. -/
def calledBefore (fields : List NamedField) (index : Nat) : List String :=
  (calledSetterNames (fields.take index)).2

/-- The setters, with those from readers, that `genStruct` has drawn before it comes to a field. -/
def settersBefore (fields : List NamedField) (index : Nat) : List String :=
  (setterNames (fields.take index)).2

/-- Each setter that `setFromValue` calls is free where its name is drawn: the first candidate
that is not in use for the called setters is not in use for all setters.
-/
def Unobstructed (fields : List NamedField) : Prop :=
  ∀ index field counter,
    fields[index]? = some field →
    field.kind.callsSetter →
    FirstUnused field.setName (calledBefore fields index) counter →
    candidate field.setName counter ∉ settersBefore fields index

/-- The setter that is called has a name drawn behind those called before. -/
theorem calledSetterNames_getElem? {fields : List NamedField} {index : Nat} {field : NamedField}
    (found : fields[index]? = some field)
    : (calledSetterNames fields).1.getD index []
      = [(uniqueName field.setName (calledBefore fields index)).1] := by
  rw [List.getD_eq_getElem?_getD, calledSetterNames, drawByField_getElem?, List.getElem?_map, found,
    ← List.map_take]
  rfl

/-- The setter that is emitted has a name drawn behind those emitted before. -/
theorem setterNames_getElem? {fields : List NamedField} {index : Nat} {field : NamedField}
    (found : fields[index]? = some field)
    : ((setterNames fields).1.getD index []).take 1
      = [(uniqueName field.setName (settersBefore fields index)).1] := by
  rw [List.getD_eq_getElem?_getD, setterNames, drawByField_getElem?, List.getElem?_map, found,
    ← List.map_take]
  rfl

/-- What is drawn as a setter to be called is also drawn for some setter. -/
theorem calledSetterNames_subset (fields : List NamedField)
    : (calledSetterNames fields).2 ⊆ (setterNames fields).2 := by
  have included (own all : List String) (included : own ⊆ all)
      : (drawByField (fields.map (fun field => [field.setName])) own).2
        ⊆ (drawByField (fields.map (fun field => [field.setName, field.readerSetName])) all).2 := by
    induction fields generalizing own all with
    | nil => exact included
    | cons field rest ih =>
        have drawn : (uniqueName field.setName own).1 ∈ (uniqueName field.setName all).2 := by
          by_cases taken : (uniqueName field.setName own).1 ∈ all
          · exact List.mem_cons_of_mem _ taken
          · rw [(uniqueName_eq_iff included).mpr taken]
            exact List.mem_cons_self
        refine ih _ _ (List.cons_subset.mpr ⟨List.mem_cons_of_mem _ drawn, ?_⟩)
        exact fun name member => List.mem_cons_of_mem _ (List.mem_cons_of_mem _ (included member))
  exact included [] [] (List.Subset.refl _)

/-- Nothing is in the way exactly if both names are the same. -/
theorem unobstructed_iff {fields : List NamedField}
    : Unobstructed fields
      ↔ ∀ index field, fields[index]? = some field → field.kind.callsSetter →
          (uniqueName field.setName (calledBefore fields index)).1
          = (uniqueName field.setName (settersBefore fields index)).1 := by
  have agree (index : Nat) (field : NamedField)
      : (∀ counter, FirstUnused field.setName (calledBefore fields index) counter →
          candidate field.setName counter ∉ settersBefore fields index)
        ↔ (uniqueName field.setName (calledBefore fields index)).1
          = (uniqueName field.setName (settersBefore fields index)).1 := by
    obtain ⟨counter, first, drawn⟩ :=
      uniqueName_spec field.setName (calledBefore fields index)
    have included : calledBefore fields index ⊆ settersBefore fields index :=
      calledSetterNames_subset (fields.take index)
    rw [uniqueName_eq_iff included, drawn]
    constructor
    · exact fun free => free counter first
    · intro free other also
      rwa [also.unique first]
  simp only [Unobstructed, ← agree]
  exact
    ⟨fun free index field found calls counter => free index field counter found calls,
      fun free index field counter found calls => free index field found calls counter⟩

/-- What is emitted and called for a field whose setter `setFromValue` calls. -/
theorem generated_of_callsSetter (fields : List NamedField) (index : Nat) {kind : FieldKind}
    (calls : kind.callsSetter)
    : builderNames fields index kind
        = (clearNames fields).1.getD index [] ++ ((setterNames fields).1.getD index []).take 1
      ∧ genDeferredValueListSetters fields index kind = []
      ∧ genSetFromValue fields index false kind
        = ((calledSetterNames fields).1.getD index []).map (DefName.mk .builder) := by
  cases kind with
  | group => cases calls
  | slot type =>
      cases type with
      | struct => cases calls
      | list => cases calls
      | anyPointer => cases calls
      | _ => exact ⟨rfl, rfl, rfl⟩

/-- The emitted definitions of a builder are its clearing and its setters. -/
theorem mem_emitted_iff {fields : List NamedField} {index : Nat} {kind : FieldKind}
    (calls : kind.callsSetter) {name : String}
    : DefName.mk .builder name ∈ emitted fields index kind
      ↔ name ∈ (clearNames fields).1.getD index []
        ∨ name ∈ ((setterNames fields).1.getD index []).take 1 := by
  have inside
      : DefName.mk .builder name ∈ genStruct fields index kind
        ↔ name ∈ builderNames fields index kind := by
    simp [genStruct]
  obtain ⟨names, deferred, -⟩ := generated_of_callsSetter fields index calls
  rw [emitted, deferred, List.append_nil, inside, names, List.mem_append]

/-- A called setter is emitted for its field exactly when both generators draw its name. -/
theorem called_mem_emitted_iff {fields : List NamedField} {index : Nat} {field : NamedField}
    (found : fields[index]? = some field) (calls : field.kind.callsSetter)
    : DefName.mk .builder (uniqueName field.setName (calledBefore fields index)).1
        ∈ emitted fields index field.kind
      ↔ (uniqueName field.setName (calledBefore fields index)).1
        = (uniqueName field.setName (settersBefore fields index)).1 := by
  have cleared
      : (uniqueName field.setName (calledBefore fields index)).1
        ∉ (clearNames fields).1.getD index [] := by
    intro member
    have clear : Begins 'c' (uniqueName field.setName (calledBefore fields index)).1 :=
      (clearFamily fields).begins_names (names_ofBases ▸ member)
    have set : Begins 's' (uniqueName field.setName (calledBefore fields index)).1 :=
      uniqueName_begins (begins_append (by decide) field.base) _
    exact absurd (Option.some.inj (clear.symm.trans set)) (by decide)
  rw [mem_emitted_iff calls, setterNames_getElem? found, List.mem_singleton]
  exact or_iff_right cleared

/-- `setFromValue` calls one setter for such a field. -/
theorem genSetFromValue_of_callsSetter {fields : List NamedField} {index : Nat}
    {field : NamedField} (found : fields[index]? = some field) (calls : field.kind.callsSetter)
    : genSetFromValue fields index false field.kind
      = [⟨.builder, (uniqueName field.setName (calledBefore fields index)).1⟩] := by
  obtain ⟨-, -, called⟩ := generated_of_callsSetter fields index calls
  rw [called, calledSetterNames_getElem? found, List.map_singleton]

/-- Accessors and initializers are drawn by the same loops in both generators. -/
theorem genSetFromValue_subset_of_not_callsSetter (fields : List NamedField) (index : Nat)
    {kind : FieldKind} (calls : kind.callsSetter = false)
    : genSetFromValue fields index false kind ⊆ emitted fields index kind := by
  have builder {names : List String} (included : names ⊆ builderNames fields index kind)
      : names.map (DefName.mk .builder) ⊆ emitted fields index kind := by
    refine List.Subset.trans (List.map_subset _ included) ?_
    exact List.subset_append_of_subset_left _ (List.subset_append_right _ _)
  cases kind with
  | group => exact builder (List.Subset.refl _)
  | slot type =>
      cases type with
      | struct => exact builder (List.subset_append_right _ _)
      | list => exact List.nil_subset _
      | anyPointer => exact List.nil_subset _
      | _ => cases calls

-----------------------------------------------------------------------------------------
-- Names without counters
-----------------------------------------------------------------------------------------

/-- The ending of the setters from readers is no counter. -/
theorem plain_readerSetName (field : NamedField) : Plain field.readerSetName := by
  intro base counter same
  obtain ⟨digit, last⟩ :=
    Option.ne_none_iff_exists'.mp
      (mt List.getLast?_eq_none_iff.mp (Nat.toDigits_ne_nil (n := counter + 1) (b := 10)))
  have ending : field.readerSetName.toList.getLast? = some 's' := by
    rw [NamedField.readerSetName, String.toList_append, List.getLast?_append]
    rfl
  rw [same, withCounter, String.toList_append, List.getLast?_append,
    Nat.toString_eq_ofList_toDigits, String.toList_ofList, last] at ending
  obtain rfl := Option.some.inj ending
  have isDigit :=
    Nat.isDigit_of_mem_toDigits (by decide) (by decide) (List.mem_of_getLast? last)
  exact absurd isDigit (by decide)

section Plain

variable {fields : List NamedField} (plain : ∀ field ∈ fields, Plain field.setName)

include plain

/-- The names in use where setters are called. -/
theorem calledSetterNames_inUse
    : InUse (calledSetterNames fields).2
        (fun base => (fields.map NamedField.setName).count base) := by
  have bases : ∀ names ∈ fields.map (fun field => [field.setName]), ∀ base ∈ names, Plain base := by
    intro names member base inside
    obtain ⟨field, listed, rfl⟩ := List.mem_map.mp member
    exact List.mem_singleton.mp inside ▸ plain field listed
  have flat : (fields.map (fun field => [field.setName])).flatten
      = fields.map NamedField.setName := by
    rw [← List.flatMap_def, List.map_eq_flatMap]
  have inUse := inUse_nil.drawByField bases
  simp only [flat, Nat.zero_add] at inUse
  exact inUse

/-- The names in use where setters are emitted, those from readers among them. -/
theorem setterNames_inUse
    : InUse (setterNames fields).2
        (fun base =>
          (fields.map NamedField.setName).count base
          + (fields.map NamedField.readerSetName).count base) := by
  have bases
      : ∀ names ∈ fields.map (fun field => [field.setName, field.readerSetName]),
          ∀ base ∈ names, Plain base := by
    intro names member base inside
    obtain ⟨field, listed, rfl⟩ := List.mem_map.mp member
    rcases List.mem_pair.mp inside with rfl | rfl
    · exact plain field listed
    · exact plain_readerSetName field
  have counted (base : String)
      : (fields.map (fun field => [field.setName, field.readerSetName])).flatten.count base
        = (fields.map NamedField.setName).count base
          + (fields.map NamedField.readerSetName).count base := by
    clear plain bases
    induction fields with
    | nil => rfl
    | cons field rest ih =>
        simp only [List.map_cons, List.flatten_cons, List.count_append, List.count_cons,
          List.count_nil, ih]
        omega
  have inUse := inUse_nil.drawByField bases
  simp only [counted, Nat.zero_add] at inUse
  exact inUse

/-- Without counters in the names, a called setter is obstructed exactly when the name of an
earlier field, followed by `FromReaders`, is its own.
-/
theorem unobstructed_iff_of_plain
    : Unobstructed fields
      ↔ ∀ index field,
          fields[index]? = some field → field.kind.callsSetter →
          ∀ earlier ∈ fields.take index, field.setName ≠ earlier.readerSetName := by
  have before (index : Nat) : ∀ field ∈ fields.take index, Plain field.setName :=
    fun field member => plain field (List.mem_of_mem_take member)
  have free {index : Nat} {field : NamedField} (found : fields[index]? = some field)
      : (∀ counter, FirstUnused field.setName (calledBefore fields index) counter →
          candidate field.setName counter ∉ settersBefore fields index)
        ↔ ∀ earlier ∈ fields.take index, field.setName ≠ earlier.readerSetName := by
    have own := plain field (List.mem_of_getElem? found)
    have called := calledSetterNames_inUse (before index) field.setName own
    have all := setterNames_inUse (before index) field.setName own
    have first
        : FirstUnused field.setName (calledBefore fields index)
            (((fields.take index).map NamedField.setName).count field.setName) :=
      ⟨fun taken => absurd ((called _).mp taken) (Nat.lt_irrefl _),
        fun lower below => (called lower).mpr below⟩
    have only
        : (∀ counter, FirstUnused field.setName (calledBefore fields index) counter →
            candidate field.setName counter ∉ settersBefore fields index)
          ↔ candidate field.setName
              (((fields.take index).map NamedField.setName).count field.setName)
            ∉ settersBefore fields index :=
      ⟨fun free => free _ first, fun free counter also => first.unique also ▸ free⟩
    rw [only, settersBefore, all, Nat.lt_add_right_iff_pos, List.count_pos_iff, List.mem_map]
    exact
      ⟨fun absent earlier member same => absent ⟨earlier, member, same.symm⟩,
        fun apart ⟨earlier, member, same⟩ => apart earlier member same.symm⟩
  constructor
  · intro unobstructed index field found calls
    exact (free found).mp fun counter => unobstructed index field counter found calls
  · intro apart index field counter found calls
    exact (free found).mpr (apart index field found calls) counter

end Plain

/-- The called setters are emitted exactly if nothing is in their way. -/
theorem valueSetterNames_iff_unobstructed (recursiveStruct : Bool) (fields : List NamedField)
    : ValueSetterNames recursiveStruct fields ↔ recursiveStruct ∨ Unobstructed fields := by
  rw [unobstructed_iff]
  constructor
  · intro names
    cases recursiveStruct with
    | true => exact .inl rfl
    | false =>
        refine .inr fun index field found calls => (called_mem_emitted_iff found calls).mp ?_
        refine names.exist index field found ?_
        rw [genSetFromValue_of_callsSetter found calls]
        exact List.mem_singleton_self _
  · intro free
    refine ⟨fun index field found => ?_, fun index other field next _ _ different =>
      disjoint_emitted fields different field.kind next.kind⟩
    cases recursiveStruct with
    | true => exact List.nil_subset _
    | false =>
        cases calls : field.kind.callsSetter with
        | true =>
            have same := free.resolve_left Bool.false_ne_true index field found calls
            rw [genSetFromValue_of_callsSetter found calls]
            exact List.cons_subset.mpr
              ⟨(called_mem_emitted_iff found calls).mpr same, List.nil_subset _⟩
        | false => exact genSetFromValue_subset_of_not_callsSetter fields index calls

/-- What `setFromValue` calls is emitted, and no two fields share a definition, exactly when the
struct is recursive or no called setter is obstructed. Where no name has a counter at its end, a
setter is obstructed by the fields before it whose names followed by `FromReaders` are its own.
-/
theorem valueSetterNames_iff (recursiveStruct : Bool) (fields : List NamedField)
    : (ValueSetterNames recursiveStruct fields ↔ recursiveStruct ∨ Unobstructed fields)
      ∧ ((∀ field ∈ fields, Plain field.setName) →
          (ValueSetterNames recursiveStruct fields
            ↔ recursiveStruct
              ∨ ∀ index field,
                  fields[index]? = some field → field.kind.callsSetter →
                  ∀ earlier ∈ fields.take index, field.setName ≠ earlier.readerSetName)) := by
  have general := valueSetterNames_iff_unobstructed recursiveStruct fields
  refine ⟨general, fun plain => ?_⟩
  rw [general, unobstructed_iff_of_plain plain]

/-- A text and, behind it, a text with the name of its setter from readers. -/
def clashingFields : List NamedField :=
  [{ name := toUtf8 "foo", kind := .slot .text, hasDefault := false },
    { name := toUtf8 "fooFromReaders", kind := .slot .text, hasDefault := false }]

/-- Two fields whose setters get each other's names. -/
theorem not_valueSetterNames : ¬ ValueSetterNames false clashingFields := by
  intro names
  have emitted : ⟨.builder, "setFooFromReaders"⟩ ∈ emitted clashingFields 1 (.slot .text) :=
    names.exist 1 _ rfl (by decide)
  exact absurd emitted (by decide)

end Capnp.Plugin
