import Capnp.Library.Table
import Capnp.Library.Walk

/-! The imports of a generated file. The import walk follows the nested nodes of the file; what
is emitted also follows groups and the parameter and result structs of methods.
-/

namespace Capnp.Plugin

-----------------------------------------------------------------------------------------
-- The schema
-----------------------------------------------------------------------------------------

/-- The types of the schema. -/
inductive SchemaType where
  | void | bool | int8 | int16 | int32 | int64 | uint8 | uint16 | uint32 | uint64
  | float32 | float64 | text | data | anyPointer
  | struct (id : UInt64)
  | enum (id : UInt64)
  | interface (id : UInt64)
  | list (elementType : SchemaType)
deriving DecidableEq

/-- What a field is. -/
inductive FieldKind where
  | slot (type : SchemaType)
  | group (typeId : UInt64)

/-- Annotations are given by the ids of their declarations. -/
structure Field where
  kind : FieldKind
  annotations : List UInt64 := []

def Field.type (field : Field) : SchemaType :=
  match field.kind with
  | .slot type => type
  | .group typeId => .struct typeId

/-- A method with the types that it takes and gives. -/
structure MethodNode where
  paramType : UInt64
  resultType : UInt64
  annotations : List UInt64 := []

/-- The kinds of nodes with what is generated from them. -/
inductive NodeKind where
  | file
  | struct (fields : List Field)
  | enum (enumerants : List (List UInt64))
  | interface (methods : List MethodNode)
  | const (type : SchemaType)
  | annotationNode (type : SchemaType)

/-- A node of the schema. -/
structure Node where
  kind : NodeKind
  annotations : List UInt64 := []
  nestedNodes : List UInt64 := []

/-- The nodes of a request by their ids; getting another one throws. -/
abbrev SchemaLoader := Table UInt64 Node

/-- The type that an annotation is declared with. -/
def SchemaLoader.annotationType? (schemaLoader : SchemaLoader) (id : UInt64)
    : Option SchemaType :=
  match schemaLoader.lookup id with
  | some { kind := .annotationNode type, .. } => some type
  | _ => none

/-- A name with its module. -/
structure QualifiedName where
  moduleName : String
  typeName : String

abbrev NameTable := Table UInt64 QualifiedName

-----------------------------------------------------------------------------------------
-- Types as they are written
-----------------------------------------------------------------------------------------

/-- `Capnp.Unknown`, a name of the module itself, or one with its module in front. -/
inductive TypeName where
  | unknown
  | own (typeName : String)
  | foreign (moduleName typeName : String)
deriving DecidableEq

/-- A type as it is written out. -/
inductive LeanType where
  | builtin (name : String)
  | named (name : TypeName)
  | reader (name : TypeName)
  | array (element : LeanType)
  | listReader (element : LeanType)
deriving DecidableEq

section Emission

variable (schemaLoader : SchemaLoader) (nameTable : NameTable) (currentModule : String)

def qualifiedTypeName (typeId : UInt64) : TypeName :=
  match nameTable.lookup typeId with
  | none => .unknown
  | some qualified =>
      if qualified.typeName = "" then .unknown
      else if qualified.moduleName = currentModule then .own qualified.typeName
      else .foreign qualified.moduleName qualified.typeName

/-- Also `typeToLeanProto`, which makes the same of a type that is not resolved. -/
def typeToLean : SchemaType → LeanType
  | .void => .builtin "Unit"
  | .bool => .builtin "Bool"
  | .int8 => .builtin "Int8"
  | .int16 => .builtin "Int16"
  | .int32 => .builtin "Int32"
  | .int64 => .builtin "Int64"
  | .uint8 => .builtin "UInt8"
  | .uint16 => .builtin "UInt16"
  | .uint32 => .builtin "UInt32"
  | .uint64 => .builtin "UInt64"
  | .float32 => .builtin "Float"
  | .float64 => .builtin "Float"
  | .text => .builtin "Capnp.Text"
  | .data => .builtin "Capnp.Data"
  | .anyPointer => .builtin "Capnp.AnyPointer"
  | .struct id => .named (qualifiedTypeName nameTable currentModule id)
  | .enum id => .named (qualifiedTypeName nameTable currentModule id)
  | .interface id => .named (qualifiedTypeName nameTable currentModule id)
  | .list elementType => .array <| typeToLean elementType

def typeToLeanReader : SchemaType → LeanType
  | .struct id => .reader (qualifiedTypeName nameTable currentModule id)
  | .list elementType => .listReader (typeToLeanReader elementType)
  | type => typeToLean nameTable currentModule type

-----------------------------------------------------------------------------------------
-- The import walk
-----------------------------------------------------------------------------------------

def nestedNodes (id : UInt64) : Option (List UInt64) :=
  (schemaLoader.lookup id).map (fun node => node.nestedNodes)

namespace Emitted

/-- Each use is a definition with the annotation's type. -/
def genAnnotationUses (annotations : List UInt64) : Option (List LeanType) :=
  Walk.concatM
    (fun id =>
      (schemaLoader.annotationType? id).map (fun type =>
        let leanType := typeToLean nameTable currentModule type
        [leanType]))
    annotations

/-- The types of the fields in the structure, its accessors and its setters, and those of the
annotation uses.
-/
def genStruct (id : UInt64) : Option (List LeanType) := do
  let ofAnnotations := genAnnotationUses schemaLoader nameTable currentModule
  let node ← schemaLoader.lookup id
  match node.kind with
  | .struct fields =>
      let own ← ofAnnotations node.annotations
      let ofFields ←
        Walk.concatM
          (fun field : Field => do
            let leanType := typeToLean nameTable currentModule field.type
            let readerType := typeToLeanReader nameTable currentModule field.type
            some ([leanType, readerType] ++ (← ofAnnotations field.annotations)))
          fields
      some (own ++ ofFields)
  | _ => none

def genInterface (node : Node) (methods : List MethodNode) : Option (List LeanType) := do
  let ofAnnotations := genAnnotationUses schemaLoader nameTable currentModule
  let own ← ofAnnotations node.annotations
  let ofMethods ←
    Walk.concatM
      (fun method : MethodNode => do
        some
          ([.named (qualifiedTypeName nameTable currentModule method.paramType),
              .named (qualifiedTypeName nameTable currentModule method.resultType)]
            ++ (← ofAnnotations method.annotations)))
      methods
  some (own ++ ofMethods)

end Emitted

end Emission

-----------------------------------------------------------------------------------------
-- Complete imports
-----------------------------------------------------------------------------------------

/-- The modules in front of the names in a type. -/
def LeanType.modules : LeanType → List String
  | .named (.foreign moduleName _) => [moduleName]
  | .reader (.foreign moduleName _) => [moduleName]
  | .array element => element.modules
  | .listReader element => element.modules
  | _ => []

/-- The types of a node's fields, of a constant or annotation, and of a method. -/
def Node.types (node : Node) : List SchemaType :=
  match node.kind with
  | .struct fields => fields.map Field.type
  | .interface methods =>
      methods.flatMap (fun method => [.struct method.paramType, .struct method.resultType])
  | .const type => [type]
  | .annotationNode type => [type]
  | .enum _ => []
  | .file => []

section Condition

variable (schemaLoader : SchemaLoader) (nameTable : NameTable) (currentModule : String)

end Condition

end Capnp.Plugin
