import Capnp.Plugin.Imports

/-! When the imports of a generated file are complete: what the import walk adds for a node and
what is emitted for it name the same modules, so only the structs that the walk does not visit
can name others.
-/

namespace Capnp.Plugin

-----------------------------------------------------------------------------------------
-- What one type and one node name
-----------------------------------------------------------------------------------------

section Names

variable {schemaLoader : SchemaLoader} {nameTable : NameTable} {currentModule : String}
  {moduleName : String}

end Names

-----------------------------------------------------------------------------------------
-- What the functions collect for a node
-----------------------------------------------------------------------------------------

section Nodes

variable {α : Type} {schemaLoader : SchemaLoader} {shows : α → String → Prop}
  {names : SchemaType → String → Prop} {part : SchemaType → List α} {items : List α}
  {moduleName : String}

end Nodes

section Files

variable {schemaLoader : SchemaLoader} {nameTable : NameTable} {currentModule moduleName : String}

variable {fuel : Nat} {fileId : UInt64} {file : GeneratedFile}

end Files

end Capnp.Plugin
