import Capnp.Library.ByteString
import Capnp.Plugin.Imports
import Capnp.Plugin.Names
import Mathlib.Data.List.Forall2

/-! The names of generated files, modules and types. A path and a display name are split into
parts, and each part becomes an identifier of its own.
-/

namespace Capnp.Plugin

open ByteString

-----------------------------------------------------------------------------------------
-- Files and modules
-----------------------------------------------------------------------------------------

/-- The parts between separators; empty ones are dropped. -/
def splitParts (isSeparator : UInt8 → Bool) : List UInt8 → List UInt8 → List (List UInt8)
  | part, [] => if part = [] then [] else [part]
  | part, c :: rest =>
      if isSeparator c then
        if part = [] then splitParts isSeparator [] rest
        else part :: splitParts isSeparator [] rest
      else splitParts isSeparator (part ++ [c]) rest

def splitPath (path : List UInt8) : List (List UInt8) :=
  splitParts (fun c => c == '/'.toUInt8 || c == '\\'.toUInt8) [] path

def splitOnChar (text : List UInt8) (sep : Char) : List (List UInt8) :=
  splitParts (fun c => c == sep.toUInt8) [] text

def stripCapnpExtension (name : List UInt8) : List UInt8 :=
  if (toUtf8 ".capnp").isSuffixOf name then name.take (name.length - 6) else name

def pathToModuleSegments (filename : List UInt8) : List String :=
  let parts := splitPath filename
  match parts.getLast? with
  | none => ["Capnp", "Gen", "Schema"]
  | some last =>
      ["Capnp", "Gen"] ++ parts.dropLast.map sanitizeIdentifier
        ++ [sanitizeIdentifier (stripCapnpExtension last)]

def joinSegments (segments : List String) (sep : Char) : String :=
  (String.singleton sep).intercalate segments

def outputPath (moduleSegments : List String) : String :=
  joinSegments moduleSegments '/' ++ ".lean"

-----------------------------------------------------------------------------------------
-- Nodes
-----------------------------------------------------------------------------------------

/-- The kinds of nodes, as far as names depend on them. -/
inductive NodeWhich where
  | file
  | struct (isGroup : Bool)
  | enum
  | interface
  | const
  | annotationNode

/-- A node of the schema with what its name is made from. -/
structure NodeProto where
  displayName : List UInt8
  which : NodeWhich

/-- The nodes of a request, by their ids, and the files asked for. -/
structure CodeGeneratorRequest where
  nodes : Table UInt64 NodeProto
  requestedFiles : List (List UInt8)

/-- The path of the file and that of the type, on both sides of the last colon. -/
def splitDisplayName (displayName : List UInt8) : List UInt8 × List UInt8 :=
  match displayName.reverse.dropWhile (fun c => c != ':'.toUInt8) with
  | [] => (displayName, [])
  | _ :: before =>
      (before.reverse, (displayName.reverse.takeWhile (fun c => c != ':'.toUInt8)).reverse)

def NodeProto.isGroup (node : NodeProto) : Bool :=
  match node.which with
  | .struct isGroup => isGroup
  | _ => false

def NodeProto.typeSegments (node : NodeProto) : List String :=
  let sanitized := (splitOnChar (splitDisplayName node.displayName).2 '.').map sanitizeIdentifier
  match node.isGroup, sanitized.getLast? with
  | true, some last => sanitized.dropLast ++ [capitalizeIdentifier last ++ "Group"]
  | _, _ => sanitized

def NodeProto.qualifiedName (node : NodeProto) : QualifiedName :=
  { moduleName :=
      joinSegments (pathToModuleSegments (splitDisplayName node.displayName).1) '.'
    typeName := joinSegments node.typeSegments '.' }

def buildNameTable (request : CodeGeneratorRequest) : NameTable :=
  request.nodes.entries.foldl
    (fun nameTable entry => nameTable.insert entry.1 entry.2.qualifiedName) ∅

/-- A name of the module that it is used in is found below that module. -/
def TypeName.fullName (currentModule : String) : TypeName → String
  | .unknown => "Capnp.Unknown"
  | .own typeName => currentModule ++ "." ++ typeName
  | .foreign moduleName typeName => moduleName ++ "." ++ typeName

/-- Structs, groups, enums and interfaces. -/
def NodeProto.isType (node : NodeProto) : Bool :=
  match node.which with
  | .struct _ => true
  | .enum => true
  | .interface => true
  | _ => false

/-- Files have paths and modules of their own, and types have names of their own, in whatever
module they are named.
-/
structure NamesDistinct (request : CodeGeneratorRequest) : Prop where
  paths
    : ∀ file ∈ request.requestedFiles, ∀ other ∈ request.requestedFiles, file ≠ other →
        outputPath (pathToModuleSegments file) ≠ outputPath (pathToModuleSegments other)
  modules
    : ∀ file ∈ request.requestedFiles, ∀ other ∈ request.requestedFiles, file ≠ other →
        joinSegments (pathToModuleSegments file) '.'
        ≠ joinSegments (pathToModuleSegments other) '.'
  types
    : ∀ currentModule id other node same,
        request.nodes.lookup id = some node → request.nodes.lookup other = some same →
        node.isType → same.isType → id ≠ other →
        (qualifiedTypeName (buildNameTable request) currentModule id).fullName currentModule
        ≠ (qualifiedTypeName (buildNameTable request) currentModule other).fullName currentModule

-----------------------------------------------------------------------------------------
-- Names that fall together
-----------------------------------------------------------------------------------------

/-- What is neither a letter nor a digit. -/
def isSign (c : UInt8) : Bool :=
  !isIdentChar c || c == '_'.toUInt8

/-- Two names that differ in nothing but their signs. -/
def Alike : List UInt8 → List UInt8 → Prop :=
  List.Forall₂ (fun c d => c = d ∨ isSign c ∧ isSign d)

def isDigit (c : UInt8) : Bool :=
  48 ≤ c && c ≤ 57

/-- Empty names, names that begin with a digit and keywords are marked with an underscore. -/
def isMarked (name : List UInt8) : Bool :=
  name.isEmpty || name.head?.any isDigit || (leanKeywords.map toUtf8).contains name

/-- The mark of one name is a sign that the other one begins with. -/
def MarkedLike (name other : List UInt8) : Prop :=
  isMarked name ∧ ∃ sign rest, other = sign :: rest ∧ isSign sign ∧ Alike name rest

def Confusable (name other : List UInt8) : Prop :=
  Alike name other ∨ MarkedLike name other ∨ MarkedLike other name

/-- The parts of a path without the extension, or `Schema` where there are none. -/
def fileParts (filename : List UInt8) : List (List UInt8) :=
  match (splitPath filename).getLast? with
  | none => [toUtf8 "Schema"]
  | some last => (splitPath filename).dropLast ++ [stripCapnpExtension last]

/-- The name with the underscore that it is marked with. -/
def marked (name : List UInt8) : List UInt8 :=
  if isMarked name then '_'.toUInt8 :: name else name

/-- A letter in lower case as the one in upper case. -/
def capitalByte (c : UInt8) : UInt8 :=
  if 97 ≤ c && c ≤ 122 then c - 32 else c

def capital : List UInt8 → List UInt8
  | [] => []
  | c :: rest => capitalByte c :: rest

/-- A group has the name of a type whose name ends in `Group`. -/
def groupPart (name : List UInt8) : List UInt8 :=
  capital (marked name) ++ toUtf8 "Group"

/-- The parts of the path of a type, with those of a file in front. -/
def NodeProto.typeParts (node : NodeProto) : List (List UInt8) :=
  let parts := splitOnChar (splitDisplayName node.displayName).2 '.'
  match node.isGroup, parts.getLast? with
  | true, some last => parts.dropLast ++ [groupPart last]
  | _, _ => parts

def NodeProto.parts (node : NodeProto) : List (List UInt8) :=
  fileParts (splitDisplayName node.displayName).1 ++ node.typeParts

/-- Two types without a path of their own are both unknown; others have confusable parts. -/
def SameName (node other : NodeProto) : Prop :=
  node.typeParts = [] ∧ other.typeParts = []
  ∨ node.typeParts ≠ [] ∧ other.typeParts ≠ [] ∧ List.Forall₂ Confusable node.parts other.parts

/-- No two files, and no two types, that have names with confusable parts. -/
structure Unconfused (request : CodeGeneratorRequest) : Prop where
  files
    : ∀ file ∈ request.requestedFiles, ∀ other ∈ request.requestedFiles, file ≠ other →
        ¬ List.Forall₂ Confusable (fileParts file) (fileParts other)
  types
    : ∀ id other node same,
        request.nodes.lookup id = some node → request.nodes.lookup other = some same →
        node.isType → same.isType → id ≠ other → ¬ SameName node same

/-- How a byte of a name is written. -/
def signChar (c : UInt8) : Char :=
  if isIdentChar c then Char.ofNat c.toNat else '_'

/-- What is needed of the byte of each code. -/
def ByteFacts (c : UInt8) : Prop :=
  (if isSign c then signChar c = '_' else signChar c ≠ '_' ∧ (signChar c).toNat = c.toNat)
  ∧ (signChar c).isDigit = isDigit c
  ∧ signChar (capitalByte c)
    = (if (signChar c).isLower then (signChar c).toUpper else signChar c)
  ∧ isDigit (capitalByte c) = isDigit c
  ∧ signChar c ≠ '.' ∧ signChar c ≠ '/'

instance (c : UInt8) : Decidable (ByteFacts c) :=
  inferInstanceAs (Decidable (_ ∧ _))

/-- Every byte is a sign, a digit, a letter or another one, by cases. -/
theorem byteFacts (c : UInt8) : ByteFacts c := by
  have each : ∀ code < 256, ByteFacts (UInt8.ofNat code) := by decide +kernel
  simpa only [UInt8.ofNat_toNat] using each c.toNat c.toNat_lt

/-- Signs become underscores, and every other byte keeps its number. -/
theorem signChar_spec (c : UInt8)
    : if isSign c then signChar c = '_'
      else signChar c ≠ '_' ∧ (signChar c).toNat = c.toNat :=
  (byteFacts c).1

/-- Digits stay digits, and nothing else becomes one. -/
theorem isDigit_signChar (c : UInt8) : (signChar c).isDigit = isDigit c :=
  (byteFacts c).2.1

/-- Two bytes become one character only if they are the same or both signs. -/
theorem signChar_eq_iff {c d : UInt8} : signChar c = signChar d ↔ c = d ∨ isSign c ∧ isSign d := by
  have first := signChar_spec c
  have second := signChar_spec d
  constructor
  · intro same
    split_ifs at first second with one two two
    · exact .inr ⟨one, two⟩
    · exact absurd (same.symm.trans first) second.1
    · exact absurd (same.trans second) first.1
    · exact .inl (UInt8.toNat_inj.mp (by rw [← first.2, ← second.2, same]))
  · rintro (rfl | ⟨one, two⟩)
    · rfl
    · rw [if_pos one] at first
      rw [if_pos two] at second
      rw [first, second]

/-- Names become one only if they are alike. -/
theorem map_signChar_eq_iff {name other : List UInt8}
    : name.map signChar = other.map signChar ↔ Alike name other := by
  rw [Alike, ← List.forall₂_eq_eq_eq, List.forall₂_map_left_iff, List.forall₂_map_right_iff]
  simp only [signChar_eq_iff]

/-- What is like a name without signs is that name. -/
theorem Alike.eq {name other : List UInt8} (alike : Alike name other)
    (visible : ∀ c ∈ other, ¬ isSign c)
    : name = other := by
  induction alike with
  | nil => rfl
  | cons same _ ih =>
      obtain ⟨first, rest⟩ := List.forall_mem_cons.mp visible
      rcases same with rfl | ⟨_, sign⟩
      · rw [ih rest]
      · exact absurd sign first

/-- Keywords have no signs and no capital letters. -/
theorem visible_of_keyword {keyword : String} (member : keyword ∈ leanKeywords)
    : (∀ c ∈ toUtf8 keyword, ¬ isSign c) ∧ (toUtf8 keyword).map signChar = keyword.toList
      ∧ ∀ c ∈ toUtf8 keyword, 97 ≤ c := by
  revert keyword
  decide +kernel

/-- A name becomes a keyword only if it is one. -/
theorem isLeanKeyword_map_signChar (name : List UInt8)
    : isLeanKeyword (String.ofList (name.map signChar))
      = (leanKeywords.map toUtf8).contains name := by
  rw [Bool.eq_iff_iff, isLeanKeyword, List.contains_iff_mem, List.contains_iff_mem, List.mem_map]
  constructor
  · intro member
    have spec := visible_of_keyword member
    refine ⟨_, member, (Alike.eq (map_signChar_eq_iff.mp ?_) spec.1).symm⟩
    rw [spec.2.1, String.toList_ofList]
  · rintro ⟨keyword, member, rfl⟩
    rwa [(visible_of_keyword member).2.1, String.ofList_toList]

/-- No keyword begins with an underscore. -/
theorem not_isLeanKeyword_underscore (chars : List Char)
    : isLeanKeyword (String.ofList ('_' :: chars)) = false := by
  have begins : ∀ keyword ∈ leanKeywords, keyword.toList.head? ≠ some '_' := by
    decide
  rw [Bool.eq_false_iff, isLeanKeyword, Ne, List.contains_iff_mem]
  intro member
  have first := begins _ member
  rw [String.toList_ofList] at first
  exact first rfl

/-- Whether a name is marked can be told from how its bytes are written. -/
theorem isMarked_eq (name : List UInt8)
    : isMarked name
      = ((name.map signChar).isEmpty || (name.map signChar).head?.any Char.isDigit
        || isLeanKeyword (String.ofList (name.map signChar))) := by
  rw [isLeanKeyword_map_signChar, List.isEmpty_map, List.head?_map]
  cases name with
  | nil => rfl
  | cons c rest => simp [isMarked, isDigit_signChar]

/-- A name that begins with a sign needs no mark. -/
theorem isMarked_of_isSign {sign : UInt8} {rest : List UInt8} (signed : isSign sign)
    : isMarked (sign :: rest) = false := by
  have underscore := signChar_spec sign
  rw [if_pos signed] at underscore
  rw [isMarked_eq, List.map_cons, underscore, not_isLeanKeyword_underscore]
  rfl

/-- A name is written with its mark in front, each byte by itself. -/
theorem sanitizeIdentifier_eq (name : List UInt8)
    : sanitizeIdentifier name = String.ofList ((marked name).map signChar) := by
  have underscore : signChar '_'.toUInt8 = '_' := by decide
  have mark := isMarked_eq name
  unfold sanitizeIdentifier marked
  rw [mark]
  have written
      : name.map (fun c => if isIdentChar c then Char.ofNat c.toNat else '_')
        = name.map signChar := rfl
  rw [written, apply_ite (List.map signChar), List.map_cons, underscore]
  generalize name.map signChar = out
  cases out with
  | nil => decide
  | cons c rest =>
      simp only [List.isEmpty_cons, Bool.false_eq_true, if_false, List.head?_cons, Option.any_some,
        Bool.false_or]
      cases digit : c.isDigit with
      | true =>
          simp only [if_true, Bool.true_or, not_isLeanKeyword_underscore, Bool.false_eq_true,
            if_false]
      | false =>
          simp only [Bool.false_eq_true, if_false, Bool.false_or]
          split
          · exact (@String.ofList_append ['_'] _).symm
          · rfl

/-- Like names are marked alike. -/
theorem Alike.isMarked_eq {name other : List UInt8} (alike : Alike name other)
    : isMarked name = isMarked other := by
  rw [Plugin.isMarked_eq name, Plugin.isMarked_eq other, map_signChar_eq_iff.mpr alike]

/-- Alike to a name behind a sign is what begins with a sign too. -/
theorem alike_cons_iff {mark : UInt8} {name other : List UInt8} (signed : isSign mark)
    : Alike (mark :: name) other
      ↔ ∃ sign rest, other = sign :: rest ∧ isSign sign ∧ Alike name rest := by
  rw [Alike, List.forall₂_cons_left_iff]
  constructor
  · rintro ⟨sign, rest, rfl | ⟨_, also⟩, alike, rfl⟩
    · exact ⟨mark, rest, rfl, signed, alike⟩
    · exact ⟨sign, rest, rfl, also, alike⟩
  · rintro ⟨sign, rest, rfl, also, alike⟩
    exact ⟨sign, rest, .inr ⟨signed, also⟩, alike, rfl⟩

/-- Being alike goes both ways. -/
theorem Alike.symm {name other : List UInt8} (alike : Alike name other) : Alike other name :=
  map_signChar_eq_iff.mp (map_signChar_eq_iff.mpr alike).symm

/-- A name is like a marked one when it has a sign in the mark's place. -/
theorem markedLike_iff {name other : List UInt8}
    : MarkedLike name other ↔ isMarked name ∧ Alike ('_'.toUInt8 :: name) other := by
  rw [MarkedLike, alike_cons_iff (by decide)]

/-- A marked name and one without a mark are never alike. -/
theorem not_alike_of_isMarked {name other : List UInt8} (first : isMarked name = true)
    (second : isMarked other = false)
    : ¬ Alike name other := by
  intro alike
  rw [alike.isMarked_eq, second] at first
  cases first

/-- A marked name is not like a name with the mark in front. -/
theorem not_alike_underscore {name other : List UInt8} (mark : isMarked other = true)
    : ¬ Alike ('_'.toUInt8 :: name) other :=
  fun alike => not_alike_of_isMarked mark (isMarked_of_isSign (by decide)) alike.symm

/-- Two identifiers are the same where the names are alike up to their marks. -/
theorem sanitizeIdentifier_eq_iff {name other : List UInt8}
    : sanitizeIdentifier name = sanitizeIdentifier other ↔ Confusable name other := by
  rw [sanitizeIdentifier_eq, sanitizeIdentifier_eq, String.ofList_inj, map_signChar_eq_iff]
  simp only [marked, Confusable, markedLike_iff]
  cases first : isMarked name with
  | true =>
      cases second : isMarked other with
      | true =>
          simp only [if_true, not_alike_underscore first, not_alike_underscore second, and_false,
            or_false]
          exact ⟨fun alike => (List.forall₂_cons.mp alike).2, .cons (.inl rfl)⟩
      | false => simp [not_alike_of_isMarked first second]
  | false =>
      cases second : isMarked other with
      | true =>
          have apart : ¬ Alike name other :=
            fun alike => not_alike_of_isMarked second first alike.symm
          simpa [apart] using ⟨Alike.symm, Alike.symm⟩
      | false => simp

/-- Capitalizing comes before or after the signs are replaced. -/
theorem capitalizeIdentifier_map_signChar (name : List UInt8)
    : capitalizeIdentifier (String.ofList (name.map signChar))
      = String.ofList ((capital name).map signChar) := by
  unfold capitalizeIdentifier
  rw [String.toList_ofList]
  cases name with
  | nil => rfl
  | cons c rest =>
      simp only [List.map_cons, capital, (byteFacts c).2.2.1]

/-- A marked name does not begin with a digit. -/
theorem isDigit_head_marked (name : List UInt8) : (marked name).head?.any isDigit = false := by
  unfold marked
  split
  · rfl
  · next mark =>
      simp only [isMarked, Bool.or_eq_true, not_or, Bool.not_eq_true] at mark
      exact mark.1.2

/-- Capitalizing does not touch digits. -/
theorem isDigit_head_capital (name : List UInt8)
    : (capital name).head?.any isDigit = name.head?.any isDigit := by
  cases name with
  | nil => rfl
  | cons c rest => exact (byteFacts c).2.2.2.1

/-- The letter in upper case keeps the name from being a keyword. -/
theorem isMarked_groupPart (name : List UInt8) : isMarked (groupPart name) = false := by
  have upper : 'G'.toUInt8 ∈ groupPart name :=
    List.mem_append_right _ (by decide)
  have keyword : groupPart name ∉ leanKeywords.map toUtf8 := by
    intro member
    obtain ⟨keyword, listed, same⟩ := List.mem_map.mp member
    exact absurd ((visible_of_keyword listed).2.2 _ (same ▸ upper)) (by decide)
  have digit : (groupPart name).head?.any isDigit = false := by
    have head := isDigit_head_capital (marked name)
    rw [isDigit_head_marked] at head
    unfold groupPart
    cases start : capital (marked name) with
    | nil => decide
    | cons c rest => rwa [start] at head
  have full : (groupPart name).isEmpty = false :=
    List.isEmpty_eq_false_iff.mpr (List.ne_nil_of_mem upper)
  simp only [isMarked, full, digit, Bool.or_self, List.contains_eq_mem, keyword, decide_false]

/-- A group's part of a name is the field's, capitalized, with a suffix. -/
theorem sanitizeIdentifier_groupPart (name : List UInt8)
    : sanitizeIdentifier (groupPart name)
      = capitalizeIdentifier (sanitizeIdentifier name) ++ "Group" := by
  have ending : (toUtf8 "Group").map signChar = "Group".toList := by decide
  rw [sanitizeIdentifier_eq, sanitizeIdentifier_eq, capitalizeIdentifier_map_signChar, marked,
    isMarked_groupPart, if_neg Bool.false_ne_true, groupPart, List.map_append, String.ofList_append,
    ending, String.ofList_toList]

/-- A module's segments are the parts of the file name, each sanitized. -/
theorem pathToModuleSegments_eq (filename : List UInt8)
    : pathToModuleSegments filename
      = "Capnp" :: "Gen" :: (fileParts filename).map sanitizeIdentifier := by
  unfold pathToModuleSegments fileParts
  dsimp only
  split
  · decide
  · rw [List.map_append, List.map_singleton]
    rfl

/-- A type's segments are its parts, each sanitized. -/
theorem typeSegments_eq (node : NodeProto)
    : node.typeSegments = node.typeParts.map sanitizeIdentifier := by
  unfold NodeProto.typeSegments NodeProto.typeParts
  dsimp only
  rw [List.getLast?_map]
  cases node.isGroup with
  | false => rfl
  | true =>
      cases (splitOnChar (splitDisplayName node.displayName).2 '.').getLast? with
      | none => rfl
      | some last =>
          simp only [Option.map_some]
          rw [List.map_append, List.map_singleton, sanitizeIdentifier_groupPart, List.map_dropLast]

-----------------------------------------------------------------------------------------
-- Joined segments
-----------------------------------------------------------------------------------------

/-- A sanitized name has no separator in it. -/
theorem not_mem_sanitizeIdentifier (name : List UInt8)
    : '.' ∉ (sanitizeIdentifier name).toList ∧ '/' ∉ (sanitizeIdentifier name).toList := by
  rw [sanitizeIdentifier_eq, String.toList_ofList, List.mem_map, List.mem_map]
  exact
    ⟨fun ⟨c, _, same⟩ => (byteFacts c).2.2.2.2.1 same,
      fun ⟨c, _, same⟩ => (byteFacts c).2.2.2.2.2 same⟩

/-- Segments without the separator can be told from how they are joined. -/
theorem joinSegments_inj {segments others : List String} {sep : Char} (full : segments ≠ [])
    (fullOthers : others ≠ []) (free : ∀ segment ∈ segments, sep ∉ segment.toList)
    (freeOthers : ∀ segment ∈ others, sep ∉ segment.toList)
    : joinSegments segments sep = joinSegments others sep ↔ segments = others := by
  refine ⟨fun same => ?_, fun same => same ▸ rfl⟩
  have parts := String.toList_split_intercalate free
  have again := String.toList_split_intercalate freeOthers
  rw [if_neg full] at parts
  rw [if_neg fullOthers] at again
  unfold joinSegments at same
  rw [← parts, same, again]

/-- Sanitized parts are the same exactly for confusable ones. -/
theorem map_sanitizeIdentifier_eq_iff {parts others : List (List UInt8)}
    : parts.map sanitizeIdentifier = others.map sanitizeIdentifier
      ↔ List.Forall₂ Confusable parts others := by
  rw [← List.forall₂_eq_eq_eq, List.forall₂_map_left_iff, List.forall₂_map_right_iff]
  simp only [sanitizeIdentifier_eq_iff]

/-- The segments of the name that a type has wherever it is named. -/
def NodeProto.nameSegments (node : NodeProto) : List String :=
  if node.typeParts = [] then ["Capnp", "Unknown"]
  else "Capnp" :: "Gen" :: node.parts.map sanitizeIdentifier

/-- No segment of a module has a separator in it. -/
theorem free_of_sanitized {parts : List (List UInt8)}
    : ∀ segment ∈ "Capnp" :: "Gen" :: parts.map sanitizeIdentifier,
        '.' ∉ segment.toList ∧ '/' ∉ segment.toList := by
  have fixed : ∀ segment ∈ ["Capnp", "Gen"], '.' ∉ segment.toList ∧ '/' ∉ segment.toList := by
    decide
  intro segment member
  change segment ∈ ["Capnp", "Gen"] ++ parts.map sanitizeIdentifier at member
  rw [List.mem_append, List.mem_map] at member
  rcases member with member | ⟨name, _, rfl⟩
  · exact fixed segment member
  · exact not_mem_sanitizeIdentifier name

/-- No segment of a type's name has a separator in it. -/
theorem nameSegments_free (node : NodeProto)
    : ∀ segment ∈ node.nameSegments, '.' ∉ segment.toList := by
  unfold NodeProto.nameSegments
  split
  · decide
  · exact fun segment member => (free_of_sanitized segment member).1

/-- Two nodes have one name exactly if their parts are confusable. -/
theorem nameSegments_eq_iff {node other : NodeProto}
    : node.nameSegments = other.nameSegments ↔ SameName node other := by
  have unknown (segments : List String) : ["Capnp", "Unknown"] ≠ "Capnp" :: "Gen" :: segments := by
    intro same
    exact absurd (List.cons.inj (List.cons.inj same).2).1 (by decide)
  unfold NodeProto.nameSegments SameName
  split_ifs with first second second
  · simp [first, second]
  · simp [first, second, unknown]
  · simp [first, second, (unknown _).symm]
  · simp [first, second, map_sanitizeIdentifier_eq_iff]

/-- The name table names every node of the request. -/
theorem lookup_buildNameTable (request : CodeGeneratorRequest) (id : UInt64)
    : (buildNameTable request).lookup id
      = (request.nodes.lookup id).map NodeProto.qualifiedName := by
  rw [buildNameTable, Table.lookup_foldl_insert _ request.nodes.nodupKeys, AList.lookup_empty,
    Option.or_none]
  rfl

/-- No sanitized name is empty. -/
theorem sanitizeIdentifier_ne_empty (name : List UInt8) : sanitizeIdentifier name ≠ "" := by
  intro empty
  have chars := congrArg String.toList empty
  rw [sanitizeIdentifier_eq, String.toList_ofList, String.toList_empty, List.map_eq_nil_iff,
    marked] at chars
  split at chars
  · cases chars
  · next mark => exact mark (by rw [chars]; rfl)

/-- Only a file has an empty type name. -/
theorem typeName_eq_empty_iff (node : NodeProto)
    : node.qualifiedName.typeName = "" ↔ node.typeParts = [] := by
  rw [NodeProto.qualifiedName, typeSegments_eq]
  cases node.typeParts with
  | nil => simp [joinSegments]
  | cons part rest =>
      refine iff_of_false (fun empty => ?_) (List.cons_ne_nil _ _)
      have single : joinSegments [""] '.' = "" := by simp [joinSegments]
      have free : ∀ segment ∈ (part :: rest).map sanitizeIdentifier, '.' ∉ segment.toList := by
        intro segment member
        obtain ⟨name, _, rfl⟩ := List.mem_map.mp member
        exact (not_mem_sanitizeIdentifier name).1
      have same :=
        (joinSegments_inj (by simp) (by simp) free (by simp)).mp (empty.trans single.symm)
      exact sanitizeIdentifier_ne_empty part (List.cons.inj same).1

/-- The name of a type does not depend on the module that it is used in. -/
theorem fullName_eq {request : CodeGeneratorRequest} {id : UInt64} {node : NodeProto}
    (found : request.nodes.lookup id = some node) (currentModule : String)
    : (qualifiedTypeName (buildNameTable request) currentModule id).fullName currentModule
      = joinSegments node.nameSegments '.' := by
  have named : (buildNameTable request).lookup id = some node.qualifiedName := by
    rw [lookup_buildNameTable, found]
    rfl
  simp only [qualifiedTypeName, named, typeName_eq_empty_iff, NodeProto.nameSegments]
  split
  · change "Capnp.Unknown" = _
    decide
  · next full =>
      have joined
          : node.qualifiedName.moduleName ++ "." ++ node.qualifiedName.typeName
            = joinSegments ("Capnp" :: "Gen" :: node.parts.map sanitizeIdentifier) '.' := by
        rw [NodeProto.qualifiedName, pathToModuleSegments_eq, typeSegments_eq, NodeProto.parts,
          List.map_append]
        have parts : node.typeParts.map sanitizeIdentifier ≠ [] := by simpa using full
        exact (String.intercalate_append_of_ne_nil (List.cons_ne_nil _ _) parts).symm
      split
      · next own => rw [← joined, own]; rfl
      · rw [← joined]; rfl

-----------------------------------------------------------------------------------------
-- When names are distinct
-----------------------------------------------------------------------------------------

/-- Two files have one module exactly if their parts are confusable. -/
theorem pathToModuleSegments_eq_iff {file other : List UInt8}
    : pathToModuleSegments file = pathToModuleSegments other
      ↔ List.Forall₂ Confusable (fileParts file) (fileParts other) := by
  simp only [pathToModuleSegments_eq, List.cons.injEq, true_and, map_sanitizeIdentifier_eq_iff]

/-- Joined segments are the same exactly if the segments are. -/
theorem joinSegments_pathToModuleSegments {file other : List UInt8} {sep : Char}
    (separator : sep = '.' ∨ sep = '/')
    : joinSegments (pathToModuleSegments file) sep = joinSegments (pathToModuleSegments other) sep
      ↔ List.Forall₂ Confusable (fileParts file) (fileParts other) := by
  have free (filename : List UInt8)
      : ∀ segment ∈ pathToModuleSegments filename, sep ∉ segment.toList := by
    intro segment member
    rw [pathToModuleSegments_eq] at member
    rcases separator with rfl | rfl
    · exact (free_of_sanitized segment member).1
    · exact (free_of_sanitized segment member).2
  have full (filename : List UInt8) : pathToModuleSegments filename ≠ [] := by
    rw [pathToModuleSegments_eq]
    exact List.cons_ne_nil _ _
  rw [joinSegments_inj (full file) (full other) (free file) (free other),
    pathToModuleSegments_eq_iff]

/-- The files and types of a request have names of their own exactly when no two files and no two
types have confusable parts.
-/
theorem namesDistinct_iff (request : CodeGeneratorRequest)
    : NamesDistinct request ↔ Unconfused request := by
  have paths {file other : List UInt8}
      : outputPath (pathToModuleSegments file) = outputPath (pathToModuleSegments other)
        ↔ List.Forall₂ Confusable (fileParts file) (fileParts other) := by
    rw [outputPath, outputPath, String.append_left_inj,
      joinSegments_pathToModuleSegments (.inr rfl)]
  have names {node other : NodeProto}
      : joinSegments node.nameSegments '.' = joinSegments other.nameSegments '.'
        ↔ SameName node other := by
    have full (node : NodeProto) : node.nameSegments ≠ [] := by
      unfold NodeProto.nameSegments
      split <;> exact List.cons_ne_nil _ _
    rw [joinSegments_inj (full node) (full other) (nameSegments_free node)
      (nameSegments_free other), nameSegments_eq_iff]
  constructor
  · intro distinct
    refine ⟨fun file member other otherMember different confusable => ?_, ?_⟩
    · exact distinct.paths file member other otherMember different (paths.mpr confusable)
    · intro id other node same found also type alsoType different confusable
      refine distinct.types "" id other node same found also type alsoType different ?_
      rw [fullName_eq found, fullName_eq also]
      exact names.mpr confusable
  · intro unconfused
    refine ⟨?_, ?_, ?_⟩
    · intro file member other otherMember different same
      exact unconfused.files file member other otherMember different (paths.mp same)
    · intro file member other otherMember different same
      exact unconfused.files file member other otherMember different
        ((joinSegments_pathToModuleSegments (.inl rfl)).mp same)
    · intro currentModule id other node same found also type alsoType different equal
      rw [fullName_eq found, fullName_eq also] at equal
      exact unconfused.types id other node same found also type alsoType different
        (names.mp equal)

/-- Two files whose names differ in a sign only. -/
def clashingFiles : CodeGeneratorRequest where
  nodes := ∅
  requestedFiles := [toUtf8 "foo-bar.capnp", toUtf8 "foo_bar.capnp"]

/-- A group beside a struct with its name and the ending of a group. -/
def clashingTypes : CodeGeneratorRequest where
  nodes :=
    ((∅ : Table UInt64 NodeProto).insert 1
        { displayName := toUtf8 "a.capnp:S.foo", which := .struct true }).insert 2
      { displayName := toUtf8 "a.capnp:S.FooGroup", which := .struct false }
  requestedFiles := [toUtf8 "a.capnp"]

/-- Two files, and two types of one file, that get one name. -/
theorem not_namesDistinct : ¬ NamesDistinct clashingFiles ∧ ¬ NamesDistinct clashingTypes := by
  constructor
  · intro distinct
    exact distinct.paths (toUtf8 "foo-bar.capnp") (by decide) (toUtf8 "foo_bar.capnp")
      (by decide) (by decide) (by decide)
  · intro distinct
    exact distinct.types "" 1 2 { displayName := toUtf8 "a.capnp:S.foo", which := .struct true }
      { displayName := toUtf8 "a.capnp:S.FooGroup", which := .struct false } rfl rfl rfl rfl
      (by decide) (by decide)

end Capnp.Plugin
