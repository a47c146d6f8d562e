import Mathlib.Data.List.Basic

/-! String literals of Lean source text, read character by character. -/

namespace StringLiteral

/-- Where the reading stands: in the text, behind a backslash, among the digits of a character
code, or in the gap that a backslash at the end of a line opens.
-/
inductive State where
  | text
  | escape
  | code (digits value : Nat)
  | gap

/-- A character ends the literal, or leads on and may give a character of the text. -/
inductive Outcome where
  | closed
  | next (state : State) (produced : Option Char)

def hexDigit? (c : Char) : Option Nat :=
  if '0' ≤ c ∧ c ≤ '9' then some (c.toNat - '0'.toNat)
  else if 'a' ≤ c ∧ c ≤ 'f' then some (c.toNat - 'a'.toNat + 10)
  else if 'A' ≤ c ∧ c ≤ 'F' then some (c.toNat - 'A'.toNat + 10)
  else none

/-- What a character behind a backslash stands for. -/
def quoted? (c : Char) : Option Char :=
  if c = '\\' then some '\\'
  else if c = '"' then some '"'
  else if c = '\'' then some '\''
  else if c = 'r' then some '\r'
  else if c = 'n' then some '\n'
  else if c = 't' then some '\t'
  else none

def inText (c : Char) : Outcome :=
  if c = '"' then .closed
  else if c = '\\' then .next .escape none
  else .next .text (some c)

def step : State → Char → Option Outcome
  | .text, c => some (inText c)
  | .escape, c =>
      match quoted? c with
      | some produced => some (.next .text (some produced))
      | none =>
          if c = 'x' then some (.next (.code 2 0) none)
          else if c = 'u' then some (.next (.code 4 0) none)
          else if c = '\n' then some (.next .gap none)
          else none
  | .code digits value, c =>
      (hexDigit? c).map (fun digit =>
        if digits = 1 then .next .text (some (Char.ofNat (16 * value + digit)))
        else .next (.code (digits - 1) (16 * value + digit)) none)
  | .gap, c =>
      if c = '\n' then none
      else if c.isWhitespace then some (.next .gap none)
      else some (inText c)

/-- The characters up to the closing quote, and what follows it. -/
def readBody : State → List Char → Option (List Char × List Char)
  | _, [] => none
  | state, c :: rest =>
      match step state c with
      | none => none
      | some .closed => some ([], rest)
      | some (.next state produced) =>
          (readBody state rest).map (fun read => (produced.toList ++ read.1, read.2))

/-- The text that a literal denotes, and what follows the literal. -/
def read : List Char → Option (List Char × List Char)
  | [] => none
  | c :: rest => if c = '"' then readBody .text rest else none

-----------------------------------------------------------------------------------------
-- Spellings of one character
-----------------------------------------------------------------------------------------

/-- Inside a literal the characters of `spelling` stand for `c`. -/
def Spells (spelling : List Char) (c : Char) : Prop :=
  ∀ following,
    readBody .text (spelling ++ following)
    = (readBody .text following).map (fun read => (c :: read.1, read.2))

/-- Most characters stand for themselves. -/
theorem spells_self {c : Char} (unquoted : c ≠ '"') (unescaped : c ≠ '\\') : Spells [c] c := by
  intro following
  simp [readBody, step, inText, unquoted, unescaped]

/-- A quoted character behind a backslash. -/
theorem spells_quoted {c meant : Char} (quotes : quoted? c = some meant)
    : Spells ['\\', c] meant := by
  intro following
  simp [readBody, step, inText, quotes, Function.comp_def]

/-- A literal made of spellings denotes what they stand for, by induction on the text. -/
theorem read_flatMap {spell : Char → List Char} {meaning : Char → Char}
    (spells : ∀ c, Spells (spell c) (meaning c)) (text following : List Char)
    : read ('"' :: (text.flatMap spell ++ '"' :: following))
      = some (text.map meaning, following) := by
  rw [read, if_pos rfl]
  induction text with
  | nil => simp [readBody, step, inText]
  | cons c rest ih =>
      rw [List.flatMap_cons, List.append_assoc, spells c, ih]
      rfl

end StringLiteral
