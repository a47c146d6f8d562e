import Capnp.Library.ByteString
import Capnp.Library.StringLiteral

/-! Texts of a schema as string literals of the generated code. The generator escapes a text byte
by byte; Lean reads the literal character by character.
-/

namespace Capnp.Plugin

open ByteString

def escapeByte (c : UInt8) : List UInt8 :=
  if c = '\\'.toUInt8 then ['\\'.toUInt8, '\\'.toUInt8]
  else if c = '"'.toUInt8 then ['\\'.toUInt8, '"'.toUInt8]
  else if c = '\n'.toUInt8 then ['\\'.toUInt8, 'n'.toUInt8]
  else if c = '\r'.toUInt8 then ['\\'.toUInt8, 'r'.toUInt8]
  else if c = '\t'.toUInt8 then ['\\'.toUInt8, 't'.toUInt8]
  -- the other control characters are replaced with spaces
  else if c < 0x20 then [' '.toUInt8]
  else [c]

def escapeString (text : List UInt8) : List UInt8 :=
  text.flatMap escapeByte

/-- `valueToLean` of a text. -/
def textToLiteral (text : List UInt8) : List UInt8 :=
  '"'.toUInt8 :: (escapeString text ++ ['"'.toUInt8])

-----------------------------------------------------------------------------------------
-- Characters and their bytes
-----------------------------------------------------------------------------------------

/-- The control characters that have no escape. -/
def Blanked (c : Char) : Prop :=
  c.val < 0x20 ∧ c ≠ '\n' ∧ c ≠ '\r' ∧ c ≠ '\t'

instance (c : Char) : Decidable (Blanked c) :=
  inferInstanceAs (Decidable (_ ∧ _))

def blanked (c : Char) : Char :=
  if Blanked c then ' ' else c

/-- What is written for a character. -/
def escapeChar (c : Char) : List Char :=
  if c = '\\' then ['\\', '\\']
  else if c = '"' then ['\\', '"']
  else if c = '\n' then ['\\', 'n']
  else if c = '\r' then ['\\', 'r']
  else if c = '\t' then ['\\', 't']
  else [blanked c]

/-- An escaped character spells the one that it was, or a blank. -/
theorem spells_escapeChar (c : Char) : StringLiteral.Spells (escapeChar c) (blanked c) := by
  unfold escapeChar
  split_ifs with backslash quote newline carriage tab
  · subst backslash
    exact StringLiteral.spells_quoted (by decide)
  · subst quote
    exact StringLiteral.spells_quoted (by decide)
  · subst newline
    exact StringLiteral.spells_quoted (by decide)
  · subst carriage
    exact StringLiteral.spells_quoted (by decide)
  · subst tab
    exact StringLiteral.spells_quoted (by decide)
  · unfold blanked
    split
    · exact StringLiteral.spells_self (by decide) (by decide)
    · exact StringLiteral.spells_self quote backslash

/-- A byte outside ASCII is left alone. -/
theorem escapeByte_of_le {c : UInt8} (outside : 0x80 ≤ c) : escapeByte c = [c] := by
  have differs (ascii : UInt8) (small : ascii < 0x80) : c ≠ ascii := by
    rintro rfl
    exact absurd small (UInt8.not_lt.mpr outside)
  have visible : ¬ c < 0x20 := by
    simp only [UInt8.lt_iff_toNat_lt, UInt8.le_iff_toNat_le] at outside ⊢
    exact Nat.not_lt.mpr (Nat.le_trans (by decide) outside)
  unfold escapeByte
  rw [if_neg (differs _ (by decide)), if_neg (differs _ (by decide)),
    if_neg (differs _ (by decide)), if_neg (differs _ (by decide)),
    if_neg (differs _ (by decide)), if_neg visible]

/-- The bytes of a character outside ASCII are outside as well. -/
theorem le_of_mem_utf8EncodeChar {c : Char} (outside : 0x80 ≤ c.toNat)
    : ∀ byte ∈ String.utf8EncodeChar c, 0x80 ≤ byte := by
  have high {code : Nat} (upper : 0x80 ≤ code) (lower : code < 0x100)
      : 0x80 ≤ UInt8.ofNat code := by
    rw [UInt8.le_iff_toNat_le, UInt8.toNat_ofNat', Nat.mod_eq_of_lt lower]
    exact upper
  have middle (code : Nat) : 0x80 ≤ UInt8.ofNat (code % 64 + 0x80) := high (by omega) (by omega)
  fun_cases String.utf8EncodeChar c with
  | case1 _ ascii => exact absurd ascii (Nat.not_le.mpr outside)
  | case2 =>
      simp only [List.forall_mem_cons, List.not_mem_nil, false_imp_iff, implies_true, and_true]
      exact ⟨high (by omega) (by omega), middle _⟩
  | case3 =>
      simp only [List.forall_mem_cons, List.not_mem_nil, false_imp_iff, implies_true, and_true]
      exact ⟨high (by omega) (by omega), middle _, middle _⟩
  | case4 =>
      simp only [List.forall_mem_cons, List.not_mem_nil, false_imp_iff, implies_true, and_true]
      exact ⟨high (by omega) (by omega), middle _, middle _, middle _⟩

/-- The bytes of a character are escaped to those of its spelling. -/
theorem escapeString_utf8EncodeChar (c : Char)
    : escapeString (String.utf8EncodeChar c) = (escapeChar c).flatMap String.utf8EncodeChar := by
  rcases Nat.lt_or_ge c.toNat 0x80 with ascii | outside
  · have each : ∀ code < 0x80,
        escapeString (String.utf8EncodeChar (Char.ofNat code))
        = (escapeChar (Char.ofNat code)).flatMap String.utf8EncodeChar := by
      decide +kernel
    have this := each c.toNat ascii
    rwa [Char.ofNat_toNat] at this
  · have differs (other : Char) (small : other.toNat < 0x80) : c ≠ other := by
      rintro rfl
      exact absurd small (Nat.not_lt.mpr outside)
    have kept : ¬ Blanked c := by
      rintro ⟨small, _⟩
      exact absurd (UInt32.lt_iff_toNat_lt.mp small)
        (Nat.not_lt.mpr (Nat.le_trans (by decide) outside))
    have spelled : escapeChar c = [c] := by
      unfold escapeChar blanked
      rw [if_neg (differs _ (by decide)), if_neg (differs _ (by decide)),
        if_neg (differs _ (by decide)), if_neg (differs _ (by decide)),
        if_neg (differs _ (by decide)), if_neg kept]
    have same : (String.utf8EncodeChar c).flatMap escapeByte
        = (String.utf8EncodeChar c).flatMap (fun byte => [byte]) :=
      List.flatMap_congr fun byte member =>
        escapeByte_of_le (le_of_mem_utf8EncodeChar outside byte member)
    rw [spelled, escapeString, same, List.flatMap_singleton', List.flatMap_singleton]

/-- A text's bytes are those of its characters. -/
theorem toUtf8_ofList (text : List Char)
    : toUtf8 (String.ofList text) = text.flatMap String.utf8EncodeChar := by
  simp [toUtf8, List.utf8Encode]

/-- Escaping bytes is escaping characters. -/
theorem escapeString_toUtf8 (text : String)
    : escapeString (toUtf8 text)
      = toUtf8 (String.ofList (text.toList.flatMap escapeChar)) := by
  have bytes := toUtf8_ofList text.toList
  rw [String.ofList_toList] at bytes
  rw [toUtf8_ofList, bytes, escapeString, List.flatMap_assoc, List.flatMap_assoc]
  exact List.flatMap_congr fun c _ => escapeString_utf8EncodeChar c

-----------------------------------------------------------------------------------------
-- What the literals denote
-----------------------------------------------------------------------------------------

/-- The bytes are those of a literal that denotes the text, whatever follows it. -/
def Denotes (bytes : List UInt8) (text : List Char) : Prop :=
  ∃ literal,
    fromUtf8? bytes = some literal
    ∧ ∀ following,
        StringLiteral.read (literal.toList ++ following) = some (text, following)

/-- A literal denotes one text. -/
theorem Denotes.unique {bytes : List UInt8} {text other : List Char} (denotes : Denotes bytes text)
    (also : Denotes bytes other)
    : text = other := by
  obtain ⟨literal, spelled, read⟩ := denotes
  obtain ⟨same, spelledSame, readSame⟩ := also
  obtain rfl := Option.some.inj (spelled.symm.trans spelledSame)
  exact (Prod.mk.inj (Option.some.inj ((read []).symm.trans (readSame [])))).1

/-- The literal of a text denotes it, with blanks. -/
theorem denotes_textToLiteral (text : String)
    : Denotes (textToLiteral (toUtf8 text)) (text.toList.map blanked) := by
  refine ⟨String.ofList ('"' :: (text.toList.flatMap escapeChar ++ ['"'])), ?_, fun following => ?_⟩
  · have quote : String.utf8EncodeChar '"' = ['"'.toUInt8] := by decide
    rw [fromUtf8?_eq_some_iff, toUtf8_ofList, textToLiteral, escapeString_toUtf8, toUtf8_ofList,
      List.flatMap_cons, List.flatMap_append, List.flatMap_singleton, quote]
    rfl
  · rw [String.toList_ofList]
    simpa using StringLiteral.read_flatMap spells_escapeChar text.toList following

/-- Nothing is blanked in a text without such characters. -/
theorem map_blanked_eq_iff {text : List Char}
    : text.map blanked = text ↔ ∀ c ∈ text, ¬ Blanked c := by
  have fixed (c : Char) : blanked c = c ↔ ¬ Blanked c := by
    unfold blanked
    split
    · next replaced =>
        refine iff_of_false ?_ (fun kept => kept replaced)
        rintro rfl
        exact absurd replaced (by decide)
    · next kept => exact iff_of_true rfl kept
  have each := @List.map_inj_left _ _ text blanked id
  simpa only [List.map_id, id_eq, fixed] using each

/-- The literal of a text denotes it with the control characters that have no escape replaced by
spaces, and so the text itself exactly when it has none of them.
-/
theorem textToLiteral_denotes (text : String)
    : Denotes (textToLiteral (toUtf8 text)) (text.toList.map blanked)
      ∧ (Denotes (textToLiteral (toUtf8 text)) text.toList ↔ ∀ c ∈ text.toList, ¬ Blanked c) := by
  have denotes := denotes_textToLiteral text
  refine ⟨denotes, ?_⟩
  rw [← map_blanked_eq_iff]
  constructor
  · exact denotes.unique
  · intro same
    rwa [same] at denotes

/-- A text with a control character. -/
theorem not_textToLiteral_denotes
    : ¬ ∀ text : String, Denotes (textToLiteral (toUtf8 text)) text.toList := by
  intro all
  have same := (denotes_textToLiteral "\x01").unique (all "\x01")
  exact absurd same (by decide)

end Capnp.Plugin
