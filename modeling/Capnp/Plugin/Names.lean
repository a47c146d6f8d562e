import Mathlib.Data.List.Basic
import Mathlib.Data.List.Nodup
import Mathlib.Data.List.Perm.Subperm

/-! How the code generator names what it emits. The names of a schema are byte strings; those
of the generated code are made of letters, digits and underscores.
-/

namespace Capnp.Plugin

-----------------------------------------------------------------------------------------
-- Identifiers
-----------------------------------------------------------------------------------------

def isIdentChar (c : UInt8) : Bool :=
  (48 ≤ c && c ≤ 57) || (65 ≤ c && c ≤ 90) || (97 ≤ c && c ≤ 122) || c == 95

def leanKeywords : List String :=
  ["abbrev", "attribute", "by", "class", "def", "derive", "do", "else", "end",
    "extends", "forall", "fun", "if", "import", "in", "inductive", "instance",
    "let", "match", "mutual", "namespace", "open", "partial", "private", "protected",
    "section", "structure", "theorem", "then", "universe", "variable", "where", "return"]

def isLeanKeyword (ident : String) : Bool := leanKeywords.contains ident

def sanitizeIdentifier (ident : List UInt8) : String :=
  let out := ident.map (fun c => if isIdentChar c then Char.ofNat c.toNat else '_')
  let out := if out.isEmpty then ['_'] else out
  let out := if out.head?.any Char.isDigit then '_' :: out else out
  let out := String.ofList out
  if isLeanKeyword out then "_" ++ out else out

def capitalizeIdentifier (ident : String) : String :=
  match ident.toList with
  | [] => ""
  | c :: rest => String.ofList ((if c.isLower then c.toUpper else c) :: rest)

-----------------------------------------------------------------------------------------
-- Names that are not in use yet
-----------------------------------------------------------------------------------------

def withCounter (base : String) (counter : Nat) : String :=
  base ++ "_" ++ toString counter

/-- The first unused name from a counter on; `fuel` bounds the search. -/
def firstUnused (base : String) (used : List String) : Nat → Nat → Option String
  | 0, _ => none
  | fuel + 1, counter =>
      if withCounter base counter ∈ used then firstUnused base used fuel (counter + 1)
      else some (withCounter base counter)

/-- The name and the names used with it. -/
def uniqueName (base : String) (used : List String) : String × List String :=
  let candidate :=
    if base ∈ used then (firstUnused base used (used.length + 1) 1).getD base else base
  (candidate, candidate :: used)

def uniqueNames : List String → List String → List String × List String
  | [], used => ([], used)
  | base :: rest, used =>
      let (name, used) := uniqueName base used
      let (names, used) := uniqueNames rest used
      (name :: names, used)

variable {base : String} {used : List String}

/-- Different counters give different names. -/
theorem withCounter_inj {counter other : Nat}
    : withCounter base counter = withCounter base other ↔ counter = other := by
  refine ⟨fun same => ?_, fun same => same ▸ rfl⟩
  have digits : toString counter = toString other := (String.append_right_inj _).mp same
  have chars := congrArg String.toList digits
  simp only [Nat.toString_eq_ofList_toDigits, String.toList_ofList] at chars
  calc
    counter = Nat.ofDigitChars 10 (Nat.toDigits 10 counter) 0 :=
      Nat.ofDigitChars_ten_toDigits.symm
    _ = Nat.ofDigitChars 10 (Nat.toDigits 10 other) 0 := by rw [chars]
    _ = other := Nat.ofDigitChars_ten_toDigits

/-- The loop ends at an unused name. -/
theorem unused_of_firstUnused {fuel counter : Nat} {name : String}
    (found : firstUnused base used fuel counter = some name)
    : name ∉ used := by
  induction fuel generalizing counter with
  | zero => cases found
  | succ fuel ih =>
      unfold firstUnused at found
      split_ifs at found with taken
      · exact ih found
      · obtain rfl := Option.some.inj found
        exact taken

/-- A search that finds nothing has seen only used names, by induction on its length. -/
theorem used_of_firstUnused_none {fuel counter : Nat}
    (exhausted : firstUnused base used fuel counter = none)
    : ∀ offset < fuel, withCounter base (counter + offset) ∈ used := by
  induction fuel generalizing counter with
  | zero => simp
  | succ fuel ih =>
      unfold firstUnused at exhausted
      split_ifs at exhausted with taken
      intro offset below
      cases offset with
      | zero => exact taken
      | succ offset =>
          have later := ih exhausted offset (by omega)
          rwa [show counter + (offset + 1) = counter + 1 + offset by omega]

/-- Witness: one more distinct name than there are used ones cannot all be used. -/
theorem firstUnused_isSome (base : String) (used : List String)
    : (firstUnused base used (used.length + 1) 1).isSome := by
  by_contra failed
  have taken := used_of_firstUnused_none (Option.not_isSome_iff_eq_none.mp failed)
  let tried := (List.range (used.length + 1)).map (fun offset => withCounter base (1 + offset))
  have distinct : tried.Nodup := by
    refine List.Nodup.map_on (fun i _ j _ same => ?_) List.nodup_range
    have counters := withCounter_inj.mp same
    omega
  have included : tried ⊆ used := by
    intro name member
    obtain ⟨offset, below, rfl⟩ := List.mem_map.mp member
    exact taken offset (List.mem_range.mp below)
  have bound := distinct.length_le_of_subset included
  simp only [tried, List.length_map, List.length_range] at bound
  omega

/-- The drawn name was unused. -/
theorem uniqueName_unused (base : String) (used : List String)
    : (uniqueName base used).1 ∉ used := by
  unfold uniqueName
  dsimp only
  split_ifs with taken
  · obtain ⟨name, found⟩ := Option.isSome_iff_exists.mp (firstUnused_isSome base used)
    rw [found]
    exact unused_of_firstUnused found
  · exact taken

/-- New names in front of those in use: all different, and none of them used before. -/
structure Drawn (names before after : List String) : Prop where
  after : after = names.reverse ++ before
  distinct : names.Nodup
  unused : ∀ name ∈ names, name ∉ before

/-- A drawn name is in use afterwards. -/
theorem uniqueName_drawn (base : String) (used : List String)
    : Drawn [(uniqueName base used).1] used (uniqueName base used).2 :=
  ⟨rfl, List.nodup_singleton _, by simpa using uniqueName_unused base used⟩

/-- Names drawn one after the other. -/
theorem Drawn.append {names others before middle after : List String}
    (first : Drawn names before middle) (second : Drawn others middle after)
    : Drawn (names ++ others) before after := by
  refine ⟨?_, ?_, fun name member => ?_⟩
  · rw [second.after, first.after, List.reverse_append, List.append_assoc]
  · rw [List.nodup_append]
    refine ⟨first.distinct, second.distinct, fun name old other new same => ?_⟩
    have apart := second.unused other new
    rw [first.after, List.mem_append, List.mem_reverse, ← same] at apart
    exact apart (.inl old)
  · rcases List.mem_append.mp member with old | new
    · exact first.unused name old
    · have apart := second.unused name new
      rw [first.after, List.mem_append] at apart
      exact fun present => apart (.inr present)

/-- Several names are drawn, by induction on the bases. -/
theorem uniqueNames_drawn (bases used : List String)
    : Drawn (uniqueNames bases used).1 used (uniqueNames bases used).2 := by
  induction bases generalizing used with
  | nil => exact ⟨rfl, .nil, by simp [uniqueNames]⟩
  | cons base rest ih => exact (uniqueName_drawn base used).append (ih _)

end Capnp.Plugin
