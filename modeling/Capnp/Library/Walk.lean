import Mathlib.Logic.Relation

/-! Depth-first walks that collect what each visited node gives. A walk fails where a visit does
or a node is missing; `fuel` bounds a walk that goes round.
-/

namespace Walk

/-- The parts that the keys give, one after the other. -/
def concatM {κ α : Type} (part : κ → Option (List α)) : List κ → Option (List α)
  | [] => some []
  | key :: rest =>
      match part key, concatM part rest with
      | some first, some later => some (first ++ later)
      | _, _ => none

/-- What the node gives, and then what its children do. -/
def walk {κ α : Type} (children : κ → Option (List κ)) (visit : κ → Option (List α))
    : Nat → κ → Option (List α)
  | 0, _ => none
  | fuel + 1, key =>
      match visit key, (children key).bind (concatM (walk children visit fuel)) with
      | some here, some below => some (here ++ below)
      | _, _ => none

/-- One of the children that a node lists. -/
def Child {κ : Type} (children : κ → Option (List κ)) (key child : κ) : Prop :=
  ∃ listed, children key = some listed ∧ child ∈ listed

variable {κ α : Type} {part : κ → Option (List α)} {keys : List κ} {items : List α} {item : α}

variable {children : κ → Option (List κ)} {visit : κ → Option (List α)} {fuel : Nat} {root : κ}

end Walk
