import Mathlib.Data.List.Basic
import Mathlib.Logic.Relation

/-! A depth-first search that keeps a list of the nodes it has seen. It tells whether a path of at
least one edge leads to the goal; a search that starts at its goal has to come back to it.
-/

namespace DepthFirst

/-- Looks at the children of a node one after the other, up to the first success. -/
def searchAll {κ : Type} [DecidableEq κ] (visit : List κ → κ → Option (Bool × List κ)) (goal : κ)
    : List κ → List κ → Option (Bool × List κ)
  | seen, [] => some (false, seen)
  | seen, child :: rest =>
      if child = goal then some (true, seen)
      else
        match visit seen child with
        | none => none
        | some (true, later) => some (true, later)
        | some (false, later) => searchAll visit goal later rest

/-- Whether the goal was found, and the nodes that have been seen by then. -/
def search {κ : Type} [DecidableEq κ] (next : κ → List κ) (goal : κ)
    : Nat → List κ → κ → Option (Bool × List κ)
  | 0, _, _ => none
  | fuel + 1, seen, current =>
      if current ∈ seen then some (false, seen)
      else searchAll (search next goal fuel) goal (current :: seen) (next current)

/-- An edge of the graph whose nodes have their successors listed. -/
def Edge {κ : Type} (next : κ → List κ) (key child : κ) : Prop :=
  child ∈ next key

variable {κ : Type} {next : κ → List κ} {goal current : κ} {seen later keys nodes : List κ}

-----------------------------------------------------------------------------------------
-- What a search without success leaves
-----------------------------------------------------------------------------------------

/-- A search without success has followed every edge of the nodes it came to see. -/
structure Explored (next : κ → List κ) (goal : κ) (seen later : List κ) : Prop where
  grows : seen ⊆ later
  followed : ∀ key ∈ later, key ∉ seen → ∀ child ∈ next key, child ≠ goal ∧ child ∈ later

/-- Nothing more has been explored. -/
theorem Explored.refl : Explored next goal seen seen :=
  ⟨List.Subset.refl _, fun _ member unseen => absurd member unseen⟩

/-- One search after another. -/
theorem Explored.trans {between : List κ} (first : Explored next goal seen between)
    (second : Explored next goal between later)
    : Explored next goal seen later := by
  refine ⟨List.Subset.trans first.grows second.grows, fun key member unseen child edge => ?_⟩
  by_cases early : key ∈ between
  · have := first.followed key early unseen child edge
    exact ⟨this.1, second.grows this.2⟩
  · exact second.followed key member early child edge

/-- No path leads out of the nodes that a search has explored from nothing, or to its goal. -/
theorem Explored.not_transGen (explored : Explored next goal [] later) (start : current ∈ later)
    : ¬ Relation.TransGen (Edge next) current goal := by
  intro path
  obtain ⟨key, way, edge⟩ := Relation.TransGen.tail'_iff.mp path
  have reached : key ∈ later := by
    clear edge path
    induction way with
    | refl => exact start
    | tail _ edge ih => exact (explored.followed _ ih List.not_mem_nil _ edge).2
  exact (explored.followed key reached List.not_mem_nil goal edge).1 rfl

variable [DecidableEq κ] {visit : List κ → κ → Option (Bool × List κ)} {fuel : Nat}

-----------------------------------------------------------------------------------------
-- What is found is there
-----------------------------------------------------------------------------------------

/-- A search that succeeds has a path, by induction on the keys. -/
theorem exists_of_searchAll
    (sound
      : ∀ {seen key later},
          visit seen key = some (true, later) → Relation.TransGen (Edge next) key goal)
    (found : searchAll visit goal seen keys = some (true, later))
    : ∃ key ∈ keys, Relation.ReflTransGen (Edge next) key goal := by
  induction keys generalizing seen with
  | nil => cases found
  | cons key rest ih =>
      unfold searchAll at found
      split at found
      · next same => exact ⟨key, List.mem_cons_self, same ▸ .refl⟩
      · split at found
        · cases found
        · next visited =>
            exact ⟨key, List.mem_cons_self, (sound visited).to_reflTransGen⟩
        · obtain ⟨other, member, path⟩ := ih found
          exact ⟨other, List.mem_cons_of_mem _ member, path⟩

/-- A success is a path to the goal, by induction on the fuel. -/
theorem transGen_of_search (found : search next goal fuel seen current = some (true, later))
    : Relation.TransGen (Edge next) current goal := by
  induction fuel generalizing seen current later with
  | zero => cases found
  | succ fuel ih =>
      unfold search at found
      split at found
      · cases found
      · obtain ⟨child, member, path⟩ := exists_of_searchAll ih found
        exact Relation.TransGen.head' member path

-----------------------------------------------------------------------------------------
-- What is not found is not there
-----------------------------------------------------------------------------------------

/-- A search that fails has explored all its keys, by induction on them. -/
theorem explored_of_searchAll
    (explored
      : ∀ {seen key later},
          visit seen key = some (false, later) → Explored next goal seen later ∧ key ∈ later)
    (failed : searchAll visit goal seen keys = some (false, later))
    : Explored next goal seen later ∧ ∀ key ∈ keys, key ≠ goal ∧ key ∈ later := by
  induction keys generalizing seen with
  | nil =>
      cases failed
      exact ⟨.refl, fun key member => absurd member List.not_mem_nil⟩
  | cons key rest ih =>
      unfold searchAll at failed
      split at failed
      · cases failed
      · next different =>
          split at failed
          · cases failed
          · cases failed
          · next visited =>
              obtain ⟨here, reached⟩ := explored visited
              obtain ⟨there, others⟩ := ih failed
              refine ⟨here.trans there, fun other member => ?_⟩
              rcases List.mem_cons.mp member with rfl | member
              · exact ⟨different, there.grows reached⟩
              · exact others other member

/-- The same for the search from one key, by induction on the fuel. -/
theorem explored_of_search (failed : search next goal fuel seen current = some (false, later))
    : Explored next goal seen later ∧ current ∈ later := by
  induction fuel generalizing seen current later with
  | zero => cases failed
  | succ fuel ih =>
      unfold search at failed
      split at failed
      · next visited =>
          cases failed
          exact ⟨.refl, visited⟩
      · obtain ⟨below, children⟩ := explored_of_searchAll ih failed
        have reached := below.grows List.mem_cons_self
        refine ⟨⟨fun key member => below.grows (List.mem_cons_of_mem _ member), ?_⟩, reached⟩
        intro key member unseen child edge
        rcases eq_or_ne key current with rfl | other
        · exact children child edge
        · exact below.followed key member (by simp [other, unseen]) child edge

-----------------------------------------------------------------------------------------
-- How deep a search goes
-----------------------------------------------------------------------------------------

/-- How many of the nodes are still to be seen. -/
def unseen (nodes seen : List κ) : Nat :=
  (nodes.filter (fun key => key ∉ seen)).length

/-- The more is seen, the less is unseen. -/
theorem unseen_le (grows : seen ⊆ later) : unseen nodes later ≤ unseen nodes seen := by
  refine (List.monotone_filter_right nodes fun key => ?_).length_le
  simp only [decide_eq_true_eq]
  exact fun absent member => absent (grows member)

/-- Seeing one more leaves one less. -/
theorem unseen_cons_lt (member : current ∈ nodes) (fresh : current ∉ seen)
    : unseen nodes (current :: seen) < unseen nodes seen := by
  have kept : (nodes.filter (fun key => key ∉ seen)).filter (fun key => key ≠ current)
      = nodes.filter (fun key => key ∉ current :: seen) := by
    rw [List.filter_filter]
    refine List.filter_congr fun key _ => ?_
    simp
  unfold unseen
  rw [← kept]
  refine List.length_filter_lt_length_iff_exists.mpr ⟨current, ?_, by simp⟩
  exact List.mem_filter.mpr ⟨member, by simpa using fresh⟩

/-- With fuel for all that is unseen the search ends, by induction on the keys. -/
theorem searchAll_isSome
    (total
      : ∀ {seen key}, key ∈ nodes → unseen nodes seen < fuel →
          ∃ found later, visit seen key = some (found, later) ∧ seen ⊆ later)
    (inside : keys ⊆ nodes) (enough : unseen nodes seen < fuel)
    : ∃ found later, searchAll visit goal seen keys = some (found, later) ∧ seen ⊆ later := by
  induction keys generalizing seen with
  | nil => exact ⟨false, seen, rfl, List.Subset.refl _⟩
  | cons key rest ih =>
      obtain ⟨first, others⟩ := List.cons_subset.mp inside
      obtain ⟨found, later, visited, grows⟩ := total first enough
      unfold searchAll
      split
      · exact ⟨true, seen, rfl, List.Subset.refl _⟩
      · rw [visited]
        cases found with
        | true => exact ⟨true, later, rfl, grows⟩
        | false =>
            obtain ⟨found, last, done, more⟩ :=
              ih others (Nat.lt_of_le_of_lt (unseen_le grows) enough)
            exact ⟨found, last, done, List.Subset.trans grows more⟩

/-- Each node on the way down is seen for the first time, which spends one unit of the fuel. -/
theorem search_isSome (closed : ∀ key ∈ nodes, next key ⊆ nodes) (start : current ∈ nodes)
    (enough : unseen nodes seen < fuel)
    : ∃ found later, search next goal fuel seen current = some (found, later) ∧ seen ⊆ later := by
  induction fuel generalizing seen current with
  | zero => exact absurd enough (Nat.not_lt_zero _)
  | succ fuel ih =>
      unfold search
      split
      · exact ⟨false, seen, rfl, List.Subset.refl _⟩
      · next fresh =>
          have fewer : unseen nodes (current :: seen) < fuel :=
            Nat.lt_of_lt_of_le (unseen_cons_lt start fresh) (Nat.lt_succ_iff.mp enough)
          obtain ⟨found, later, done, grows⟩ :=
            searchAll_isSome (fun member enough => ih member enough) (closed current start) fewer
          exact ⟨found, later, done, List.subset_of_cons_subset grows⟩

/-- With a unit of fuel for each node, and one more, a search from nothing decides whether a path
of at least one edge leads to the goal.
-/
theorem search_spec (goal : κ) (closed : ∀ key ∈ nodes, next key ⊆ nodes)
    (start : current ∈ nodes)
    : ∃ found later,
        search next goal (nodes.length + 1) [] current = some (found, later)
        ∧ (found = true ↔ Relation.TransGen (Edge next) current goal) := by
  have enough : unseen nodes [] < nodes.length + 1 :=
    Nat.lt_succ_of_le (List.length_filter_le _ _)
  obtain ⟨found, later, done, -⟩ := search_isSome closed start enough
  refine ⟨found, later, done, ?_⟩
  cases found with
  | true => exact iff_of_true rfl (transGen_of_search done)
  | false =>
      obtain ⟨explored, reached⟩ := explored_of_search done
      exact iff_of_false Bool.false_ne_true (explored.not_transGen reached)

end DepthFirst
