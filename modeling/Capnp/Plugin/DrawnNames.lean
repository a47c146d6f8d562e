import Capnp.Plugin.Names

/-! Names drawn in passes over the fields of a struct. A pass begins without names in use, or with
those that an earlier pass leaves; each base gets the first of its candidates that is unused.
-/

namespace Capnp.Plugin

-----------------------------------------------------------------------------------------
-- The first name that is not in use
-----------------------------------------------------------------------------------------

/-- The names that are tried for a base, in this order. -/
def candidate (base : String) : Nat → String
  | 0 => base
  | counter + 1 => withCounter base (counter + 1)

/-- The first candidate that is not in use. -/
def FirstUnused (base : String) (used : List String) (counter : Nat) : Prop :=
  candidate base counter ∉ used ∧ ∀ lower < counter, candidate base lower ∈ used

/-- The first unused counter is the only one. -/
theorem FirstUnused.unique {base : String} {used : List String} {counter other : Nat}
    (first : FirstUnused base used counter) (second : FirstUnused base used other)
    : counter = other := by
  rcases Nat.lt_trichotomy counter other with below | same | above
  · exact absurd (second.2 counter below) first.1
  · exact same
  · exact absurd (first.2 other above) second.1

/-- The loop passes over names that are in use, by induction on the fuel. -/
theorem firstUnused_eq_some {base : String} {used : List String} {fuel counter : Nat}
    {name : String} (found : firstUnused base used fuel counter = some name)
    : ∃ offset, name = withCounter base (counter + offset)
        ∧ ∀ lower < offset, withCounter base (counter + lower) ∈ used := by
  induction fuel generalizing counter with
  | zero => cases found
  | succ fuel ih =>
      unfold firstUnused at found
      split_ifs at found with taken
      · obtain ⟨offset, rfl, below⟩ := ih found
        refine ⟨offset + 1, by rw [Nat.add_assoc, Nat.add_comm 1], fun lower bound => ?_⟩
        cases lower with
        | zero => exact taken
        | succ lower =>
            have earlier := below lower (Nat.lt_of_succ_lt_succ bound)
            rwa [Nat.add_assoc, Nat.add_comm 1] at earlier
      · exact ⟨0, (Option.some.inj found).symm, fun lower bound => absurd bound (Nat.not_lt_zero _)⟩

/-- A name is drawn with the first unused counter. -/
theorem uniqueName_spec (base : String) (used : List String)
    : ∃ counter, FirstUnused base used counter
        ∧ (uniqueName base used).1 = candidate base counter := by
  have unused := uniqueName_unused base used
  unfold uniqueName at unused ⊢
  dsimp only at unused ⊢
  split_ifs at unused ⊢ with taken
  · obtain ⟨name, found⟩ := Option.isSome_iff_exists.mp (firstUnused_isSome base used)
    obtain ⟨offset, rfl, below⟩ := firstUnused_eq_some found
    rw [found, Option.getD_some, Nat.add_comm 1] at unused
    rw [found, Option.getD_some, Nat.add_comm 1]
    refine ⟨offset + 1, ⟨unused, fun lower bound => ?_⟩, rfl⟩
    cases lower with
    | zero => exact taken
    | succ lower =>
        have earlier := below lower (Nat.lt_of_succ_lt_succ bound)
        rwa [Nat.add_comm 1] at earlier
  · exact ⟨0, ⟨taken, fun lower bound => absurd bound (Nat.not_lt_zero _)⟩, rfl⟩

/-- With more names in use the same name is drawn exactly when it is not one of them. -/
theorem uniqueName_eq_iff {base : String} {own all : List String} (included : own ⊆ all)
    : (uniqueName base own).1 = (uniqueName base all).1 ↔ (uniqueName base own).1 ∉ all := by
  constructor
  · intro same
    rw [same]
    exact uniqueName_unused base all
  · intro free
    obtain ⟨counter, first, drawn⟩ := uniqueName_spec base own
    obtain ⟨other, second, drawnOther⟩ := uniqueName_spec base all
    rw [drawn] at free
    have also : FirstUnused base all counter :=
      ⟨free, fun lower bound => included (first.2 lower bound)⟩
    rw [drawn, drawnOther, also.unique second]

-----------------------------------------------------------------------------------------
-- Names by field
-----------------------------------------------------------------------------------------

/-- Draws the names of one field after the other. -/
def drawByField : List (List String) → List String → List (List String) × List String
  | [], used => ([], used)
  | bases :: rest, used =>
      let (names, used) := uniqueNames bases used
      let (others, used) := drawByField rest used
      (names :: others, used)

/-- The names of all fields are drawn one after the other, by induction on the fields. -/
theorem drawByField_drawn (bases : List (List String)) (used : List String)
    : Drawn (drawByField bases used).1.flatten used (drawByField bases used).2 := by
  induction bases generalizing used with
  | nil => exact ⟨rfl, .nil, by simp [drawByField]⟩
  | cons first rest ih => exact (uniqueNames_drawn first used).append (ih _)

/-- A field is given what is drawn with the names in use that the fields before it leave. -/
theorem drawByField_getElem? (bases : List (List String)) (used : List String) (index : Nat)
    : (drawByField bases used).1[index]?
      = bases[index]?.map (fun field =>
          (uniqueNames field (drawByField (bases.take index) used).2).1) := by
  induction bases generalizing used index with
  | nil => rfl
  | cons first rest ih =>
      cases index with
      | zero => rfl
      | succ index => exact ih _ index

/-- All names that are drawn from bases with one first letter begin with it. -/
def Begins (first : Char) (name : String) : Prop :=
  name.toList.head? = some first

instance (first : Char) (name : String) : Decidable (Begins first name) :=
  inferInstanceAs (Decidable (_ = _))

/-- Adding to a name leaves its first letter. -/
theorem begins_append {first : Char} {name : String} (begins : Begins first name) (more : String)
    : Begins first (name ++ more) := by
  unfold Begins at begins ⊢
  rw [String.toList_append, List.head?_append, begins]
  rfl

/-- A drawn name begins as its base does. -/
theorem uniqueName_begins {first : Char} {base : String} (begins : Begins first base)
    (used : List String)
    : Begins first (uniqueName base used).1 := by
  obtain ⟨counter, -, drawn⟩ := uniqueName_spec base used
  rw [drawn]
  cases counter with
  | zero => exact begins
  | succ counter =>
      rw [candidate, withCounter]
      exact begins_append (begins_append begins _) _

/-- So do several of them, by induction on the bases. -/
theorem uniqueNames_begins {first : Char} {bases : List String}
    (begins : ∀ base ∈ bases, Begins first base) (used : List String)
    : ∀ name ∈ (uniqueNames bases used).1, Begins first name := by
  induction bases generalizing used with
  | nil => exact fun name member => absurd member List.not_mem_nil
  | cons base rest ih =>
      obtain ⟨here, there⟩ := List.forall_mem_cons.mp begins
      exact List.forall_mem_cons.mpr ⟨uniqueName_begins here used, ih there _⟩

/-- So do those of all fields, by induction on the fields. -/
theorem drawByField_begins {first : Char} {bases : List (List String)}
    (begins : ∀ field ∈ bases, ∀ base ∈ field, Begins first base) (used : List String)
    : ∀ names ∈ (drawByField bases used).1, ∀ name ∈ names, Begins first name := by
  induction bases generalizing used with
  | nil => exact fun names member => absurd member List.not_mem_nil
  | cons field rest ih =>
      obtain ⟨here, there⟩ := List.forall_mem_cons.mp begins
      exact List.forall_mem_cons.mpr ⟨uniqueNames_begins here used, ih there _⟩

-----------------------------------------------------------------------------------------
-- Families of names
-----------------------------------------------------------------------------------------

/-- Names with one first letter, drawn in several passes over the fields. -/
structure NameFamily where
  first : Char
  passes : List (List (List String))
  begins : ∀ pass ∈ passes, ∀ names ∈ pass, ∀ name ∈ names, Begins first name
  distinct : (passes.flatMap List.flatten).Nodup

def NameFamily.names (family : NameFamily) (index : Nat) : List String :=
  family.passes.flatMap (fun pass => pass.getD index [])

/-- A name of a field by the field's index. -/
theorem mem_getD {names : List (List String)} {index : Nat} {name : String}
    (member : name ∈ names.getD index [])
    : ∃ field, names[index]? = some field ∧ name ∈ field := by
  rw [List.getD_eq_getElem?_getD] at member
  cases found : names[index]? with
  | none => simp [found] at member
  | some field => exact ⟨field, rfl, by simpa [found] using member⟩

/-- The names of one field are among all of them. -/
theorem getD_subset_flatten (names : List (List String)) (index : Nat)
    : names.getD index [] ⊆ names.flatten := by
  intro name member
  obtain ⟨field, found, inside⟩ := mem_getD member
  exact List.mem_flatten_of_mem (List.mem_of_getElem? found) inside

/-- Two fields share no name when all names differ. -/
theorem disjoint_getD {names : List (List String)} (distinct : names.flatten.Nodup)
    {index other : Nat} (different : index ≠ other)
    : List.Disjoint (names.getD index []) (names.getD other []) := by
  have apart := List.pairwise_iff_getElem.mp (List.nodup_flatten.mp distinct).2
  have ordered {lower upper : Nat} (before : lower < upper)
      : List.Disjoint (names.getD lower []) (names.getD upper []) := by
    intro name member also
    obtain ⟨field, found, inside⟩ := mem_getD member
    obtain ⟨next, foundNext, insideNext⟩ := mem_getD also
    obtain ⟨bound, rfl⟩ := List.getElem?_eq_some_iff.mp found
    obtain ⟨boundNext, rfl⟩ := List.getElem?_eq_some_iff.mp foundNext
    exact apart lower upper bound boundNext before inside insideNext
  rcases Nat.lt_or_gt_of_ne different with before | after
  · exact ordered before
  · exact List.disjoint_symm (ordered after)

/-- Two fields of a family share no name. -/
theorem NameFamily.apart (family : NameFamily) {index other : Nat} (different : index ≠ other)
    : List.Disjoint (family.names index) (family.names other) := by
  have each (passes : List (List (List String)))
      (distinct : (passes.flatMap List.flatten).Nodup)
      : List.Disjoint (passes.flatMap (fun pass => pass.getD index []))
          (passes.flatMap (fun pass => pass.getD other [])) := by
    have included (passes : List (List (List String))) (index : Nat)
        : passes.flatMap (fun pass => pass.getD index []) ⊆ passes.flatMap List.flatten := by
      intro name member
      obtain ⟨pass, listed, inside⟩ := List.mem_flatMap.mp member
      exact List.mem_flatMap.mpr ⟨pass, listed, getD_subset_flatten pass index inside⟩
    induction passes with
    | nil => exact List.disjoint_nil_left _
    | cons pass rest ih =>
        rw [List.flatMap_cons, List.nodup_append'] at distinct
        obtain ⟨here, there, apart⟩ := distinct
        rw [List.flatMap_cons, List.flatMap_cons, List.disjoint_append_left,
          List.disjoint_append_right, List.disjoint_append_right]
        refine ⟨⟨disjoint_getD here different, ?_⟩, ?_, ih there⟩
        · exact fun name first second =>
            apart (getD_subset_flatten pass index first) (included rest other second)
        · exact fun name first second =>
            apart (getD_subset_flatten pass other second) (included rest index first)
  exact each family.passes family.distinct

/-- The names of a family begin with its letter. -/
theorem NameFamily.begins_names (family : NameFamily) {index : Nat} {name : String}
    (member : name ∈ family.names index)
    : Begins family.first name := by
  obtain ⟨pass, listed, inside⟩ := List.mem_flatMap.mp member
  obtain ⟨field, found, inner⟩ := mem_getD inside
  exact family.begins pass listed field (List.mem_of_getElem? found) name inner

/-- Families with different first letters share no name. -/
theorem disjoint_families {families : List NameFamily}
    (letters : (families.map NameFamily.first).Nodup) {index other : Nat}
    (different : index ≠ other)
    : List.Disjoint (families.flatMap (fun family => family.names index))
        (families.flatMap (fun family => family.names other)) := by
  intro name member also
  obtain ⟨family, listed, inside⟩ := List.mem_flatMap.mp member
  obtain ⟨next, listedNext, insideNext⟩ := List.mem_flatMap.mp also
  have first : family.first = next.first :=
    Option.some.inj ((family.begins_names inside).symm.trans (next.begins_names insideNext))
  obtain rfl := List.inj_on_of_nodup_map letters listed listedNext first
  exact family.apart different inside insideNext

/-- One pass over the fields. -/
def NameFamily.ofBases (first : Char) (bases : List (List String))
    (begins : ∀ field ∈ bases, ∀ base ∈ field, Begins first base) : NameFamily where
  first := first
  passes := [(drawByField bases []).1]
  begins := by
    intro pass listed
    rw [List.mem_singleton.mp listed]
    exact drawByField_begins begins []
  distinct := by simpa using (drawByField_drawn bases []).distinct

/-- The family of names drawn from bases. -/
theorem names_ofBases {first : Char} {bases : List (List String)}
    {begins : ∀ field ∈ bases, ∀ base ∈ field, Begins first base} {index : Nat}
    : (NameFamily.ofBases first bases begins).names index
      = (drawByField bases []).1.getD index [] :=
  List.append_nil _

-----------------------------------------------------------------------------------------
-- Names without counters
-----------------------------------------------------------------------------------------

/-- A name that does not end in an underscore and a counter. -/
def Plain (name : String) : Prop :=
  ∀ base counter, name ≠ withCounter base (counter + 1)

/-- The counter is what follows the last underscore. -/
theorem withCounter_eq_iff {base other : String} {counter next : Nat}
    : withCounter base counter = withCounter other next ↔ base = other ∧ counter = next := by
  refine ⟨fun same => ?_, fun ⟨bases, counters⟩ => bases ▸ counters ▸ rfl⟩
  have digits (counter : Nat) : ∀ c ∈ (Nat.toDigits 10 counter).reverse, c != '_' := by
    intro c member
    rw [bne_iff_ne]
    rintro rfl
    exact Nat.underscore_not_in_toDigits (List.mem_reverse.mp member)
  have chars (base : String) (counter : Nat)
      : (withCounter base counter).toList.reverse
        = (Nat.toDigits 10 counter).reverse ++ '_' :: base.toList.reverse := by
    simp [withCounter]
  have last (base : String) (counter : Nat)
      : (withCounter base counter).toList.reverse.takeWhile (fun c => c != '_')
        = (Nat.toDigits 10 counter).reverse := by
    rw [chars, List.takeWhile_append_of_pos (digits counter)]
    simp
  have counters : (Nat.toDigits 10 counter).reverse = (Nat.toDigits 10 next).reverse := by
    rw [← last base counter, same, last]
  have rest : (Nat.toDigits 10 counter).reverse ++ '_' :: base.toList.reverse
      = (Nat.toDigits 10 next).reverse ++ '_' :: other.toList.reverse := by
    rw [← chars, same, chars]
  rw [counters, List.append_right_inj, List.cons.injEq, List.reverse_inj, String.toList_inj] at rest
  obtain rfl := rest.2
  exact ⟨rfl, withCounter_inj.mp same⟩

/-- Candidates of bases without counters are the same only for one base and one counter. -/
theorem candidate_eq_iff {base other : String} (plain : Plain base) (plainOther : Plain other)
    {counter next : Nat}
    : candidate base counter = candidate other next ↔ base = other ∧ counter = next := by
  cases counter with
  | zero =>
      cases next with
      | zero => simp [candidate]
      | succ next => simp [candidate, plain other next]
  | succ counter =>
      cases next with
      | zero => simp [candidate, (plainOther base counter).symm]
      | succ next => simp [candidate, withCounter_eq_iff]

/-- So many candidates of each base are in use, from the first one on. -/
def InUse (used : List String) (count : String → Nat) : Prop :=
  ∀ base, Plain base → ∀ counter, candidate base counter ∈ used ↔ counter < count base

/-- One more name in use has the next counter of its base. -/
theorem InUse.uniqueName {used : List String} {count : String → Nat} (inUse : InUse used count)
    {base : String} (plain : Plain base)
    : InUse (Plugin.uniqueName base used).2 (fun other => count other + [base].count other) := by
  obtain ⟨counter, first, drawn⟩ := uniqueName_spec base used
  have same : counter = count base := by
    have upper : count base ≤ counter :=
      Nat.le_of_not_lt (fun below => first.1 ((inUse base plain counter).mpr below))
    have lower : ¬ count base < counter :=
      fun below => absurd ((inUse base plain (count base)).mp (first.2 _ below)) (Nat.lt_irrefl _)
    exact Nat.le_antisymm (Nat.le_of_not_lt lower) upper
  intro other plainOther next
  have members
      : candidate other next ∈ (Plugin.uniqueName base used).2
        ↔ (other = base ∧ next = counter) ∨ next < count other := by
    rw [← inUse other plainOther, ← candidate_eq_iff plainOther plain, ← drawn]
    exact List.mem_cons
  change _ ↔ next < count other + [base].count other
  rw [members, List.count_singleton, same]
  by_cases equal : other = base
  · subst equal
    simp only [true_and, beq_self_eq_true, if_true]
    omega
  · have different : (base == other) = false := beq_false_of_ne (Ne.symm equal)
    simp only [equal, false_and, false_or, different, Bool.false_eq_true, if_false, Nat.add_zero]

/-- The same for several bases, by induction on them. -/
theorem InUse.uniqueNames {used : List String} {count : String → Nat} (inUse : InUse used count)
    {bases : List String} (plain : ∀ base ∈ bases, Plain base)
    : InUse (Plugin.uniqueNames bases used).2 (fun other => count other + bases.count other) := by
  induction bases generalizing used count with
  | nil => exact inUse
  | cons base rest ih =>
      obtain ⟨here, there⟩ := List.forall_mem_cons.mp plain
      have later := ih (inUse.uniqueName here) there
      simp only [Nat.add_assoc, ← List.count_append, List.singleton_append] at later
      exact later

/-- The same for the bases of all fields, by induction on the fields. -/
theorem InUse.drawByField {used : List String} {count : String → Nat} (inUse : InUse used count)
    {bases : List (List String)} (plain : ∀ field ∈ bases, ∀ base ∈ field, Plain base)
    : InUse (Plugin.drawByField bases used).2
        (fun other => count other + bases.flatten.count other) := by
  induction bases generalizing used count with
  | nil => exact inUse
  | cons field rest ih =>
      obtain ⟨here, there⟩ := List.forall_mem_cons.mp plain
      have later := ih (inUse.uniqueNames here) there
      simp only [Nat.add_assoc, ← List.count_append] at later
      exact later

/-- Nothing is in use at first. -/
theorem inUse_nil : InUse [] (fun _ => 0) := by
  intro base _ counter
  simp

end Capnp.Plugin
