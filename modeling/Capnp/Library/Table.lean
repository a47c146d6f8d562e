import Mathlib.Data.List.AList

/-! Finite tables with unique keys, and how many of their entries carry a given value.
A table is Mathlib's association list with a constant value type; only the counting
facts that reference-count arguments need are added here.
-/

/-- A finite map from keys to values, in insertion order. -/
abbrev Table (κ α : Type*) := AList (fun _ : κ => α)

namespace Table

variable {κ α : Type*}

/-- The stored values, in the order of their keys. -/
def values (table : Table κ α) : List α :=
  table.entries.map Sigma.snd

/-- An empty table has no values. -/
@[simp] theorem values_empty : values (∅ : Table κ α) = [] := rfl

/-- How many entries carry `value`. -/
def countValue [DecidableEq α] (table : Table κ α) (value : α) : Nat :=
  table.values.count value

/-- Nothing is counted in an empty table. -/
@[simp] theorem countValue_empty [DecidableEq α] (value : α)
    : countValue (∅ : Table κ α) value = 0 := rfl

variable [DecidableEq κ]

/-- Inserting under a new key puts the value in front of the others. -/
theorem values_insert_fresh {table : Table κ α} {key : κ} (fresh : key ∉ table) (value : α)
    : values (table.insert key value) = value :: values table := by
  simp only [values, AList.entries_insert_of_notMem fresh, List.map_cons]

/-- Removing a present entry removes one occurrence of its value.
Witness: erasure splits the entries around the key, whose value is unique.
-/
theorem values_perm_of_lookup {table : Table κ α} {key : κ} {value : α}
    (found : table.lookup key = some value)
    : (values table).Perm (value :: values (table.erase key)) := by
  have present : key ∈ table := AList.lookup_isSome.mp (by simp [found])
  obtain ⟨other, before, after, _, split, erased⟩ := List.exists_of_kerase present
  have same : other = value := by
    have stored : (⟨key, other⟩ : Sigma fun _ : κ => α) ∈ table.entries := by simp [split]
    have looked := List.mem_dlookup table.nodupKeys stored
    exact Option.some.inj (looked.symm.trans found)
  subst other
  have remaining : values (table.erase key) = (before ++ after).map (fun entry => entry.2) := by
    simp only [values, ← erased]
    rfl
  rw [remaining]
  simp only [values, split, List.map_append, List.map_cons]
  exact List.perm_middle

/-- What is found is a value. -/
theorem mem_values_of_lookup {table : Table κ α} {key : κ} {value : α}
    (found : table.lookup key = some value)
    : value ∈ values table :=
  (values_perm_of_lookup found).mem_iff.mpr List.mem_cons_self

/-- Two keys whose values share a mark are one key when no two values share one. -/
theorem key_eq_of_nodup {β : Type*} {table : Table κ α} {mark : α → β}
    (distinct : ((values table).map mark).Nodup) {key other : κ} {value same : α}
    (found : table.lookup key = some value) (also : table.lookup other = some same)
    (marks : mark value = mark same)
    : key = other := by
  by_contra different
  have remaining : (table.erase key).lookup other = some same :=
    (AList.lookup_erase_ne (Ne.symm different)).trans also
  have split := ((values_perm_of_lookup found).map mark).nodup_iff.mp distinct
  have unmarked := (List.nodup_cons.mp (List.map_cons ▸ split)).1
  exact unmarked (marks ▸ List.mem_map_of_mem (mem_values_of_lookup remaining))

/-- The keys whose values satisfy `erased` are collected first and erased then. -/
def eraseWhere (erased : α → Bool) (table : Table κ α) : Table κ α :=
  ((table.entries.filter (fun entry => erased entry.2)).map Sigma.fst).foldl
    (fun table key => table.erase key) table

/-- Erasing keys one by one, by induction on them. -/
theorem lookup_foldl_erase (keys : List κ) (table : Table κ α) (key : κ)
    : (keys.foldl (fun table key => table.erase key) table).lookup key
      = if key ∈ keys then none else table.lookup key := by
  induction keys generalizing table with
  | nil => simp
  | cons first rest ih =>
      rw [List.foldl_cons, ih]
      rcases eq_or_ne key first with rfl | same
      · simp
      · simp [same, AList.lookup_erase_ne same]

/-- Removing present entries one by one removes one occurrence of the value of each. -/
theorem values_perm_foldl_erase {table : Table κ α} {removed : List (Sigma fun _ : κ => α)}
    (distinct : (removed.map Sigma.fst).Nodup)
    (present : ∀ entry ∈ removed, table.lookup entry.1 = some entry.2)
    : (values table).Perm
        (removed.map Sigma.snd
          ++ values ((removed.map Sigma.fst).foldl (fun table key => table.erase key) table)) := by
  induction removed generalizing table with
  | nil => exact .refl _
  | cons first rest ih =>
      obtain ⟨others, restDistinct⟩ := List.nodup_cons.mp distinct
      have found := present first List.mem_cons_self
      refine (values_perm_of_lookup found).trans (List.Perm.cons first.2 (ih restDistinct ?_))
      intro entry member
      have different : entry.1 ≠ first.1 := fun same => others (same ▸ List.mem_map_of_mem member)
      rw [AList.lookup_erase_ne different]
      exact present entry (List.mem_cons_of_mem _ member)

/-- Inserting what is made of the entries of a list, by induction on the list. -/
theorem lookup_foldl_insert {β : Type*} (make : β → α) {entries : List (Sigma fun _ : κ => β)}
    (distinct : entries.NodupKeys) (table : Table κ α) (key : κ)
    : (entries.foldl (fun table entry => table.insert entry.1 (make entry.2)) table).lookup key
      = ((entries.dlookup key).map make).or (table.lookup key) := by
  induction entries generalizing table with
  | nil => rfl
  | cons entry rest ih =>
      obtain ⟨fresh, distinct⟩ := List.nodupKeys_cons.mp distinct
      rw [List.foldl_cons, ih distinct]
      rcases eq_or_ne key entry.1 with rfl | different
      · rw [List.dlookup_eq_none.mpr fresh, List.dlookup_cons_eq, AList.lookup_insert]
        rfl
      · rw [List.dlookup_cons_ne _ _ different, AList.lookup_insert_ne different]

/-- The values are what is found under some key. -/
theorem mem_values_iff {table : Table κ α} {value : α}
    : value ∈ values table ↔ ∃ key, table.lookup key = some value := by
  constructor
  · intro member
    obtain ⟨⟨key, stored⟩, entry, rfl⟩ := List.mem_map.mp member
    exact ⟨key, AList.mem_lookup_iff.mpr entry⟩
  · rintro ⟨key, found⟩
    exact mem_values_of_lookup found

/-- Exactly the values that are not erased stay. -/
theorem mem_values_eraseWhere {erased : α → Bool} {table : Table κ α} {value : α}
    : value ∈ values (eraseWhere erased table) ↔ value ∈ values table ∧ erased value = false := by
  have found (key : κ) (value : α) : (eraseWhere erased table).lookup key = some value
      ↔ table.lookup key = some value ∧ erased value = false := by
    rw [eraseWhere, lookup_foldl_erase]
    constructor
    · intro looked
      split_ifs at looked with gone
      refine ⟨looked, Bool.eq_false_iff.mpr (fun erase => gone ?_)⟩
      exact List.mem_map.mpr
        ⟨⟨key, value⟩, List.mem_filter.mpr ⟨AList.mem_lookup_iff.mp looked, erase⟩, rfl⟩
    · rintro ⟨looked, kept⟩
      rw [if_neg, looked]
      intro gone
      obtain ⟨⟨same, other⟩, entry, rfl⟩ := List.mem_map.mp gone
      obtain ⟨stored, erase⟩ := List.mem_filter.mp entry
      have equal := (AList.mem_lookup_iff.mpr stored).symm.trans looked
      obtain rfl : other = value := Option.some.inj equal
      simp [kept] at erase
  simp only [mem_values_iff, found, exists_and_right]

/-- Inserting adds its value at most, and may drop the one under its key. -/
theorem mem_values_insert {table : Table κ α} {key : κ} {added value : α}
    (member : value ∈ values (table.insert key added))
    : value = added ∨ value ∈ values table := by
  obtain ⟨other, found⟩ := mem_values_iff.mp member
  rcases eq_or_ne other key with rfl | same
  · exact .inl (by simpa using found.symm)
  · exact .inr (mem_values_iff.mpr ⟨other, by rwa [AList.lookup_insert_ne same] at found⟩)

/-- Erasing a key adds no value. -/
theorem mem_values_erase {table : Table κ α} {key : κ} {value : α}
    (member : value ∈ values (table.erase key))
    : value ∈ values table := by
  obtain ⟨other, found⟩ := mem_values_iff.mp member
  rcases eq_or_ne other key with rfl | same
  · simp at found
  · exact mem_values_iff.mpr ⟨other, by rwa [AList.lookup_erase_ne same] at found⟩

/-- Changes the value under a present key. -/
def modify (key : κ) (change : α → α) (table : Table κ α) : Table κ α :=
  match table.lookup key with
  | none => table
  | some value => table.insert key (change value)

/-- Exactly one entry is changed. -/
theorem lookup_modify (key other : κ) (change : α → α) (table : Table κ α)
    : (modify key change table).lookup other
      = if other = key then (table.lookup key).map change else table.lookup other := by
  unfold modify
  cases found : table.lookup key with
  | none =>
      rcases eq_or_ne other key with rfl | same
      · simp [found]
      · simp [same]
  | some value =>
      rcases eq_or_ne other key with rfl | same
      · simp
      · simp [same, AList.lookup_insert_ne same]

/-- Changes all values. -/
def mapValues {β : Type*} (change : α → β) (table : Table κ α) : Table κ β where
  entries := table.entries.map (fun entry => ⟨entry.1, change entry.2⟩)
  nodupKeys := by
    have same
        : (table.entries.map
              (fun entry => (⟨entry.1, change entry.2⟩ : Sigma fun _ : κ => β))).keys
          = table.entries.keys := by
      simp [List.keys, Function.comp_def]
    rw [List.NodupKeys, same]
    exact table.nodupKeys

/-- All entries are changed. -/
theorem lookup_mapValues {β : Type*} (change : α → β) (table : Table κ α) (key : κ)
    : (mapValues change table).lookup key = (table.lookup key).map change := by
  ext value
  rw [← Option.mem_def, AList.mem_lookup_iff, Option.map_eq_some_iff]
  constructor
  · intro member
    obtain ⟨⟨found, stored⟩, entry, same⟩ := List.mem_map.mp member
    obtain ⟨rfl, rfl⟩ := Sigma.mk.inj_iff.mp same
    exact ⟨stored, AList.mem_lookup_iff.mpr entry, rfl⟩
  · intro ⟨stored, found, same⟩
    exact List.mem_map.mpr ⟨⟨key, stored⟩, AList.mem_lookup_iff.mp found, by rw [← same]⟩

section Count

variable [DecidableEq α]

/-- A fresh entry adds one to the count of its value and nothing to the others. -/
theorem countValue_insert_fresh {table : Table κ α} {key : κ} (fresh : key ∉ table)
    (added value : α)
    : countValue (table.insert key added) value
      = countValue table value + if added = value then 1 else 0 := by
  simp [countValue, values_insert_fresh fresh, List.count_cons]

/-- Removing a present entry takes one from the count of its value. -/
theorem countValue_erase {table : Table κ α} {key : κ} {removed : α}
    (found : table.lookup key = some removed) (value : α)
    : countValue table value
      = countValue (table.erase key) value + if removed = value then 1 else 0 := by
  simpa [countValue, List.count_cons] using (values_perm_of_lookup found).count_eq value

/-- The keys whose entries carry `value`. -/
def keysOf (table : Table κ α) (value : α) : List κ :=
  (table.entries.filter (fun entry => entry.2 = value)).map Sigma.fst

omit [DecidableEq κ] in
/-- There are as many keys of a value as its count. -/
theorem length_keysOf (table : Table κ α) (value : α)
    : (keysOf table value).length = countValue table value := by
  rw [keysOf, List.length_map, countValue, values, List.count, List.countP_map,
    List.countP_eq_length_filter]
  congr 1

omit [DecidableEq κ] in
/-- The keys of a value differ. -/
theorem nodup_keysOf (table : Table κ α) (value : α) : (keysOf table value).Nodup :=
  table.keys_nodup.sublist ((List.filter_sublist).map Sigma.fst)

/-- The keys of a value are those that it is found under. -/
theorem mem_keysOf {table : Table κ α} {value : α} {key : κ}
    : key ∈ keysOf table value ↔ table.lookup key = some value := by
  simp only [keysOf, List.mem_map, List.mem_filter, decide_eq_true_eq]
  constructor
  · rintro ⟨⟨found, stored⟩, ⟨member, same⟩, eq⟩
    subst same eq
    exact AList.mem_lookup_iff.mpr member
  · intro found
    exact ⟨⟨key, value⟩, ⟨AList.mem_lookup_iff.mp found, rfl⟩, rfl⟩

end Count

end Table
