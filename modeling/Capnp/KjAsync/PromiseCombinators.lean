import Capnp.KjAsync.PromiseTable
import Capnp.Rpc.TargetIds

/-! What a promise combinator leaves when it fails. Each of them takes its promises one after
the other, so that a failure after the first finds some of them retired already.
-/

namespace Capnp.KjAsync

open EventLoop (Promises)
open Rpc (allocateId allocateId_isSome allocateId_spec withId withoutId)

variable {P E : Type} {kj : Promises P E} {texts : PromiseTexts} {table : PromiseTable P}
  {ids : List UInt32} {promiseId : UInt32}

/-- A table with an unused id has room for it. Witness: the unused id and the keys are
distinct 32-bit numbers.
-/
theorem exists_allocated {α : Type} {promises : Table UInt32 α} {unused : UInt32}
    (absent : unused ∉ promises) (next : UInt32)
    : ∃ allocated, allocateId promises (promises.keys.length + 1) next = some allocated := by
  refine Option.isSome_iff_exists.mp (allocateId_isSome promises next ?_)
  have distinct : ((unused :: promises.keys).map UInt32.toNat).Nodup := by
    refine List.Nodup.map (fun _ _ same => UInt32.toNat_inj.mp same) ?_
    refine List.nodup_cons.mpr ⟨fun member => ?_, promises.keys_nodup⟩
    exact absent (AList.mem_keys.mpr member)
  have within : (unused :: promises.keys).map UInt32.toNat ⊆ List.range (2 ^ 32) := by
    intro number member
    obtain ⟨key, -, rfl⟩ := List.mem_map.mp member
    exact List.mem_range.mpr key.toNat_lt
  have bound := distinct.length_le_of_subset within
  simp only [List.length_map, List.length_cons, List.length_range] at bound
  omega

/-- A promise is added under an unused id and a canceler of its own. -/
theorem addWrapped_spec {promise : P} {after : PromiseTable P}
    (added : addWrapped kj promise table = some (promiseId, after))
    : promiseId ∉ table.promises
      ∧ after.promises
        = table.promises.insert promiseId ⟨kj.wrap table.cancelers promise, table.cancelers⟩
      ∧ after.retiredPromiseIds = table.retiredPromiseIds.erase promiseId
      ∧ after.taskSets = table.taskSets := by
  obtain ⟨⟨foundId, next⟩, allocated, same⟩ := Option.map_eq_some_iff.mp added
  obtain ⟨rfl, rfl⟩ := Prod.mk.inj same
  exact ⟨(allocateId_spec allocated).1, rfl, rfl, rfl⟩

/-- With an unused id there is one for a new promise. -/
theorem exists_added {unused : UInt32} (kj : Promises P E) (promise : P)
    (absent : unused ∉ table.promises)
    : ∃ promiseId after, addWrapped kj promise table = some (promiseId, after) := by
  obtain ⟨⟨promiseId, next⟩, allocated⟩ := exists_allocated absent table.nextPromiseId
  exact ⟨promiseId, _, Option.map_eq_some_iff.mpr ⟨_, allocated, rfl⟩⟩

-----------------------------------------------------------------------------------------
-- Taking promises
-----------------------------------------------------------------------------------------

def PromiseTable.promise? (table : PromiseTable P) (promiseId : UInt32) : Option P :=
  (table.promises.lookup promiseId).map PendingPromise.promise

/-- The live promises among the ids, in their order. -/
def PromiseTable.stored (table : PromiseTable P) (ids : List UInt32) : List P :=
  ids.filterMap table.promise?

/-- All the ids are live and none is given twice. -/
def PromiseTable.Takeable (table : PromiseTable P) (ids : List UInt32) : Prop :=
  ids.Nodup ∧ ∀ promiseId ∈ ids, promiseId ∈ table.promises

def PromiseTable.retireAll (ids : List UInt32) (table : PromiseTable P) : PromiseTable P :=
  ids.foldl (fun table promiseId => table.retire promiseId) table

/-- Promises are retired one by one. -/
@[simp] theorem retireAll_cons
    : table.retireAll (promiseId :: ids) = (table.retire promiseId).retireAll ids := rfl

/-- Retired promises leave the table. -/
theorem promises_retireAll
    : (table.retireAll ids).promises
      = ids.foldl (fun promises promiseId => promises.erase promiseId) table.promises := by
  induction ids generalizing table with
  | nil => rfl
  | cons first rest ih => exact ih

/-- Exactly the retired promises are gone. -/
theorem lookup_retireAll (promiseId : UInt32)
    : (table.retireAll ids).promises.lookup promiseId
      = if promiseId ∈ ids then none else table.promises.lookup promiseId := by
  rw [promises_retireAll, Table.lookup_foldl_erase]

/-- The retired ids are remembered. -/
theorem mem_retired_retireAll (promiseId : UInt32)
    : promiseId ∈ (table.retireAll ids).retiredPromiseIds
      ↔ promiseId ∈ table.retiredPromiseIds ∨ promiseId ∈ ids := by
  induction ids generalizing table with
  | nil => simp [PromiseTable.retireAll]
  | cons first rest ih =>
      rw [retireAll_cons, ih, List.mem_cons, PromiseTable.retire, Finset.mem_insert]
      tauto

/-- Retiring concerns the promises only. -/
theorem frame_retireAll (table : PromiseTable P) (ids : List UInt32)
    : (table.retireAll ids).taskSets = table.taskSets
      ∧ (table.retireAll ids).cancelers = table.cancelers := by
  induction ids generalizing table with
  | nil => exact ⟨rfl, rfl⟩
  | cons first rest ih => exact ih (table.retire first)

/-- Nothing can always be taken. -/
theorem takeable_nil : table.Takeable [] :=
  ⟨List.nodup_nil, by simp⟩

/-- A list can be taken if its first promise is there, and the rest without it. -/
theorem takeable_cons
    : table.Takeable (promiseId :: ids)
      ↔ promiseId ∈ table.promises ∧ (table.retire promiseId).Takeable ids := by
  simp only [PromiseTable.Takeable, List.nodup_cons, List.forall_mem_cons, PromiseTable.retire,
    AList.mem_erase]
  constructor
  · rintro ⟨⟨absent, distinct⟩, first, rest⟩
    exact ⟨first, distinct, fun other member =>
      ⟨fun same => absent (same ▸ member), rest other member⟩⟩
  · rintro ⟨first, distinct, rest⟩
    exact ⟨⟨fun member => (rest _ member).1 rfl, distinct⟩, first,
      fun other member => (rest other member).2⟩

/-- Retiring a promise leaves the others as they are stored. -/
theorem stored_retire (absent : promiseId ∉ ids)
    : (table.retire promiseId).stored ids = table.stored ids := by
  refine List.filterMap_congr (fun other member => ?_)
  have different : other ≠ promiseId := fun same => absent (same ▸ member)
  simp [PromiseTable.promise?, PromiseTable.retire, AList.lookup_erase_ne different]

/-- A live promise is taken. -/
theorem takePromise_of_live {retired : UInt32 → String} {pending : PendingPromise P}
    (live : table.promises.lookup promiseId = some pending)
    : takePromise texts retired promiseId table = (.ok pending, table.retire promiseId) := by
  simp [takePromise, live]

/-- A missing promise is an error that takes nothing. -/
theorem takePromise_of_missing (texts : PromiseTexts) (retired : UInt32 → String)
    (missing : promiseId ∉ table.promises)
    : ∃ message, takePromise texts retired promiseId table = (.error message, table) := by
  rw [takePromise, AList.lookup_eq_none.mpr missing]
  by_cases known : promiseId ∈ table.retiredPromiseIds
  · exact ⟨_, if_pos known⟩
  · exact ⟨_, if_neg known⟩

/-- A live promise by its entry. -/
theorem exists_pending (live : promiseId ∈ table.promises)
    : ∃ pending, table.promises.lookup promiseId = some pending :=
  Option.isSome_iff_exists.mp (AList.lookup_isSome.mpr live)

section Loop

variable {α : Type} {build : α → P → α} {built : α}

/-- By induction on the ids: ids that can be taken are all taken. -/
theorem takeEach_of_takeable (takeable : table.Takeable ids)
    : takeEach texts build built ids table
      = (.ok ((table.stored ids).foldl build built), table.retireAll ids) := by
  induction ids generalizing table built with
  | nil => rfl
  | cons first rest ih =>
      obtain ⟨live, others⟩ := takeable_cons.mp takeable
      obtain ⟨pending, found⟩ := exists_pending live
      have absent : first ∉ rest := (List.nodup_cons.mp takeable.1).1
      rw [takeEach, takePromise_of_live found, retireAll_cons]
      simp only [ih others, stored_retire absent]
      simp [PromiseTable.stored, PromiseTable.promise?, found]

/-- By induction on the ids: the loop stops at the first id that cannot be taken, with those
before it retired.
-/
theorem takeEach_of_stuck (stuck : ¬ table.Takeable ids)
    : ∃ message gone, takeEach texts build built ids table = (.error message, table.retireAll gone)
        ∧ gone ⊆ ids ∧ table.Takeable gone := by
  induction ids generalizing table built with
  | nil => exact absurd takeable_nil stuck
  | cons first rest ih =>
      by_cases live : first ∈ table.promises
      · obtain ⟨pending, found⟩ := exists_pending live
        obtain ⟨message, gone, stopped, within, takeable⟩ :=
          @ih _ (build built pending.promise)
            (fun others => stuck (takeable_cons.mpr ⟨live, others⟩))
        refine ⟨message, first :: gone, ?_, ?_, takeable_cons.mpr ⟨live, takeable⟩⟩
        · rw [takeEach, takePromise_of_live found]
          exact stopped
        · exact List.cons_subset_cons first within
      · obtain ⟨message, failed⟩ := takePromise_of_missing texts texts.retired live
        refine ⟨message, [], ?_, List.nil_subset _, takeable_nil⟩
        rw [takeEach, failed]
        rfl

end Loop

-----------------------------------------------------------------------------------------
-- What a combinator takes
-----------------------------------------------------------------------------------------

/-- `taken` is what became of taking the promises of `ids` out of `table`: all of them, or only
those of `gone`, which are none only if the first could not be taken.
-/
structure Takes (table : PromiseTable P) (ids : List UInt32) (combined : Option P)
    (taken : Except String P × PromiseTable P)
    : Prop where
  takesAll
    : table.Takeable ids → ∃ promise, combined = some promise
        ∧ taken = (.ok promise, table.retireAll ids)
  fails
    : ¬ table.Takeable ids → ∃ message gone, taken = (.error message, table.retireAll gone)
        ∧ gone ⊆ ids ∧ table.Takeable gone
        ∧ ∀ first ∈ ids.head?, gone = [] ↔ first ∉ table.promises

/-- Taking the first promise and then, in a loop, the others. -/
theorem takes_first_rest {α : Type} {first : UInt32} {rest : List UInt32}
    {taken : Except String α × PromiseTable P} (texts : PromiseTexts) (begin : P → α)
    (build : α → P → α) (finish : α → P)
    (takesLive
      : ∀ {pending}, table.promises.lookup first = some pending →
          taken = takeEach texts build (begin pending.promise) rest (table.retire first))
    (stops : first ∉ table.promises → ∃ message, taken = (.error message, table))
    : Takes table (first :: rest)
        ((table.promise? first).map
          (fun promise => finish ((table.stored rest).foldl build (begin promise))))
        (taken.1.map finish, taken.2) := by
  by_cases live : first ∈ table.promises
  · obtain ⟨pending, found⟩ := exists_pending live
    have taking := takesLive found
    constructor
    · intro takeable
      have absent : first ∉ rest := (List.nodup_cons.mp takeable.1).1
      rw [taking, takeEach_of_takeable (takeable_cons.mp takeable).2, stored_retire absent]
      exact ⟨_, by simp only [PromiseTable.promise?, found, Option.map_some], rfl⟩
    · intro stuck
      obtain ⟨message, gone, stopped, within, takeable⟩ :=
        takeEach_of_stuck (fun others => stuck (takeable_cons.mpr ⟨live, others⟩))
      refine ⟨message, first :: gone, ?_, List.cons_subset_cons first within,
        takeable_cons.mpr ⟨live, takeable⟩, ?_⟩
      · rw [taking, stopped]
        rfl
      · intro other head
        obtain rfl : first = other := Option.some.inj head
        exact iff_of_false (List.cons_ne_nil _ _) (fun missing => missing live)
  · obtain ⟨message, stopped⟩ := stops live
    constructor
    · intro takeable
      exact absurd (takeable.2 first List.mem_cons_self) live
    · intro _
      refine ⟨message, [], ?_, List.nil_subset _, takeable_nil, ?_⟩
      · rw [stopped]
        rfl
      · intro other head
        obtain rfl : first = other := Option.some.inj head
        exact iff_of_true rfl live

/-- The loop takes all promises, or stops at the first that is missing. -/
theorem takes_takeOnto (texts : PromiseTexts) (combine : P → P → P) (first : UInt32)
    (rest : List UInt32)
    : Takes table (first :: rest)
        ((table.promise? first).map (fun promise => (table.stored rest).foldl combine promise))
        (takeOnto texts combine first rest table) := by
  have same : takeOnto texts combine first rest table
      = ((takeOnto texts combine first rest table).1.map id,
          (takeOnto texts combine first rest table).2) := by
    rw [Except.map_id, id]
  rw [same]
  refine takes_first_rest texts id combine id (fun found => ?_) (fun missing => ?_)
  · rw [takeOnto, takePromise_of_live found, id]
  · obtain ⟨message, failed⟩ := takePromise_of_missing texts texts.retired missing
    exact ⟨message, by rw [takeOnto, failed]⟩

/-- Two promises are taken one after the other. -/
theorem takes_both (texts : PromiseTexts) (combine : P → P → P) (first second : UInt32)
    : Takes table [first, second]
        (do return combine (← table.promise? first) (← table.promise? second))
        (takeOnto texts combine first [second] table) := by
  have taking
      : Takes table [first, second]
          ((table.promise? first).map
            (fun promise => (table.stored [second]).foldl combine promise))
          (takeOnto texts combine first [second] table) :=
    takes_takeOnto texts combine first [second]
  refine { taking with takesAll := fun takeable => ?_ }
  obtain ⟨promise, combined, taken⟩ := taking.takesAll takeable
  obtain ⟨pending, found⟩ := exists_pending (takeable.2 second (by simp))
  refine ⟨promise, ?_, taken⟩
  rw [← combined]
  simp [PromiseTable.stored, PromiseTable.promise?, found, Option.map_eq_bind]

/-- The loop collects the promises in their order. -/
theorem foldl_collect (collected promises : List P)
    : promises.foldl collect collected = collected ++ promises := by
  induction promises generalizing collected with
  | nil => simp
  | cons promise rest ih => simp [ih, collect]

/-- The promises of a list, by cases on whether there is a first one. -/
theorem takes_takeAll (texts : PromiseTexts) (ids : List UInt32)
    : Takes table ids (some (kj.joinAll (table.stored ids)))
        ((takeEach texts collect [] ids table).1.map kj.joinAll,
          (takeEach texts collect [] ids table).2) := by
  cases ids with
  | nil =>
      constructor
      · exact fun _ => ⟨_, rfl, rfl⟩
      · exact fun stuck => absurd takeable_nil stuck
  | cons first rest =>
      have taking
          : Takes table (first :: rest)
              ((table.promise? first).map
                (fun promise => kj.joinAll ((table.stored rest).foldl collect [promise])))
              ((takeEach texts collect [] (first :: rest) table).1.map kj.joinAll,
                (takeEach texts collect [] (first :: rest) table).2) := by
        refine takes_first_rest texts (fun promise => [promise]) collect kj.joinAll
          (fun found => ?_) (fun missing => ?_)
        · rw [takeEach, takePromise_of_live found]
          rfl
        · obtain ⟨message, failed⟩ := takePromise_of_missing texts texts.retired missing
          exact ⟨message, by rw [takeEach, failed]⟩
      refine { taking with takesAll := fun takeable => ?_ }
      obtain ⟨promise, combined, taken⟩ := taking.takesAll takeable
      obtain ⟨pending, found⟩ := exists_pending (takeable.2 first List.mem_cons_self)
      refine ⟨promise, ?_, taken⟩
      simpa [PromiseTable.stored, PromiseTable.promise?, found, foldl_collect] using combined

-----------------------------------------------------------------------------------------
-- Atomicity
-----------------------------------------------------------------------------------------

namespace PromiseCombinator

/-- The promise that the operation makes of the stored ones; a task set takes its promise as
it is.
-/
def combined (kj : Promises P E) (table : PromiseTable P) : PromiseCombinator → Option P
  | thenStart first second => do
      return kj.andThen (← table.promise? first) (← table.promise? second)
  | catchStart promiseId fallback => do
      return kj.recover (← table.promise? promiseId) (← table.promise? fallback)
  | allStart promiseIds => some (kj.joinAll (table.stored promiseIds))
  | raceStart [] => none
  | raceStart (first :: rest) =>
      (table.promise? first).map (fun promise =>
        (table.stored rest).foldl kj.exclusiveJoin promise)
  | taskSetAddPromise _ promiseId => table.promise? promiseId

/-- The task sets after a success. -/
def taskSetsAfter (table : PromiseTable P) : PromiseCombinator → Table UInt32 (List P)
  | taskSetAddPromise taskSetId promiseId =>
      Table.modify taskSetId (fun tasks => tasks ++ (table.promise? promiseId).toList)
        table.taskSets
  | _ => table.taskSets

/-- Exactly the given ids have left the live table, where exactly the result has come in. -/
structure Exchanges (kj : Promises P E) (op : PromiseCombinator) (before after : PromiseTable P)
    (result : Option UInt32)
    : Prop where
  live : before.Takeable op.promiseIds
  fresh : ∀ promiseId, result = some promiseId →
    promiseId ∉ before.promises ∨ promiseId ∈ op.promiseIds
  added : ∀ promiseId, result = some promiseId → ∃ promise, op.combined kj before = some promise
    ∧ after.promises.lookup promiseId
      = some ⟨kj.wrap before.cancelers promise, before.cancelers⟩
  others : ∀ promiseId, result ≠ some promiseId → after.promises.lookup promiseId
    = if promiseId ∈ op.promiseIds then none else before.promises.lookup promiseId
  retired : ∀ promiseId, promiseId ∈ after.retiredPromiseIds
    ↔ (promiseId ∈ before.retiredPromiseIds ∨ promiseId ∈ op.promiseIds)
      ∧ result ≠ some promiseId
  tasks : after.taskSets = op.taskSetsAfter before

/-- The operation ends, in a complete exchange or in an error that has left every live and
every retired promise as it was.
-/
def Atomic (kj : Promises P E) (kind : RuntimeKind) (table : PromiseTable P)
    (op : PromiseCombinator)
    : Prop :=
  ∃ answer after, op.run kj table kind = some (answer, after)
    ∧ match answer with
      | .ok result => op.Exchanges kj table after result
      | .error _ =>
          after.promises = table.promises ∧ after.retiredPromiseIds = table.retiredPromiseIds

/-- All the ids can be taken, or already the first of them cannot. -/
def FirstDecides (table : PromiseTable P) (ids : List UInt32) : Prop :=
  table.Takeable ids ∨ ∃ first ∈ ids.head?, first ∉ table.promises

/-- When an operation is atomic. -/
def TakesAllOrNone (table : PromiseTable P) : PromiseCombinator → Prop
  | thenStart first second => FirstDecides table [first, second]
  | catchStart promiseId fallback => FirstDecides table [promiseId, fallback]
  | allStart [] => ∃ unused, unused ∉ table.promises
  | allStart promiseIds => FirstDecides table promiseIds
  | raceStart [] => True
  | raceStart promiseIds => FirstDecides table promiseIds
  | taskSetAddPromise _ _ => True

variable {op : PromiseCombinator} {kind : RuntimeKind}

/-- An operation that takes its promises and adds the combined one. -/
theorem exchanges_of_added {promise : P} {after : PromiseTable P}
    (takeable : table.Takeable op.promiseIds) (made : op.combined kj table = some promise)
    (noTask : op.taskSetsAfter table = table.taskSets)
    (added : addWrapped kj promise (table.retireAll op.promiseIds) = some (promiseId, after))
    : op.Exchanges kj table after (some promiseId) := by
  obtain ⟨unused, promises, retired, taskSets⟩ := addWrapped_spec added
  obtain ⟨sameTaskSets, sameCancelers⟩ := frame_retireAll table op.promiseIds
  constructor
  · exact takeable
  · intro other same
    obtain rfl : promiseId = other := Option.some.inj same
    have gone := AList.lookup_eq_none.mpr unused
    rw [lookup_retireAll] at gone
    split_ifs at gone with member
    · exact .inr member
    · exact .inl (AList.lookup_eq_none.mp gone)
  · intro other same
    obtain rfl : promiseId = other := Option.some.inj same
    refine ⟨promise, made, ?_⟩
    rw [promises, sameCancelers, AList.lookup_insert]
  · intro other different
    have notResult : other ≠ promiseId := fun same => different (congrArg some same.symm)
    rw [promises, AList.lookup_insert_ne notResult, lookup_retireAll]
  · intro other
    rw [retired, ← mem_retired_retireAll, Finset.mem_erase, and_comm, ne_eq, ne_eq,
      Option.some.injEq, eq_comm]
  · rw [noTask, taskSets, sameTaskSets]

/-- The operation tries to take its promises and starts another one from them. -/
def Starts (kj : Promises P E) (kind : RuntimeKind) (table : PromiseTable P)
    (op : PromiseCombinator)
    : Prop :=
  ∃ taken, op.run kj table kind = (startWith kj taken).map withId
    ∧ Takes table op.promiseIds (op.combined kj table) taken
    ∧ op.taskSetsAfter table = table.taskSets

/-- The two-promise operations are one, with the way to combine them. -/
theorem startBoth_eq (combine : P → P → P) (first second : UInt32)
    : startBoth kj texts combine first second table
      = startWith kj (takeOnto texts combine first [second] table) := by
  rw [startBoth, takeOnto]
  rcases takePromise texts texts.retired first table with ⟨message | pending, left⟩
  · rfl
  · simp only [takeEach]
    rcases takePromise texts texts.retired second left with ⟨message | pending, left⟩
    · rfl
    · rfl

/-- `then` takes both of its promises or none is added. -/
theorem starts_thenStart (first second : UInt32)
    : (thenStart first second).Starts kj kind table := by
  refine ⟨_, ?_, takes_both kind.promiseTexts kj.andThen first second, rfl⟩
  rw [← startBoth_eq]
  cases kind <;> rfl

/-- `catch` does so as well. -/
theorem starts_catchStart (promiseId fallback : UInt32)
    : (catchStart promiseId fallback).Starts kj kind table := by
  refine ⟨_, ?_, takes_both kind.promiseTexts kj.recover promiseId fallback, rfl⟩
  rw [← startBoth_eq]
  cases kind <;> rfl

/-- `all` does so for any number of promises. -/
theorem starts_allStart (promiseIds : List UInt32)
    : (allStart promiseIds).Starts kj kind table := by
  refine ⟨_, ?_, takes_takeAll kind.promiseTexts promiseIds, rfl⟩
  cases kind <;> rfl

/-- `race` does so for at least one promise. -/
theorem starts_raceStart (first : UInt32) (rest : List UInt32)
    : (raceStart (first :: rest)).Starts kj kind table := by
  refine ⟨_, ?_, takes_takeOnto kind.promiseTexts kj.exclusiveJoin first rest, rfl⟩
  cases kind <;> rfl

/-- Both fail before any promise is taken. -/
theorem run_raceStart_nil
    : (raceStart []).run kj table kind
      = some (.error "promiseRaceStart requires at least one promise id", table) := by
  cases kind <;> rfl

/-- A promise is checked before it goes from the table to the task set. -/
theorem run_taskSetAddPromise (taskSetId promiseId : UInt32)
    : (∃ message, (taskSetAddPromise taskSetId promiseId).run kj table kind
        = some (.error message, table))
      ∨ ∃ after, (taskSetAddPromise taskSetId promiseId).run kj table kind = some (.ok none, after)
        ∧ (taskSetAddPromise taskSetId promiseId).Exchanges kj table after none := by
  have runs
      : (taskSetAddPromise taskSetId promiseId).run kj table kind
        = some (withoutId (addToTaskSet kind.promiseTexts taskSetId promiseId table)) := by
    cases kind <;> rfl
  cases stored : table.taskSets.lookup taskSetId with
  | none =>
      refine .inl ⟨kind.promiseTexts.unknownTaskSet taskSetId, ?_⟩
      rw [runs, addToTaskSet, stored]
      rfl
  | some tasks =>
      by_cases live : promiseId ∈ table.promises
      · obtain ⟨pending, found⟩ := exists_pending live
        let after :=
          { table.retire promiseId with
            taskSets := table.taskSets.insert taskSetId (tasks ++ [pending.promise]) }
        have added
            : addToTaskSet kind.promiseTexts taskSetId promiseId table = (.ok (), after) := by
          rw [addToTaskSet, stored]
          simp only [takePromise_of_live found]
          rfl
        refine .inr ⟨after, runs.trans (congrArg (fun result => some (withoutId result)) added), ?_⟩
        constructor
        · exact ⟨List.nodup_singleton _, by simpa [promiseIds] using live⟩
        · exact fun _ same => nomatch same
        · exact fun _ same => nomatch same
        · intro other _
          rw [promiseIds, ← lookup_retireAll]
          rfl
        · intro other
          rw [and_iff_left (by simp), promiseIds, ← mem_retired_retireAll]
          rfl
        · simp [after, taskSetsAfter, Table.modify, stored, PromiseTable.promise?, found]
      · obtain ⟨message, failed⟩ :=
          takePromise_of_missing kind.promiseTexts kind.promiseTexts.retiredTask live
        refine .inl ⟨message, ?_⟩
        rw [runs, addToTaskSet, stored]
        simp only [failed]
        rfl

/-- What an operation that starts a promise can do: the whole exchange, or an error after some
of its promises are gone.
-/
theorem Starts.cases {answer : Except String (Option UInt32)} {after : PromiseTable P}
    (starts : op.Starts kj kind table) (ran : op.run kj table kind = some (answer, after))
    : (∃ result, answer = .ok result ∧ op.Exchanges kj table after result)
      ∨ ∃ message gone, answer = .error message ∧ after = table.retireAll gone
        ∧ gone ⊆ op.promiseIds ∧ table.Takeable gone := by
  obtain ⟨taken, runs, takes, noTask⟩ := starts
  by_cases takeable : table.Takeable op.promiseIds
  · obtain ⟨promise, made, rfl⟩ := takes.takesAll takeable
    obtain ⟨started, starting, same⟩ := Option.map_eq_some_iff.mp (runs.symm.trans ran)
    obtain ⟨⟨promiseId, left⟩, added, rfl⟩ := Option.map_eq_some_iff.mp starting
    obtain ⟨rfl, rfl⟩ := Prod.mk.inj same
    exact .inl ⟨some promiseId, rfl, exchanges_of_added takeable made noTask added⟩
  · obtain ⟨message, gone, rfl, within, lost, -⟩ := takes.fails takeable
    obtain ⟨rfl, rfl⟩ := Prod.mk.inj (Option.some.inj (runs.symm.trans ran))
    exact .inr ⟨message, gone, rfl, rfl, within, lost⟩

/-- An operation exchanges its promises for its result, or takes some of them and fails. -/
theorem run_cases {answer : Except String (Option UInt32)} {after : PromiseTable P}
    (ran : op.run kj table kind = some (answer, after))
    : (∃ result, answer = .ok result ∧ op.Exchanges kj table after result)
      ∨ ∃ message gone, answer = .error message ∧ after = table.retireAll gone
        ∧ gone ⊆ op.promiseIds ∧ table.Takeable gone := by
  have untouched {message : String}
      (failed : op.run kj table kind = some (.error message, table))
      : answer = .error message ∧ after = table := by
    obtain ⟨rfl, rfl⟩ := Prod.mk.inj (Option.some.inj (failed.symm.trans ran))
    exact ⟨rfl, rfl⟩
  cases op with
  | thenStart first second => exact (starts_thenStart first second).cases ran
  | catchStart promiseId fallback => exact (starts_catchStart promiseId fallback).cases ran
  | allStart promiseIds => exact (starts_allStart promiseIds).cases ran
  | raceStart promiseIds =>
      cases promiseIds with
      | nil =>
          obtain ⟨rfl, rfl⟩ := untouched run_raceStart_nil
          exact .inr ⟨_, [], rfl, rfl, List.nil_subset _, takeable_nil⟩
      | cons first rest => exact (starts_raceStart first rest).cases ran
  | taskSetAddPromise taskSetId promiseId =>
      rcases run_taskSetAddPromise taskSetId promiseId with
        ⟨message, failed⟩ | ⟨left, runs, exchanges⟩
      · obtain ⟨rfl, rfl⟩ := untouched failed
        exact .inr ⟨_, [], rfl, rfl, List.nil_subset _, takeable_nil⟩
      · obtain ⟨rfl, rfl⟩ := Prod.mk.inj (Option.some.inj (runs.symm.trans ran))
        exact .inl ⟨none, rfl, exchanges⟩

/-- What an operation leaves in the table, whether it succeeds or fails. -/
theorem run_effect {answer : Except String (Option UInt32)} {after : PromiseTable P}
    (ran : op.run kj table kind = some (answer, after))
    : ∃ gone : List UInt32, (∀ promiseId ∈ gone, promiseId ∈ table.promises)
      ∧ (∀ promiseId, answer.toOption.join = some promiseId → ∃ canceler promise,
          after.promises.lookup promiseId = some ⟨kj.wrap canceler promise, canceler⟩)
      ∧ (∀ promiseId, answer.toOption.join ≠ some promiseId → after.promises.lookup promiseId
          = if promiseId ∈ gone then none else table.promises.lookup promiseId)
      ∧ ∀ promiseId, promiseId ∈ after.retiredPromiseIds
          ↔ (promiseId ∈ table.retiredPromiseIds ∨ promiseId ∈ gone)
            ∧ answer.toOption.join ≠ some promiseId := by
  rcases run_cases ran with ⟨result, rfl, exchanges⟩ | ⟨message, gone, rfl, rfl, -, takeable⟩
  · refine ⟨op.promiseIds, exchanges.live.2, fun promiseId same => ?_, exchanges.others,
      exchanges.retired⟩
    obtain ⟨promise, -, stored⟩ := exchanges.added promiseId same
    exact ⟨_, promise, stored⟩
  · refine ⟨gone, takeable.2, fun promiseId same => ?_, fun promiseId _ => ?_, fun promiseId => ?_⟩
    · simp [Except.toOption] at same
    · exact lookup_retireAll promiseId
    · rw [mem_retired_retireAll, and_iff_left (by simp [Except.toOption])]

/-- An operation that starts a promise from at least one other is atomic when all its ids can
be taken or the first cannot. Witness: a failure after that has lost the first one.
-/
theorem Starts.atomic_iff {first : UInt32} {rest : List UInt32}
    (starts : op.Starts kj kind table) (split : op.promiseIds = first :: rest)
    : op.Atomic kj kind table ↔ FirstDecides table op.promiseIds := by
  obtain ⟨taken, runs, takes, noTask⟩ := starts
  have head : first ∈ op.promiseIds.head? := by rw [split]; rfl
  by_cases takeable : table.Takeable op.promiseIds
  · refine iff_of_true ?_ (.inl takeable)
    obtain ⟨promise, made, rfl⟩ := takes.takesAll takeable
    have room : first ∉ (table.retireAll op.promiseIds).promises := by
      rw [← AList.lookup_eq_none, lookup_retireAll, if_pos (by simp [split])]
    obtain ⟨promiseId, after, added⟩ := exists_added kj promise room
    refine ⟨.ok (some promiseId), after, ?_, exchanges_of_added takeable made noTask added⟩
    rw [runs, startWith, added]
    rfl
  · obtain ⟨message, gone, rfl, -, lost, nothing⟩ := takes.fails takeable
    have stops : op.run kj table kind = some (.error message, table.retireAll gone) := runs
    constructor
    · intro ⟨answer, after, ran, outcome⟩
      obtain ⟨rfl, rfl⟩ := Prod.mk.inj (Option.some.inj (stops.symm.trans ran))
      refine .inr ⟨first, head, (nothing first head).mp ?_⟩
      refine List.eq_nil_iff_forall_not_mem.mpr (fun other member => ?_)
      have kept : other ∈ (table.retireAll gone).promises := outcome.1 ▸ lost.2 other member
      rw [← AList.lookup_isSome, lookup_retireAll, if_pos member] at kept
      simp at kept
    · intro decides
      rcases decides with all | ⟨other, otherHead, missing⟩
      · exact absurd all takeable
      · obtain rfl := (nothing other otherHead).mpr missing
        exact ⟨_, _, stops, rfl, rfl⟩

/-- Taking nothing only needs an id for the result. -/
theorem atomic_allStart_nil
    : (allStart []).Atomic kj kind table ↔ ∃ unused, unused ∉ table.promises := by
  have runs
      : (allStart []).run kj table kind
        = (startWith kj (.ok (kj.joinAll []), table)).map withId := by
    cases kind <;> rfl
  constructor
  · intro ⟨answer, after, ran, _⟩
    obtain ⟨started, adding, -⟩ := Option.map_eq_some_iff.mp (runs.symm.trans ran)
    obtain ⟨added, allocation, -⟩ := Option.map_eq_some_iff.mp adding
    exact ⟨added.1, (addWrapped_spec allocation).1⟩
  · intro room
    obtain ⟨unused, absent⟩ := room
    obtain ⟨promiseId, after, added⟩ := exists_added kj (kj.joinAll []) absent
    refine ⟨.ok (some promiseId), after, ?_, exchanges_of_added takeable_nil rfl rfl added⟩
    rw [runs, startWith, added]
    rfl

/-- A combinator of either runtime is atomic exactly when its ids can all be taken or the first
of them cannot.
-/
theorem combinator_atomic_iff (kj : Promises P E) (kind : RuntimeKind) (table : PromiseTable P)
    (op : PromiseCombinator)
    : op.Atomic kj kind table ↔ op.TakesAllOrNone table := by
  cases op with
  | thenStart first second => exact (starts_thenStart first second).atomic_iff rfl
  | catchStart promiseId fallback => exact (starts_catchStart promiseId fallback).atomic_iff rfl
  | allStart promiseIds =>
      cases promiseIds with
      | nil => exact atomic_allStart_nil
      | cons first rest => exact (starts_allStart (first :: rest)).atomic_iff rfl
  | raceStart promiseIds =>
      cases promiseIds with
      | nil => exact iff_of_true ⟨_, _, run_raceStart_nil, rfl, rfl⟩ trivial
      | cons first rest => exact (starts_raceStart first rest).atomic_iff rfl
  | taskSetAddPromise taskSetId promiseId =>
      refine iff_of_true ?_ trivial
      rcases run_taskSetAddPromise taskSetId promiseId with
        ⟨message, failed⟩ | ⟨after, ran, exchanges⟩
      · exact ⟨_, _, failed, rfl, rfl⟩
      · exact ⟨_, _, ran, exchanges⟩

/-- In both runtimes, continuing promise 1 with an unknown one fails and consumes promise 1. -/
theorem failed_then_consumes_first
    : ¬ ∃ kind, ∀ (table : PromiseTable EventLoop.Term) op,
        Atomic EventLoop.Term.promises kind table op := by
  intro ⟨kind, always⟩
  let started : PromiseTable EventLoop.Term :=
    { promises := (∅ : Table UInt32 (PendingPromise EventLoop.Term)).insert 1
        ⟨.wrapped 0 (.source 0), 0⟩
      nextPromiseId := 2
      cancelers := 1 }
  have ran
      : (thenStart 1 2).run EventLoop.Term.promises started kind
        = some (.error (kind.promiseTexts.unknown 2), started.retire 1) := by
    cases kind <;> rfl
  obtain ⟨answer, after, same, outcome⟩ := always started (thenStart 1 2)
  obtain ⟨rfl, rfl⟩ := Prod.mk.inj (Option.some.inj (ran.symm.trans same))
  exact absurd (congrArg AList.keys outcome.1) (by decide)

end PromiseCombinator

end Capnp.KjAsync
