import Mathlib.Data.List.TakeDrop
import Capnp.Runtime.Packing

/-! Packed bytes as a sequence of groups. The checked reader takes exactly the sequences of
whole groups; the other one fills up a group that is cut off with zeros.
-/

namespace Capnp

-----------------------------------------------------------------------------------------
-- What the loops take
-----------------------------------------------------------------------------------------

/-- The bytes a tag asks for are taken from the front. -/
theorem takeTagged_append {tag : UInt8} {bits : List Nat} {data : List UInt8}
    (size : data.length = bits.countP (testBit8 tag)) (more : List UInt8)
    : takeTagged tag bits (data ++ more) = ((takeTagged tag bits data).1, more) := by
  induction bits generalizing data with
  | nil =>
      obtain rfl := List.eq_nil_of_length_eq_zero size
      rfl
  | cons j rest ih =>
      by_cases set : testBit8 tag j
      · rw [List.countP_cons_of_pos set] at size
        obtain ⟨byte, data, rfl⟩ := List.exists_cons_of_length_eq_add_one size
        have later := ih (Nat.succ.inj size)
        simp [takeTagged, set, later]
      · rw [List.countP_cons_of_neg set] at size
        simp [takeTagged, set, ih size]

/-- Where too few bytes are left, zeros are taken for the others and nothing stays. -/
theorem takeTagged_short {tag : UInt8} {bits : List Nat} {data : List UInt8}
    (short : data.length ≤ bits.countP (testBit8 tag))
    : takeTagged tag bits data
      = ((takeTagged tag bits
          (data ++ List.replicate (bits.countP (testBit8 tag) - data.length) 0)).1, []) := by
  induction bits generalizing data with
  | nil =>
      obtain rfl := List.eq_nil_of_length_eq_zero (Nat.le_zero.mp short)
      rfl
  | cons j rest ih =>
      by_cases set : testBit8 tag j
      · rw [List.countP_cons_of_pos set] at short ⊢
        cases data with
        | nil =>
            have later := @ih [] (Nat.zero_le _)
            simp only [List.length_nil, Nat.sub_zero, List.nil_append] at later
            simp [takeTagged, set, later, List.replicate_succ]
        | cons byte data =>
            have later := ih (Nat.le_of_succ_le_succ short)
            simp [takeTagged, set, later]
      · rw [List.countP_cons_of_neg set] at short ⊢
        have later := ih short
        simp only [takeTagged, set, Bool.false_eq_true, if_false, later]

/-- Bytes behind the end count as zero. -/
theorem takeOrZero_eq_take (count : Nat) (rest : List UInt8)
    : takeOrZero count rest = (rest ++ List.replicate (count - rest.length) 0).take count := by
  refine List.ext_getElem (by simp [takeOrZero]; omega) (fun i inside _ => ?_)
  simp only [takeOrZero, List.length_map, List.length_range] at inside
  simp only [takeOrZero, List.getElem_map, List.getElem_range, List.getElem_take,
    List.getElem_append, List.getElem_replicate]
  split
  · next present => exact List.getD_eq_getElem _ _ present
  · next absent => exact List.getD_eq_default _ _ (Nat.le_of_not_lt absent)

/-- What is there in full is taken as it is. -/
theorem takeOrZero_append {word : List UInt8} {count : Nat} (size : word.length = count)
    (more : List UInt8)
    : takeOrZero count (word ++ more) = word := by
  subst size
  have fits : word.length - (word ++ more).length = 0 := by simp
  rw [takeOrZero_eq_take, fits]
  simp

-----------------------------------------------------------------------------------------
-- Groups
-----------------------------------------------------------------------------------------

/-- One whole group of a packed byte string. -/
inductive PackedGroup where
  | zeroWords (run : UInt8)
  | fullWords (word : List UInt8) (run : UInt8) (extra : List UInt8)
      (size : word.length = 8) (extraSize : extra.length = run.toNat * 8)
  | taggedWord (tag : UInt8) (data : List UInt8)
      (zero : tag ≠ 0) (full : tag ≠ 0xFF) (size : data.length = neededBytes tag)

namespace PackedGroup

def wire : PackedGroup → List UInt8
  | .zeroWords run => [0, run]
  | .fullWords word run extra _ _ => 0xFF :: word ++ run :: extra
  | .taggedWord tag data _ _ _ => tag :: data

def contents : PackedGroup → List UInt8
  | .zeroWords run => List.replicate 8 0 ++ List.replicate (run.toNat * 8) 0
  | .fullWords word _ extra _ _ => word ++ extra
  | .taggedWord tag data _ _ _ => (takeTagged tag (List.range 8) data).1

end PackedGroup

/-- A group of which the end is missing, and what is said about it. -/
inductive TruncatedGroup : List UInt8 → String → Prop
  | zeroRun : TruncatedGroup [0] "truncated zero run"
  | word {word : List UInt8} (short : word.length < 8)
      : TruncatedGroup (0xFF :: word) "truncated nonzero word"
  | run {word : List UInt8} (size : word.length = 8)
      : TruncatedGroup (0xFF :: word) "truncated nonzero run"
  | runData {word extra : List UInt8} {run : UInt8} (size : word.length = 8)
      (short : extra.length < run.toNat * 8)
      : TruncatedGroup (0xFF :: word ++ run :: extra) "truncated nonzero run data"
  | tagData {tag : UInt8} {data : List UInt8} (zero : tag ≠ 0) (full : tag ≠ 0xFF)
      (short : data.length < neededBytes tag)
      : TruncatedGroup (tag :: data) "truncated tag data"

/-- Every byte string but the empty one starts with a group or with the start of one. -/
theorem exists_group_or_truncated {bytes : List UInt8} (some : bytes ≠ [])
    : (∃ (group : PackedGroup) (rest : List UInt8), bytes = group.wire ++ rest)
      ∨ ∃ reason, TruncatedGroup bytes reason := by
  obtain ⟨tag, rest, rfl⟩ := List.exists_cons_of_ne_nil some
  by_cases zero : tag = 0
  · subst zero
    cases rest with
    | nil => exact .inr ⟨_, .zeroRun⟩
    | cons run rest => exact .inl ⟨.zeroWords run, rest, rfl⟩
  by_cases full : tag = 0xFF
  · subst full
    rcases Nat.lt_or_ge rest.length 8 with short | enough
    · exact .inr ⟨_, .word short⟩
    have size : (rest.take 8).length = 8 := by
      rw [List.length_take]
      omega
    cases behind : rest.drop 8 with
    | nil =>
        refine .inr ⟨_, .run ?_⟩
        rw [List.drop_eq_nil_iff] at behind
        omega
    | cons run extra =>
        have split : rest = rest.take 8 ++ run :: extra := by
          rw [← behind, List.take_append_drop]
        rw [split]
        rcases Nat.lt_or_ge extra.length (run.toNat * 8) with short | all
        · exact .inr ⟨_, .runData size short⟩
        · refine .inl ⟨.fullWords (rest.take 8) run (extra.take (run.toNat * 8)) size ?_,
            extra.drop (run.toNat * 8), ?_⟩
          · rw [List.length_take]
            omega
          · simp [PackedGroup.wire]
  rcases Nat.lt_or_ge rest.length (neededBytes tag) with short | enough
  · exact .inr ⟨_, .tagData zero full short⟩
  · refine .inl ⟨.taggedWord tag (rest.take (neededBytes tag)) zero full ?_,
      rest.drop (neededBytes tag), ?_⟩
    · rw [List.length_take]
      omega
    · simp [PackedGroup.wire]

-----------------------------------------------------------------------------------------
-- The readers
-----------------------------------------------------------------------------------------

/-- A tag takes exactly the bytes that it needs. -/
theorem takeTagged_group {tag : UInt8} {data : List UInt8}
    (size : data.length = neededBytes tag) (rest : List UInt8)
    : takeTagged tag (List.range 8) (data ++ rest)
      = ((takeTagged tag (List.range 8) data).1, rest) :=
  takeTagged_append size rest

/-- The full tag is not the one of zeros. -/
theorem full_ne_zero : ((0xFF : UInt8) == 0) = false := rfl

/-- One turn of the checked loop reads one group. -/
theorem unpackCheckedFrom_wire (out : List UInt8) (group : PackedGroup) (rest : List UInt8)
    : unpackCheckedFrom out (group.wire ++ rest)
      = unpackCheckedFrom (out ++ group.contents) rest := by
  cases group with
  | zeroWords run =>
      rw [PackedGroup.wire, PackedGroup.contents, List.cons_append, List.cons_append,
        unpackCheckedFrom]
      simp [List.append_assoc]
  | fullWords word run extra size extraSize =>
      have enough : ¬ (word ++ run :: (extra ++ rest)).length < 8 := by
        simp [size]
      have enough' : ¬ (extra ++ rest).length < run.toNat * 8 := by
        simp [extraSize]
      have behind : (word ++ run :: (extra ++ rest)).drop 8 = run :: (extra ++ rest) := by
        rw [← size, List.drop_left]
      have front : (word ++ run :: (extra ++ rest)).take 8 = word := by
        rw [← size, List.take_left]
      simp only [PackedGroup.wire, PackedGroup.contents, List.cons_append, List.append_assoc]
      rw [unpackCheckedFrom]
      simp only [full_ne_zero, Bool.false_eq_true, beq_self_eq_true, if_false, if_true, enough]
      split
      · next none => simp [behind] at none
      · next same =>
          rw [behind] at same
          obtain ⟨rfl, rfl⟩ := List.cons.inj same
          rw [if_neg enough', front, ← extraSize, List.take_left, List.drop_left,
            List.append_assoc]
  | taggedWord tag data zero full size =>
      have enough : ¬ (data ++ rest).length < neededBytes tag := by
        simp [size]
      rw [PackedGroup.wire, PackedGroup.contents, List.cons_append, unpackCheckedFrom,
        if_neg (by simpa using zero), if_neg (by simpa using full), if_neg enough,
        takeTagged_group size]

/-- A group that is cut off stops the checked loop. -/
theorem unpackCheckedFrom_truncated {part : List UInt8} {reason : String}
    (truncated : TruncatedGroup part reason) (out : List UInt8)
    : unpackCheckedFrom out part = .error reason := by
  cases truncated with
  | zeroRun => simp [unpackCheckedFrom]
  | word short => simp [unpackCheckedFrom, short]
  | @run word size =>
      have none : word.drop 8 = [] := List.drop_eq_nil_of_le (Nat.le_of_eq size)
      rw [unpackCheckedFrom]
      simp only [full_ne_zero, Bool.false_eq_true, beq_self_eq_true, if_false, if_true, size,
        Nat.lt_irrefl]
      split
      · rfl
      · next some => rw [none] at some; cases some
  | @runData word extra run size short =>
      have enough : ¬ (word ++ run :: extra).length < 8 := by
        simp [size]
      have behind : (word ++ run :: extra).drop 8 = run :: extra := by
        rw [← size, List.drop_left]
      rw [List.cons_append, unpackCheckedFrom]
      simp only [full_ne_zero, Bool.false_eq_true, beq_self_eq_true, if_false, if_true, enough]
      split
      · next none => simp [behind] at none
      · next some =>
          rw [behind] at some
          obtain ⟨rfl, rfl⟩ := List.cons.inj some
          rw [if_pos short]
  | tagData zero full short => simp [unpackCheckedFrom, zero, full, short]

/-- One turn of the plain loop reads one group. -/
theorem unpack_wire (group : PackedGroup) (rest : List UInt8)
    : unpack (group.wire ++ rest) = group.contents ++ unpack rest := by
  cases group with
  | zeroWords run =>
      rw [PackedGroup.wire, PackedGroup.contents, List.cons_append, List.cons_append, unpack]
      simp
  | fullWords word run extra size extraSize =>
      have behind : (word ++ run :: (extra ++ rest)).drop 8 = run :: (extra ++ rest) := by
        rw [← size, List.drop_left]
      simp only [PackedGroup.wire, PackedGroup.contents, List.cons_append, List.append_assoc]
      rw [unpack]
      simp only [full_ne_zero, Bool.false_eq_true, beq_self_eq_true, if_false, if_true,
        takeOrZero_append size]
      split
      · next none => simp [behind] at none
      · next some =>
          rw [behind] at some
          obtain ⟨rfl, rfl⟩ := List.cons.inj some
          rw [takeOrZero_append extraSize, ← extraSize, List.drop_left, List.append_assoc]
  | taggedWord tag data zero full size =>
      rw [PackedGroup.wire, PackedGroup.contents, List.cons_append, unpack,
        if_neg (by simpa using zero), if_neg (by simpa using full), takeTagged_group size]

/-- Nothing unpacks to nothing. -/
theorem unpack_nil : unpack [] = [] := by
  rw [unpack]

/-- A group that is cut off is read as if zeros followed. -/
theorem unpack_truncated {part : List UInt8} {reason : String}
    (truncated : TruncatedGroup part reason)
    : ∃ (group : PackedGroup) (missing : Nat),
        0 < missing
        ∧ part ++ List.replicate missing 0 = group.wire
        ∧ unpack part = group.contents := by
  cases truncated with
  | zeroRun =>
      exact ⟨.zeroWords 0, 1, Nat.one_pos, rfl, by simp [unpack, PackedGroup.contents]⟩
  | @word word short =>
      have size : (word ++ List.replicate (8 - word.length) 0).length = 8 := by
        rw [List.length_append, List.length_replicate]
        omega
      refine ⟨.fullWords (word ++ List.replicate (8 - word.length) 0) 0 [] size rfl,
        8 - word.length + 1, Nat.succ_pos _, ?_, ?_⟩
      · simp [PackedGroup.wire, List.replicate_succ']
      · have none : word.drop 8 = [] := List.drop_eq_nil_of_le (Nat.le_of_lt short)
        have taken : takeOrZero 8 word = word ++ List.replicate (8 - word.length) 0 := by
          rw [takeOrZero_eq_take, List.take_of_length_le (Nat.le_of_eq size)]
        rw [unpack]
        simp only [full_ne_zero, Bool.false_eq_true, beq_self_eq_true, if_false, if_true]
        split
        · rw [taken, PackedGroup.contents, List.append_nil]
        · next some => rw [none] at some; cases some
  | @run word size =>
      refine ⟨.fullWords word 0 [] size rfl, 1, Nat.one_pos, rfl, ?_⟩
      have none : word.drop 8 = [] := List.drop_eq_nil_of_le (Nat.le_of_eq size)
      have taken := takeOrZero_append size []
      rw [List.append_nil] at taken
      rw [unpack]
      simp only [full_ne_zero, Bool.false_eq_true, beq_self_eq_true, if_false, if_true]
      split
      · rw [taken, PackedGroup.contents, List.append_nil]
      · next some => rw [none] at some; cases some
  | @runData word extra run size short =>
      have filled
          : (extra ++ List.replicate (run.toNat * 8 - extra.length) 0).length
            = run.toNat * 8 := by
        rw [List.length_append, List.length_replicate]
        omega
      refine ⟨.fullWords word run (extra ++ List.replicate (run.toNat * 8 - extra.length) 0) size
        filled, run.toNat * 8 - extra.length, by omega, ?_, ?_⟩
      · simp [PackedGroup.wire]
      · have behind : (word ++ run :: extra).drop 8 = run :: extra := by
          rw [← size, List.drop_left]
        rw [List.cons_append, unpack]
        simp only [full_ne_zero, Bool.false_eq_true, beq_self_eq_true, if_false, if_true,
          takeOrZero_append size]
        split
        · next none => simp [behind] at none
        · next some =>
            rw [behind] at some
            obtain ⟨rfl, rfl⟩ := List.cons.inj some
            rw [takeOrZero_eq_take, List.take_of_length_le (Nat.le_of_eq filled),
              List.drop_eq_nil_of_le (Nat.le_of_lt short), unpack_nil, List.append_nil,
              PackedGroup.contents]
  | @tagData tag data zero full short =>
      have size
          : (data ++ List.replicate (neededBytes tag - data.length) 0).length
            = neededBytes tag := by
        rw [List.length_append, List.length_replicate]
        omega
      refine ⟨.taggedWord tag (data ++ List.replicate (neededBytes tag - data.length) 0) zero full
        size, neededBytes tag - data.length, by omega, by simp [PackedGroup.wire], ?_⟩
      have taken := @takeTagged_short tag (List.range 8) data (Nat.le_of_lt short)
      rw [unpack, if_neg (by simpa using zero), if_neg (by simpa using full), taken]
      exact (congrArg _ unpack_nil).trans (List.append_nil _)

-----------------------------------------------------------------------------------------
-- Sequences of groups
-----------------------------------------------------------------------------------------

/-- The bytes of the groups one after the other. -/
def groupsWire (groups : List PackedGroup) : List UInt8 :=
  groups.flatMap PackedGroup.wire

def groupsContents (groups : List PackedGroup) : List UInt8 :=
  groups.flatMap PackedGroup.contents

/-- Groups are written one behind the other. -/
@[simp] theorem groupsWire_cons (group : PackedGroup) (groups : List PackedGroup)
    : groupsWire (group :: groups) = group.wire ++ groupsWire groups :=
  List.flatMap_cons

/-- Their contents stand one behind the other as well. -/
@[simp] theorem groupsContents_cons (group : PackedGroup) (groups : List PackedGroup)
    : groupsContents (group :: groups) = group.contents ++ groupsContents groups :=
  List.flatMap_cons

/-- No groups have no bytes. -/
@[simp] theorem groupsWire_nil : groupsWire [] = [] := rfl

/-- No groups have no contents. -/
@[simp] theorem groupsContents_nil : groupsContents [] = [] := rfl

/-- Any bytes are whole groups and at most one that is cut off, by induction on their
length.
-/
theorem exists_groups (bytes : List UInt8)
    : ∃ groups part,
        bytes = groupsWire groups ++ part
        ∧ (part = [] ∨ ∃ reason, TruncatedGroup part reason) := by
  induction size : bytes.length using Nat.strong_induction_on generalizing bytes with
  | _ length ih =>
      by_cases none : bytes = []
      · exact ⟨[], [], none, .inl rfl⟩
      · rcases exists_group_or_truncated none with ⟨group, rest, rfl⟩ | truncated
        · have shorter : rest.length < length := by
            rw [← size, List.length_append]
            cases group <;> simp [PackedGroup.wire]
          obtain ⟨groups, part, rfl, last⟩ := ih rest.length shorter rest rfl
          exact ⟨group :: groups, part, by simp, last⟩
        · exact ⟨[], bytes, rfl, .inr truncated⟩

/-- The checked loop reads all groups, by induction on them. -/
theorem unpackCheckedFrom_groups (out : List UInt8) (groups : List PackedGroup)
    (part : List UInt8)
    : unpackCheckedFrom out (groupsWire groups ++ part)
      = unpackCheckedFrom (out ++ groupsContents groups) part := by
  induction groups generalizing out with
  | nil => simp
  | cons group groups ih =>
      rw [groupsWire_cons, List.append_assoc, unpackCheckedFrom_wire, ih, groupsContents_cons,
        List.append_assoc]

/-- Whole groups are accepted. -/
theorem unpackChecked_groups (groups : List PackedGroup)
    : unpackChecked (groupsWire groups) = .ok (groupsContents groups) := by
  have read := unpackCheckedFrom_groups [] groups []
  rw [List.append_nil, List.nil_append, unpackCheckedFrom] at read
  exact read

/-- A group that is cut off is rejected behind any whole ones. -/
theorem unpackChecked_groups_truncated (groups : List PackedGroup) {part : List UInt8}
    {reason : String} (truncated : TruncatedGroup part reason)
    : unpackChecked (groupsWire groups ++ part) = .error reason := by
  rw [unpackChecked, unpackCheckedFrom_groups, unpackCheckedFrom_truncated truncated]

/-- The plain loop reads all groups, by induction on them. -/
theorem unpack_groups (groups : List PackedGroup) (part : List UInt8)
    : unpack (groupsWire groups ++ part) = groupsContents groups ++ unpack part := by
  induction groups with
  | nil => simp
  | cons group groups ih =>
      rw [groupsWire_cons, List.append_assoc, unpack_wire, ih, groupsContents_cons,
        List.append_assoc]

/-- Accepted are exactly the sequences of whole groups. -/
theorem unpackChecked_ok_iff {bytes out : List UInt8}
    : unpackChecked bytes = .ok out
      ↔ ∃ groups, groupsWire groups = bytes ∧ groupsContents groups = out := by
  constructor
  · intro read
    obtain ⟨groups, part, rfl, rfl | ⟨reason, truncated⟩⟩ := exists_groups bytes
    · rw [List.append_nil, unpackChecked_groups] at read
      exact ⟨groups, (List.append_nil _).symm, Except.ok.inj read⟩
    · rw [unpackChecked_groups_truncated groups truncated] at read
      cases read
  · intro found
    obtain ⟨groups, rfl, rfl⟩ := found
    exact unpackChecked_groups groups

/-- Rejected is exactly what ends in a group that is cut off. -/
theorem unpackChecked_error_iff {bytes : List UInt8} {reason : String}
    : unpackChecked bytes = .error reason
      ↔ ∃ groups part, groupsWire groups ++ part = bytes ∧ TruncatedGroup part reason := by
  constructor
  · intro read
    obtain ⟨groups, part, rfl, rfl | ⟨other, truncated⟩⟩ := exists_groups bytes
    · rw [List.append_nil, unpackChecked_groups] at read
      cases read
    · rw [unpackChecked_groups_truncated groups truncated] at read
      obtain rfl := Except.error.inj read
      exact ⟨groups, part, rfl, truncated⟩
  · intro found
    obtain ⟨groups, part, rfl, truncated⟩ := found
    exact unpackChecked_groups_truncated groups truncated

/-- The checked reader accepts the sequences of whole groups and says of any other input which
group is cut off and where.
-/
theorem unpackChecked_iff (bytes : List UInt8)
    : (∀ out,
        unpackChecked bytes = .ok out
          ↔ ∃ groups, groupsWire groups = bytes ∧ groupsContents groups = out)
      ∧ ∀ reason,
          unpackChecked bytes = .error reason
            ↔ ∃ groups part, groupsWire groups ++ part = bytes ∧ TruncatedGroup part reason :=
  ⟨fun _ => unpackChecked_ok_iff, fun _ => unpackChecked_error_iff⟩

/-- The reader without checks gives what the checked one would if zeros followed; no zero is
missing exactly where the checked one accepts.
-/
theorem unpack_eq_filled (bytes : List UInt8)
    : ∃ missing,
        unpackChecked (bytes ++ List.replicate missing 0) = .ok (unpack bytes)
        ∧ (missing = 0 ↔ ∃ out, unpackChecked bytes = .ok out) := by
  obtain ⟨groups, part, rfl, rfl | ⟨reason, truncated⟩⟩ := exists_groups bytes
  · have read := unpackChecked_groups groups
    rw [List.append_nil]
    have plain := unpack_groups groups []
    rw [List.append_nil, unpack_nil, List.append_nil] at plain
    refine ⟨0, ?_, ?_⟩
    · rw [List.replicate_zero, List.append_nil, read, plain]
    · exact ⟨fun _ => ⟨_, read⟩, fun _ => rfl⟩
  · obtain ⟨group, missing, some, filled, plain⟩ := unpack_truncated truncated
    refine ⟨missing, ?_, ?_⟩
    · have whole
          : groupsWire groups ++ part ++ List.replicate missing 0
            = groupsWire (groups ++ [group]) := by
        rw [List.append_assoc, filled]
        simp [groupsWire]
      rw [whole, unpackChecked_groups, unpack_groups, plain]
      simp [groupsContents]
    · constructor
      · intro none
        omega
      · intro accepted
        obtain ⟨out, accepted⟩ := accepted
        rw [unpackChecked_groups_truncated groups truncated] at accepted
        cases accepted

end Capnp
