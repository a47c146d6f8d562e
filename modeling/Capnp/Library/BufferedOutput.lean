import Mathlib.Data.List.Basic

/-! Output through a buffer that is written out each time it is full: what arrives is what was
put in, in pieces of one size and a last one that may be smaller.
-/

/-- What was written out, and what waits in a buffer with room for more. -/
structure BufferedOutput (β : Type*) (capacity : Nat) where
  written : List (List β)
  buf : List β
  full : ∀ chunk ∈ written, chunk.length = capacity
  room : buf.length < capacity

namespace BufferedOutput

variable {β : Type*} {capacity : Nat}

def empty (positive : 0 < capacity) : BufferedOutput β capacity where
  written := []
  buf := []
  full := by simp
  room := positive

/-- One item is put into the buffer, which is written out when that fills it. -/
def push (out : BufferedOutput β capacity) (item : β) : BufferedOutput β capacity :=
  let buf := out.buf ++ [item]
  if filled : buf.length ≥ capacity then
    { written := out.written ++ [buf]
      buf := []
      full := by
        intro chunk member
        rcases List.mem_append.mp member with before | last
        · exact out.full chunk before
        · obtain rfl := List.mem_singleton.mp last
          have room := out.room
          simp only [buf, List.length_append, List.length_singleton] at filled ⊢
          omega
      room := Nat.lt_of_le_of_lt (Nat.zero_le _) out.room }
  else { out with buf := buf, room := Nat.not_le.mp filled }

def pushAll (out : BufferedOutput β capacity) (items : List β) : BufferedOutput β capacity :=
  items.foldl push out

/-- The buffer is written out at the end, unless it is empty. -/
def close (out : BufferedOutput β capacity) : List (List β) :=
  if out.buf.isEmpty then out.written else out.written ++ [out.buf]

/-- All that was put in. -/
def stream (out : BufferedOutput β capacity) : List β :=
  out.written.flatten ++ out.buf

/-- An item goes to the end of the stream. -/
theorem stream_push (out : BufferedOutput β capacity) (item : β)
    : (out.push item).stream = out.stream ++ [item] := by
  simp only [push]
  split <;> simp [stream]

/-- Nothing to push. -/
@[simp] theorem pushAll_nil (out : BufferedOutput β capacity) : out.pushAll [] = out := rfl

/-- Items are pushed one by one. -/
@[simp] theorem pushAll_cons (out : BufferedOutput β capacity) (item : β) (items : List β)
    : out.pushAll (item :: items) = (out.push item).pushAll items := rfl

/-- Items in two parts. -/
@[simp] theorem pushAll_append (out : BufferedOutput β capacity) (items more : List β)
    : out.pushAll (items ++ more) = (out.pushAll items).pushAll more :=
  List.foldl_append

/-- Items go to the end of the stream, by induction on them. -/
theorem stream_pushAll (out : BufferedOutput β capacity) (items : List β)
    : (out.pushAll items).stream = out.stream ++ items := by
  induction items generalizing out with
  | nil => simp
  | cons item items ih => rw [pushAll_cons, ih, stream_push, List.append_assoc]; rfl

/-- Closing writes all that is left. -/
theorem flatten_close (out : BufferedOutput β capacity) : out.close.flatten = out.stream := by
  unfold close stream
  split
  · next none => simp [List.isEmpty_iff.mp none]
  · simp

/-- The pieces before the last one are full, and the last one is neither empty nor larger. -/
theorem close_cases (out : BufferedOutput β capacity)
    : (∀ chunk ∈ out.close, 0 < chunk.length ∧ chunk.length ≤ capacity)
      ∧ ∀ chunk ∈ out.close.dropLast, chunk.length = capacity := by
  have positive : 0 < capacity := Nat.lt_of_le_of_lt (Nat.zero_le _) out.room
  have fullSize : ∀ chunk ∈ out.written, 0 < chunk.length ∧ chunk.length ≤ capacity := by
    intro chunk member
    rw [out.full chunk member]
    exact ⟨positive, Nat.le_refl _⟩
  unfold close
  split
  · exact ⟨fullSize, fun chunk member => out.full chunk (List.dropLast_subset _ member)⟩
  · next some =>
      refine ⟨fun chunk member => ?_, fun chunk member => ?_⟩
      · rcases List.mem_append.mp member with before | last
        · exact fullSize chunk before
        · obtain rfl := List.mem_singleton.mp last
          refine ⟨List.length_pos_iff.mpr ?_, Nat.le_of_lt out.room⟩
          simpa [List.isEmpty_iff] using some
      · rw [List.dropLast_concat] at member
        exact out.full chunk member

/-- What arrives when items are put into an empty buffer one by one. -/
theorem close_pushAll (positive : 0 < capacity) (items : List β)
    : (((empty positive).pushAll items).close).flatten = items := by
  rw [flatten_close, stream_pushAll]
  rfl

end BufferedOutput
