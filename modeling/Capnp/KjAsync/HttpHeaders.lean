import Capnp.Library.ByteString

/-! HTTP headers on their way between Lean and the bridge: a 32-bit count and the headers,
each a name and a value behind their lengths. Both sides have an encoder and a decoder.
-/

namespace Capnp.KjAsync

open ByteString

/-- A header by its name and its value. -/
structure HttpHeader where
  name : String
  value : String
deriving DecidableEq

def appendUInt32Le (bytes : List UInt8) (value : UInt32) : List UInt8 :=
  bytes ++ uint32Le value

def encodeHttpHeaders (headers : List HttpHeader) : List UInt8 :=
  headers.foldl
    (fun out header =>
      let nameBytes := toUtf8 header.name
      let valueBytes := toUtf8 header.value
      let out := appendUInt32Le out (UInt32.ofNat nameBytes.length)
      let out := out ++ nameBytes
      let out := appendUInt32Le out (UInt32.ofNat valueBytes.length)
      out ++ valueBytes)
    (appendUInt32Le [] (UInt32.ofNat headers.length))

def sliceAtAndNext? (bytes : List UInt8) (offset : Nat) (length : UInt32)
    : Option (List UInt8 × Nat) :=
  let stop := offset + length.toNat
  if stop ≤ bytes.length then some ((bytes.drop offset).take length.toNat, stop) else none

def decodeUInt32LeAt? (bytes : List UInt8) (offset : Nat) : Option (UInt32 × Nat) :=
  let i := offset
  if i + 3 < bytes.length then
    let b0 := (bytes.getD i 0).toUInt32
    let b1 := (bytes.getD (i + 1) 0).toUInt32 <<< 8
    let b2 := (bytes.getD (i + 2) 0).toUInt32 <<< 16
    let b3 := (bytes.getD (i + 3) 0).toUInt32 <<< 24
    some (b0 ||| b1 ||| b2 ||| b3, i + 4)
  else none

def decodeUtf8AtAndNext (bytes : List UInt8) (offset : Nat) (length : UInt32)
    : Except String (String × Nat) :=
  match sliceAtAndNext? bytes offset length with
  | none => .error "truncated KJ async payload"
  | some (slice, nextOffset) =>
      match fromUtf8? slice with
      | some s => .ok (s, nextOffset)
      | none => .error "invalid UTF-8 in KJ async payload"

/-- A length and a text of that many bytes. -/
def decodeTextAt (bytes : List UInt8) (offset : Nat) : Except String (String × Nat) :=
  match decodeUInt32LeAt? bytes offset with
  | none => .error "invalid header list payload"
  | some (length, nextOffset) => decodeUtf8AtAndNext bytes nextOffset length

/-- One turn of the decoding loop. -/
def decodeHeaderAt (bytes : List UInt8) (cursor : Nat) : Except String (HttpHeader × Nat) := do
  let (name, afterName) ← decodeTextAt bytes cursor
  let (value, afterValue) ← decodeTextAt bytes afterName
  return ({ name, value }, afterValue)

def decodeHeadersAtOffset (bytes : List UInt8) (offset : Nat)
    : Except String (List HttpHeader × Nat) :=
  match decodeUInt32LeAt? bytes offset with
  | none => .error "invalid header list payload"
  | some (count, offset0) => readMany (decodeHeaderAt bytes) count.toNat offset0 []

def decodeHttpHeaders (bytes : List UInt8) : Except String (List HttpHeader) := do
  let (headers, offset) ← decodeHeadersAtOffset bytes 0
  if offset == bytes.length then return headers
  else throw "invalid header list payload: trailing bytes"

-----------------------------------------------------------------------------------------
-- The bridge's side
-----------------------------------------------------------------------------------------

/-- A name and a value as byte strings. -/
abbrev HeaderPair := List UInt8 × List UInt8

def HttpHeader.pair (header : HttpHeader) : HeaderPair :=
  (toUtf8 header.name, toUtf8 header.value)

def appendUint32Le (out : List UInt8) (value : UInt32) : List UInt8 :=
  out ++ uint32Le value

def encodeHeaderPairs (headers : List HeaderPair) : Except String (List UInt8) :=
  headers.foldlM
    (fun out (name, value) =>
      if name.length > 2 ^ 32 - 1 ∨ value.length > 2 ^ 32 - 1 then
        .error "header field exceeds UInt32 size"
      else
        let out := appendUint32Le out (UInt32.ofNat name.length)
        let out := out ++ name
        let out := appendUint32Le out (UInt32.ofNat value.length)
        .ok (out ++ value))
    (appendUint32Le [] (UInt32.ofNat headers.length))

/-- `offset` also stands for the reference that the source advances. -/
def decodeUint32LeChecked (input : List UInt8) (offset : Nat) (what : String)
    : Except String (UInt32 × Nat) :=
  if offset + 4 > input.length then .error ("invalid " ++ what ++ ": truncated uint32")
  else
    .ok
      (ofUint32Le (input.getD offset 0) (input.getD (offset + 1) 0) (input.getD (offset + 2) 0)
        (input.getD (offset + 3) 0), offset + 4)

/-- A length and that many bytes; `field` is the name of the field in errors. -/
def decodeBytesChecked (bytes : List UInt8) (offset : Nat) (field : String)
    : Except String (List UInt8 × Nat) := do
  let (size, offset) ← decodeUint32LeChecked bytes offset (field ++ " length")
  if offset + size.toNat > bytes.length then throw ("invalid header list: truncated " ++ field)
  return ((bytes.drop offset).take size.toNat, offset + size.toNat)

/-- One turn of the decoding loop. -/
def decodePairAt (bytes : List UInt8) (offset : Nat) : Except String (HeaderPair × Nat) := do
  let (name, offset) ← decodeBytesChecked bytes offset "header name"
  let (value, offset) ← decodeBytesChecked bytes offset "header value"
  return ((name, value), offset)

def decodeHeaderPairs (bytes : List UInt8) : Except String (List HeaderPair) := do
  let (count, offset) ← decodeUint32LeChecked bytes 0 "header list"
  let (out, offset) ← readMany (decodePairAt bytes) count.toNat offset []
  if offset != bytes.length then throw "invalid header list: trailing bytes"
  return out

/-- Bytes behind their length. -/
def fieldWire (data : List UInt8) : List UInt8 :=
  uint32Le (UInt32.ofNat data.length) ++ data

def pairWire (pair : HeaderPair) : List UInt8 :=
  fieldWire pair.1 ++ fieldWire pair.2

/-- A count and that many pairs. -/
def headerListWire (pairs : List HeaderPair) : List UInt8 :=
  uint32Le (UInt32.ofNat pairs.length) ++ pairs.flatMap pairWire

/-- Name and value are shorter than their length fields can say. -/
def PairFits (pair : HeaderPair) : Prop :=
  pair.1.length < 2 ^ 32 ∧ pair.2.length < 2 ^ 32

instance (pair : HeaderPair) : Decidable (PairFits pair) :=
  inferInstanceAs (Decidable (_ ∧ _))

/-- Lean writes the headers as the list of their pairs. -/
theorem encodeHttpHeaders_eq (headers : List HttpHeader)
    : encodeHttpHeaders headers = headerListWire (headers.map HttpHeader.pair) := by
  have loop (rest : List HttpHeader) (out : List UInt8)
      : rest.foldl
          (fun out header =>
            let nameBytes := toUtf8 header.name
            let valueBytes := toUtf8 header.value
            let out := appendUInt32Le out (UInt32.ofNat nameBytes.length)
            let out := out ++ nameBytes
            let out := appendUInt32Le out (UInt32.ofNat valueBytes.length)
            out ++ valueBytes) out
        = out ++ (rest.map HttpHeader.pair).flatMap pairWire := by
    induction rest generalizing out with
    | nil => simp
    | cons header rest ih =>
        rw [List.foldl_cons, ih]
        simp [appendUInt32Le, pairWire, fieldWire, HttpHeader.pair]
  rw [encodeHttpHeaders, loop]
  simp [appendUInt32Le, headerListWire]

/-- C++ writes the same list where every text fits its size field. -/
theorem encodeHeaderPairs_eq {pairs : List HeaderPair} (fit : ∀ pair ∈ pairs, PairFits pair)
    : encodeHeaderPairs pairs = .ok (headerListWire pairs) := by
  have loop (rest : List HeaderPair) (fit : ∀ pair ∈ rest, PairFits pair) (out : List UInt8)
      : rest.foldlM
          (fun out (name, value) =>
            if name.length > 2 ^ 32 - 1 ∨ value.length > 2 ^ 32 - 1 then
              .error "header field exceeds UInt32 size"
            else
              let out := appendUint32Le out (UInt32.ofNat name.length)
              let out := out ++ name
              let out := appendUint32Le out (UInt32.ofNat value.length)
              .ok (out ++ value)) out
        = Except.ok (out ++ rest.flatMap pairWire) := by
    induction rest generalizing out with
    | nil => simp [pure, Except.pure]
    | cons pair rest ih =>
        obtain ⟨name, value⟩ := pair
        obtain ⟨nameFits, valueFits⟩ := fit (name, value) List.mem_cons_self
        have short : ¬ (name.length > 2 ^ 32 - 1 ∨ value.length > 2 ^ 32 - 1) := by
          simp only at nameFits valueFits
          omega
        rw [List.foldlM_cons]
        simp only [short, if_false]
        refine (ih (fun pair member => fit pair (List.mem_cons_of_mem _ member)) _).trans ?_
        simp [appendUint32Le, pairWire, fieldWire]
  refine (loop pairs fit _).trans ?_
  simp [appendUint32Le, headerListWire]

-----------------------------------------------------------------------------------------
-- What the decoders read
-----------------------------------------------------------------------------------------

/-- Lean reads a number where its bytes stand. -/
theorem decodeUInt32LeAt?_eq_some_iff {bytes : List UInt8} {offset next : Nat} {value : UInt32}
    : decodeUInt32LeAt? bytes offset = some (value, next)
      ↔ StandsAt bytes offset (uint32Le value) ∧ next = offset + 4 := by
  rw [standsAt_uint32Le]
  unfold decodeUInt32LeAt?
  by_cases fits : offset + 3 < bytes.length
  · have enough : offset + 4 ≤ bytes.length := fits
    simp only [fits, enough, if_true, true_and, Option.some.injEq, Prod.mk.injEq]
    exact and_congr Iff.rfl eq_comm
  · have short : ¬ offset + 4 ≤ bytes.length := fits
    simp [fits, short]

/-- So does C++. -/
theorem decodeUint32LeChecked_ok_iff {bytes : List UInt8} {offset next : Nat} {value : UInt32}
    (what : String)
    : decodeUint32LeChecked bytes offset what = .ok (value, next)
      ↔ StandsAt bytes offset (uint32Le value) ∧ next = offset + 4 := by
  rw [standsAt_uint32Le]
  unfold decodeUint32LeChecked
  by_cases fits : offset + 4 ≤ bytes.length
  · have enough : ¬ offset + 4 > bytes.length := by omega
    simp only [fits, enough, if_false, true_and, Except.ok.injEq, Prod.mk.injEq]
    exact and_congr Iff.rfl eq_comm
  · have short : offset + 4 > bytes.length := by omega
    simp [fits, short]

/-- A slice that fits is the piece of its length. -/
theorem slice_iff {bytes data : List UInt8} {offset length : Nat}
    : (offset + length ≤ bytes.length ∧ (bytes.drop offset).take length = data)
      ↔ data.length = length ∧ StandsAt bytes offset data := by
  constructor
  · intro read
    obtain ⟨fits, rfl⟩ := read
    obtain ⟨stands, size⟩ := standsAt_slice fits
    exact ⟨size, stands⟩
  · intro stands
    obtain ⟨rfl, stands⟩ := stands
    exact ⟨stands.fits, stands.eq_slice⟩

/-- A length and a piece of that length are a field. -/
theorem field_iff {bytes data : List UInt8} {offset next : Nat}
    : (∃ length : UInt32,
        StandsAt bytes offset (uint32Le length)
        ∧ data.length = length.toNat
        ∧ StandsAt bytes (offset + 4) data
        ∧ next = offset + 4 + length.toNat)
      ↔ data.length < 2 ^ 32 ∧ StandsAt bytes offset (fieldWire data)
        ∧ next = offset + (fieldWire data).length := by
  unfold fieldWire
  rw [standsAt_append, List.length_append, length_uint32Le]
  constructor
  · intro read
    obtain ⟨length, stands, size, rest, rfl⟩ := read
    have range := length.toNat_lt
    rw [size, UInt32.ofNat_toNat]
    exact ⟨range, ⟨stands, rest⟩, by omega⟩
  · intro read
    obtain ⟨range, ⟨stands, rest⟩, rfl⟩ := read
    have size : (UInt32.ofNat data.length).toNat = data.length :=
      UInt32.toNat_ofNat_of_lt' range
    exact ⟨_, stands, size.symm, rest, by omega⟩

/-- A text of a given size is read where its bytes stand. -/
theorem decodeUtf8AtAndNext_ok_iff {bytes : List UInt8} {offset next : Nat} {length : UInt32}
    {text : String}
    : decodeUtf8AtAndNext bytes offset length = .ok (text, next)
      ↔ (toUtf8 text).length = length.toNat ∧ StandsAt bytes offset (toUtf8 text)
        ∧ next = offset + length.toNat := by
  rw [← and_assoc, ← slice_iff]
  unfold decodeUtf8AtAndNext sliceAtAndNext?
  by_cases fits : offset + length.toNat ≤ bytes.length
  · simp only [fits, if_true, true_and]
    constructor
    · intro done
      cases read : fromUtf8? ((bytes.drop offset).take length.toNat) with
      | none => simp [read] at done
      | some found =>
          simp only [read, Except.ok.injEq, Prod.mk.injEq] at done
          obtain ⟨rfl, rfl⟩ := done
          exact ⟨(fromUtf8?_eq_some_iff.mp read).symm, rfl⟩
    · intro read
      obtain ⟨same, rfl⟩ := read
      have found := fromUtf8?_eq_some_iff.mpr same.symm
      simp only [found]
  · simp [fits]

/-- Lean reads a text where its size and its bytes stand. -/
theorem decodeTextAt_ok_iff {bytes : List UInt8} {offset next : Nat} {text : String}
    : decodeTextAt bytes offset = .ok (text, next)
      ↔ (toUtf8 text).length < 2 ^ 32 ∧ StandsAt bytes offset (fieldWire (toUtf8 text))
        ∧ next = offset + (fieldWire (toUtf8 text)).length := by
  rw [← field_iff]
  unfold decodeTextAt
  constructor
  · intro done
    cases read : decodeUInt32LeAt? bytes offset with
    | none => simp [read] at done
    | some found =>
        obtain ⟨length, after⟩ := found
        obtain ⟨stands, rfl⟩ := decodeUInt32LeAt?_eq_some_iff.mp read
        simp only [read] at done
        exact ⟨length, stands, decodeUtf8AtAndNext_ok_iff.mp done⟩
  · intro field
    obtain ⟨length, stands, text⟩ := field
    have read := decodeUInt32LeAt?_eq_some_iff.mpr ⟨stands, rfl⟩
    simp only [read]
    exact decodeUtf8AtAndNext_ok_iff.mpr text

/-- So does C++ with bytes. -/
theorem decodeBytesChecked_ok_iff {bytes data : List UInt8} {offset next : Nat} (field : String)
    : decodeBytesChecked bytes offset field = .ok (data, next)
      ↔ data.length < 2 ^ 32 ∧ StandsAt bytes offset (fieldWire data)
        ∧ next = offset + (fieldWire data).length := by
  have slice (after : Nat) (length : UInt32)
      : (do
          if after + length.toNat > bytes.length then
            throw ("invalid header list: truncated " ++ field)
          return ((bytes.drop after).take length.toNat, after + length.toNat)
          : Except String (List UInt8 × Nat))
          = .ok (data, next)
        ↔ data.length = length.toNat ∧ StandsAt bytes after data
          ∧ next = after + length.toNat := by
    rw [← and_assoc, ← slice_iff]
    by_cases fits : after + length.toNat ≤ bytes.length
    · have enough : ¬ after + length.toNat > bytes.length := by omega
      simp [fits, enough, pure, Except.pure, eq_comm]
    · have short : after + length.toNat > bytes.length := by omega
      simp [fits, short, throw, throwThe, MonadExceptOf.throw, bind, Except.bind]
  rw [← field_iff]
  constructor
  · intro done
    obtain ⟨⟨length, after⟩, read, rest⟩ := bind_eq_ok_iff.mp done
    obtain ⟨stands, rfl⟩ := (decodeUint32LeChecked_ok_iff _).mp read
    exact ⟨length, stands, (slice _ length).mp rest⟩
  · intro field
    obtain ⟨length, stands, data⟩ := field
    have read := (decodeUint32LeChecked_ok_iff (field ++ " length")).mpr ⟨stands, rfl⟩
    exact bind_eq_ok_iff.mpr ⟨_, read, (slice _ length).mpr data⟩

/-- Two fields behind each other are a pair. -/
theorem pair_iff {bytes : List UInt8} {offset next : Nat} {pair : HeaderPair}
    : (∃ after,
        (pair.1.length < 2 ^ 32 ∧ StandsAt bytes offset (fieldWire pair.1)
          ∧ after = offset + (fieldWire pair.1).length)
        ∧ pair.2.length < 2 ^ 32 ∧ StandsAt bytes after (fieldWire pair.2)
          ∧ next = after + (fieldWire pair.2).length)
      ↔ PairFits pair ∧ StandsAt bytes offset (pairWire pair)
        ∧ next = offset + (pairWire pair).length := by
  unfold PairFits pairWire
  rw [standsAt_append, List.length_append]
  constructor
  · intro read
    obtain ⟨after, ⟨nameFits, name, rfl⟩, valueFits, value, rfl⟩ := read
    exact ⟨⟨nameFits, valueFits⟩, ⟨name, value⟩, by omega⟩
  · intro read
    obtain ⟨⟨nameFits, valueFits⟩, ⟨name, value⟩, rfl⟩ := read
    exact ⟨_, ⟨nameFits, name, rfl⟩, valueFits, value, by omega⟩

/-- A name and a value behind it, by whatever they are read. -/
theorem readPair_ok_iff {α γ : Type} (readName readValue : Nat → Except String (α × Nat))
    {make : α → α → γ}
    (make_inj : ∀ {name value other more}, make name value = make other more →
      name = other ∧ value = more)
    {offset next : Nat} {name value : α}
    : (do
        let (name, afterName) ← readName offset
        let (value, afterValue) ← readValue afterName
        return (make name value, afterValue))
      = .ok (make name value, next)
      ↔ ∃ after, readName offset = .ok (name, after) ∧ readValue after = .ok (value, next) := by
  constructor
  · intro done
    obtain ⟨⟨_, afterName⟩, first, rest⟩ := bind_eq_ok_iff.mp done
    obtain ⟨⟨_, afterValue⟩, second, same⟩ := bind_eq_ok_iff.mp rest
    obtain ⟨made, rfl⟩ := Prod.mk.inj (Except.ok.inj same)
    obtain ⟨rfl, rfl⟩ := make_inj made
    exact ⟨afterName, first, second⟩
  · intro fields
    obtain ⟨after, first, second⟩ := fields
    exact bind_eq_ok_iff.mpr ⟨_, first, bind_eq_ok_iff.mpr ⟨_, second, rfl⟩⟩

/-- Lean reads a header where its pair stands. -/
theorem decodeHeaderAt_ok_iff {bytes : List UInt8} {offset next : Nat} {header : HttpHeader}
    : decodeHeaderAt bytes offset = .ok (header, next)
      ↔ PairFits header.pair ∧ StandsAt bytes offset (pairWire header.pair)
        ∧ next = offset + (pairWire header.pair).length := by
  have read
      : decodeHeaderAt bytes offset = .ok (header, next)
        ↔ ∃ after, decodeTextAt bytes offset = .ok (header.name, after)
            ∧ decodeTextAt bytes after = .ok (header.value, next) :=
    readPair_ok_iff _ _ HttpHeader.mk.inj
  rw [← pair_iff, read]
  exact exists_congr fun after => and_congr decodeTextAt_ok_iff decodeTextAt_ok_iff

/-- So does C++. -/
theorem decodePairAt_ok_iff {bytes : List UInt8} {offset next : Nat} {pair : HeaderPair}
    : decodePairAt bytes offset = .ok (pair, next)
      ↔ PairFits pair ∧ StandsAt bytes offset (pairWire pair)
        ∧ next = offset + (pairWire pair).length := by
  have read
      : decodePairAt bytes offset = .ok (pair, next)
        ↔ ∃ after, decodeBytesChecked bytes offset "header name" = .ok (pair.1, after)
            ∧ decodeBytesChecked bytes after "header value" = .ok (pair.2, next) :=
    readPair_ok_iff (fun offset => decodeBytesChecked bytes offset "header name")
      (fun offset => decodeBytesChecked bytes offset "header value") Prod.mk.inj
  rw [← pair_iff, read]
  exact exists_congr fun after =>
    and_congr (decodeBytesChecked_ok_iff _) (decodeBytesChecked_ok_iff _)

/-- A count and a run of pairs behind it are a header list. -/
theorem headerListAt_iff {bytes : List UInt8} {offset next : Nat} {pairs : List HeaderPair}
    : (∃ count : UInt32,
        StandsAt bytes offset (uint32Le count)
        ∧ pairs.length = count.toNat
        ∧ (∀ pair ∈ pairs, PairFits pair)
        ∧ StandsAt bytes (offset + 4) (pairs.flatMap pairWire)
        ∧ next = offset + 4 + (pairs.flatMap pairWire).length)
      ↔ pairs.length < 2 ^ 32 ∧ (∀ pair ∈ pairs, PairFits pair)
        ∧ StandsAt bytes offset (headerListWire pairs)
        ∧ next = offset + (headerListWire pairs).length := by
  unfold headerListWire
  rw [standsAt_append, List.length_append, length_uint32Le]
  constructor
  · intro read
    obtain ⟨count, first, length, fit, rest, rfl⟩ := read
    have range := count.toNat_lt
    rw [length, UInt32.ofNat_toNat]
    exact ⟨range, fit, ⟨first, rest⟩, by omega⟩
  · intro read
    obtain ⟨range, fit, ⟨first, rest⟩, rfl⟩ := read
    have length : (UInt32.ofNat pairs.length).toNat = pairs.length :=
      UInt32.toNat_ofNat_of_lt' range
    exact ⟨_, first, length.symm, fit, rest, by omega⟩

/-- A list of headers is read where its count and its pairs stand. -/
theorem decodeHeadersAtOffset_ok_iff {bytes : List UInt8} {offset next : Nat}
    {headers : List HttpHeader}
    : decodeHeadersAtOffset bytes offset = .ok (headers, next)
      ↔ headers.length < 2 ^ 32 ∧ (∀ header ∈ headers, PairFits header.pair)
        ∧ StandsAt bytes offset (encodeHttpHeaders headers)
        ∧ next = offset + (encodeHttpHeaders headers).length := by
  have list : _ ↔ (headers.map HttpHeader.pair).length < 2 ^ 32
      ∧ (∀ pair ∈ headers.map HttpHeader.pair, PairFits pair)
      ∧ StandsAt bytes offset (headerListWire (headers.map HttpHeader.pair))
      ∧ next = offset + (headerListWire (headers.map HttpHeader.pair)).length := headerListAt_iff
  simp only [List.length_map, List.forall_mem_map, List.flatMap_map] at list
  have loop {count : Nat} (inside : offset + 4 ≤ bytes.length)
      : readMany (decodeHeaderAt bytes) count (offset + 4) [] = .ok (headers, next)
        ↔ headers.length = count
          ∧ (∀ header ∈ headers, PairFits header.pair)
          ∧ StandsAt bytes (offset + 4) (headers.flatMap (fun header => pairWire header.pair))
          ∧ next
            = offset + 4 + (headers.flatMap (fun header => pairWire header.pair)).length :=
    readMany_nil_ok_iff _ _ (fun _ _ _ _ => decodeHeaderAt_ok_iff) inside
  rw [encodeHttpHeaders_eq, ← list, decodeHeadersAtOffset]
  constructor
  · intro read
    cases first : decodeUInt32LeAt? bytes offset with
    | none => simp [first] at read
    | some counted =>
        obtain ⟨count, start⟩ := counted
        obtain ⟨stands, rfl⟩ := decodeUInt32LeAt?_eq_some_iff.mp first
        simp only [first] at read
        obtain ⟨length, fit, rest, size⟩ := (loop stands.fits).mp read
        exact ⟨count, stands, length, fit, rest, size⟩
  · intro read
    obtain ⟨count, stands, length, fit, rest, size⟩ := read
    have first := decodeUInt32LeAt?_eq_some_iff.mpr ⟨stands, rfl⟩
    simpa only [first] using (loop stands.fits).mpr ⟨length, fit, rest, size⟩

/-- Lean accepts exactly what it would write for the headers. -/
theorem decodeHttpHeaders_ok_iff {bytes : List UInt8} {headers : List HttpHeader}
    : decodeHttpHeaders bytes = .ok headers
      ↔ headers.length < 2 ^ 32 ∧ (∀ header ∈ headers, PairFits header.pair)
        ∧ encodeHttpHeaders headers = bytes := by
  rw [← standsAt_zero]
  constructor
  · intro done
    obtain ⟨⟨found, last⟩, read, atEnd⟩ := bind_eq_ok_iff.mp done
    have finished : found = headers ∧ last = bytes.length := by
      by_cases same : last = bytes.length
      · exact ⟨by simpa [same, pure, Except.pure] using atEnd, same⟩
      · simp [same, throw, throwThe, MonadExceptOf.throw] at atEnd
    obtain ⟨rfl, rfl⟩ := finished
    obtain ⟨few, fit, stands, size⟩ := decodeHeadersAtOffset_ok_iff.mp read
    exact ⟨few, fit, stands, by omega⟩
  · intro read
    obtain ⟨few, fit, stands, size⟩ := read
    have run := decodeHeadersAtOffset_ok_iff.mpr ⟨few, fit, stands, rfl⟩
    refine bind_eq_ok_iff.mpr ⟨_, run, ?_⟩
    simp [size, pure, Except.pure]

/-- So does C++. -/
theorem decodeHeaderPairs_ok_iff {bytes : List UInt8} {pairs : List HeaderPair}
    : decodeHeaderPairs bytes = .ok pairs
      ↔ pairs.length < 2 ^ 32 ∧ (∀ pair ∈ pairs, PairFits pair)
        ∧ headerListWire pairs = bytes := by
  have loop {count last : Nat} (inside : 4 ≤ bytes.length)
      : readMany (decodePairAt bytes) count 4 [] = .ok (pairs, last)
        ↔ pairs.length = count
          ∧ (∀ pair ∈ pairs, PairFits pair)
          ∧ StandsAt bytes 4 (pairs.flatMap pairWire)
          ∧ last = 4 + (pairs.flatMap pairWire).length :=
    readMany_nil_ok_iff _ _ (fun _ _ _ _ => decodePairAt_ok_iff) inside
  rw [← standsAt_zero]
  constructor
  · intro done
    obtain ⟨⟨count, start⟩, first, rest⟩ := bind_eq_ok_iff.mp done
    obtain ⟨⟨found, last⟩, read, atEnd⟩ := bind_eq_ok_iff.mp rest
    obtain ⟨stands, rfl⟩ := (decodeUint32LeChecked_ok_iff _).mp first
    have finished : found = pairs ∧ last = bytes.length := by
      by_cases same : last = bytes.length
      · exact ⟨by simpa [same, pure, Except.pure] using atEnd, same⟩
      · simp [same, throw, throwThe, MonadExceptOf.throw, bind, Except.bind] at atEnd
    obtain ⟨rfl, rfl⟩ := finished
    obtain ⟨length, fit, rest, size⟩ := (loop stands.fits).mp read
    obtain ⟨few, fit, stands, size⟩ :=
      headerListAt_iff.mp ⟨count, stands, length, fit, rest, size⟩
    exact ⟨few, fit, stands, by omega⟩
  · intro read
    obtain ⟨few, fit, whole, size⟩ := read
    obtain ⟨count, stands, length, fit, rest, ends⟩ :=
      headerListAt_iff.mpr ⟨few, fit, whole, rfl⟩
    rw [size, Nat.zero_add] at ends
    have first := (decodeUint32LeChecked_ok_iff "header list").mpr ⟨stands, rfl⟩
    have run := (loop stands.fits).mpr ⟨length, fit, rest, ends⟩
    refine bind_eq_ok_iff.mpr ⟨_, first, bind_eq_ok_iff.mpr ⟨_, run, ?_⟩⟩
    simp [pure, Except.pure]

/-- Pairs of valid UTF-8 texts are those of headers, by induction on them. -/
theorem exists_headers_of_validUtf8 {pairs : List HeaderPair}
    (valid : ∀ pair ∈ pairs, ValidUtf8 pair.1 ∧ ValidUtf8 pair.2)
    : ∃ headers : List HttpHeader, headers.map HttpHeader.pair = pairs := by
  induction pairs with
  | nil => exact ⟨[], rfl⟩
  | cons pair rest ih =>
      obtain ⟨validName, validValue⟩ := valid pair List.mem_cons_self
      obtain ⟨name, sameName⟩ := validUtf8_iff.mp validName
      obtain ⟨value, sameValue⟩ := validUtf8_iff.mp validValue
      obtain ⟨headers, rfl⟩ := ih (fun pair member => valid pair (List.mem_cons_of_mem _ member))
      exact ⟨{ name, value } :: headers, by simp [HttpHeader.pair, sameName, sameValue]⟩

/-- Accepted are the lists of pairs of valid UTF-8 texts. -/
theorem decodeHttpHeaders_accepts_iff {bytes : List UInt8}
    : (∃ headers, decodeHttpHeaders bytes = .ok headers)
      ↔ ∃ pairs : List HeaderPair,
          pairs.length < 2 ^ 32
          ∧ (∀ pair ∈ pairs, PairFits pair ∧ ValidUtf8 pair.1 ∧ ValidUtf8 pair.2)
          ∧ bytes = headerListWire pairs := by
  constructor
  · intro accepted
    obtain ⟨headers, decoded⟩ := accepted
    obtain ⟨few, fit, rfl⟩ := decodeHttpHeaders_ok_iff.mp decoded
    refine ⟨headers.map HttpHeader.pair, by simpa using few, ?_, encodeHttpHeaders_eq headers⟩
    rw [List.forall_mem_map]
    intro header member
    exact ⟨fit header member, validUtf8_iff.mpr ⟨_, rfl⟩, validUtf8_iff.mpr ⟨_, rfl⟩⟩
  · intro written
    obtain ⟨pairs, few, valid, rfl⟩ := written
    obtain ⟨headers, rfl⟩ :=
      exists_headers_of_validUtf8 (fun pair member => (valid pair member).2)
    refine ⟨headers, decodeHttpHeaders_ok_iff.mpr ⟨by simpa using few, ?_, ?_⟩⟩
    · exact fun header member => (valid _ (List.mem_map_of_mem member)).1
    · exact encodeHttpHeaders_eq headers

/-- The header codec: decoding inverts encoding, exactly the lists of UTF-8 pairs are accepted,
accepted bytes are what encoding gives back, and both sides agree on bytes and pairs.
-/
theorem http_headers_codec
    : (∀ headers : List HttpHeader,
        headers.length < 2 ^ 32 → (∀ header ∈ headers, PairFits header.pair) →
          decodeHttpHeaders (encodeHttpHeaders headers) = .ok headers)
      ∧ (∀ bytes,
          (∃ headers, decodeHttpHeaders bytes = .ok headers)
          ↔ ∃ pairs : List HeaderPair,
              pairs.length < 2 ^ 32
              ∧ (∀ pair ∈ pairs, PairFits pair ∧ ValidUtf8 pair.1 ∧ ValidUtf8 pair.2)
              ∧ bytes = headerListWire pairs)
      ∧ (∀ bytes headers,
          decodeHttpHeaders bytes = .ok headers → encodeHttpHeaders headers = bytes)
      ∧ (∀ headers : List HttpHeader,
          (∀ header ∈ headers, PairFits header.pair) →
            encodeHeaderPairs (headers.map HttpHeader.pair) = .ok (encodeHttpHeaders headers))
      ∧ ∀ headers : List HttpHeader,
          headers.length < 2 ^ 32 → (∀ header ∈ headers, PairFits header.pair) →
            decodeHeaderPairs (encodeHttpHeaders headers)
            = .ok (headers.map HttpHeader.pair) := by
  refine ⟨fun headers few fit => ?_, fun bytes => decodeHttpHeaders_accepts_iff,
    fun bytes headers decoded => ?_, fun headers fit => ?_, fun headers few fit => ?_⟩
  · exact decodeHttpHeaders_ok_iff.mpr ⟨few, fit, rfl⟩
  · exact (decodeHttpHeaders_ok_iff.mp decoded).2.2
  · rw [encodeHttpHeaders_eq]
    exact encodeHeaderPairs_eq (List.forall_mem_map.mpr fit)
  · refine decodeHeaderPairs_ok_iff.mpr ⟨by simpa using few, List.forall_mem_map.mpr fit, ?_⟩
    exact (encodeHttpHeaders_eq headers).symm

/-- Witness: two headers, one of them with an empty value. -/
theorem http_headers_codec_two
    : decodeHttpHeaders (encodeHttpHeaders [⟨"host", "a"⟩, ⟨"x", ""⟩])
      = .ok [⟨"host", "a"⟩, ⟨"x", ""⟩] :=
  http_headers_codec.1 _ (by decide) (by decide)

end Capnp.KjAsync
