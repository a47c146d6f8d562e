import Capnp.KjAsync.HttpHeaders

/-! A request on its way from the HTTP server of the bridge to Lean: six fields, three of them
behind their lengths, and the handle of a body that is still to be read.
-/

namespace Capnp.KjAsync.RequestCodec

open ByteString

-----------------------------------------------------------------------------------------
-- The bridge's side
-----------------------------------------------------------------------------------------

/-- Texts are byte strings there. -/
structure HttpServerRequestRecord where
  requestId : UInt32 := 0
  methodTag : UInt32 := 0
  webSocketRequested : Bool := false
  path : List UInt8
  headers : List HeaderPair
  body : List UInt8
  bodyHandle : UInt32 := 0

def encodeHttpServerRequest (request : HttpServerRequestRecord) : Except String (List UInt8) :=
  if request.path.length > 2 ^ 32 - 1 then
    .error "HTTP server request path exceeds UInt32 size"
  else do
    let headerBytes ← encodeHeaderPairs request.headers
    if headerBytes.length > 2 ^ 32 - 1 ∨ request.body.length > 2 ^ 32 - 1 then
      .error "HTTP server request payload exceeds UInt32 size"
    else
      let out := appendUint32Le [] request.requestId
      let out := appendUint32Le out request.methodTag
      let out := appendUint32Le out (if request.webSocketRequested then 1 else 0)
      let out := appendUint32Le out (UInt32.ofNat request.path.length)
      let out := out ++ request.path
      let out := appendUint32Le out (UInt32.ofNat headerBytes.length)
      let out := out ++ headerBytes
      let out := appendUint32Le out (UInt32.ofNat request.body.length)
      let out := out ++ request.body
      .ok (appendUint32Le out request.bodyHandle)

-----------------------------------------------------------------------------------------
-- Lean's side
-----------------------------------------------------------------------------------------

/-- The methods of a request, in the order of their tags. -/
inductive HttpMethod where
  | get | head | post | put | delete | patch | purge | options | trace | copy | lock
  | mkcol | move | propfind | proppatch | search | unlock | acl | report | mkactivity
  | checkout | merge | msearch | notify | subscribe | unsubscribe | query | ban
deriving DecidableEq

def HttpMethod.toTag : HttpMethod → UInt32
  | .get => 0
  | .head => 1
  | .post => 2
  | .put => 3
  | .delete => 4
  | .patch => 5
  | .purge => 6
  | .options => 7
  | .trace => 8
  | .copy => 9
  | .lock => 10
  | .mkcol => 11
  | .move => 12
  | .propfind => 13
  | .proppatch => 14
  | .search => 15
  | .unlock => 16
  | .acl => 17
  | .report => 18
  | .mkactivity => 19
  | .checkout => 20
  | .merge => 21
  | .msearch => 22
  | .notify => 23
  | .subscribe => 24
  | .unsubscribe => 25
  | .query => 26
  | .ban => 27

def HttpMethod.ofTag? (tag : UInt32) : Option HttpMethod :=
  if tag == 0 then some .get
  else if tag == 1 then some .head
  else if tag == 2 then some .post
  else if tag == 3 then some .put
  else if tag == 4 then some .delete
  else if tag == 5 then some .patch
  else if tag == 6 then some .purge
  else if tag == 7 then some .options
  else if tag == 8 then some .trace
  else if tag == 9 then some .copy
  else if tag == 10 then some .lock
  else if tag == 11 then some .mkcol
  else if tag == 12 then some .move
  else if tag == 13 then some .propfind
  else if tag == 14 then some .proppatch
  else if tag == 15 then some .search
  else if tag == 16 then some .unlock
  else if tag == 17 then some .acl
  else if tag == 18 then some .report
  else if tag == 19 then some .mkactivity
  else if tag == 20 then some .checkout
  else if tag == 21 then some .merge
  else if tag == 22 then some .msearch
  else if tag == 23 then some .notify
  else if tag == 24 then some .subscribe
  else if tag == 25 then some .unsubscribe
  else if tag == 26 then some .query
  else if tag == 27 then some .ban
  else none

def HttpMethod.ofTag (tag : UInt32) : Except String HttpMethod :=
  match ofTag? tag with
  | some method => .ok method
  | none => .error s!"unknown HTTP method tag: {tag}"

/-- Every method has a tag of its own. -/
theorem HttpMethod.ofTag_toTag (method : HttpMethod) : ofTag method.toTag = .ok method := by
  cases method <;> rfl

/-- The runtime of the request and the body's handle there. -/
structure HttpServerRequestBody (Runtime : Type*) where
  runtime : Runtime
  handle : UInt32

/-- A request as the handler is given it. -/
structure HttpServerRequest (Runtime : Type*) where
  requestId : UInt32
  method : HttpMethod
  webSocketRequested : Bool
  path : String
  headers : List HttpHeader
  body : List UInt8
  bodyStream? : Option (HttpServerRequestBody Runtime) := none

def invalidRequest : String := "invalid HTTP server request payload"

/-- A field that has to be there. -/
def required {α : Type} : Option α → Except String α
  | some value => .ok value
  | none => .error invalidRequest

/-- A condition under which the payload is rejected. -/
def rejectIf (condition : Bool) : Except String Unit :=
  if condition then .error invalidRequest else .ok ()

section Decode

variable {Runtime : Type}

/-- The handle behind the body, unless the payload ends before it. -/
def decodeBodyStream (runtime : Runtime) (bytes : List UInt8) (offset9 : Nat)
    : Except String (Option (HttpServerRequestBody Runtime)) :=
  if offset9 == bytes.length then .ok none
  else do
    let (bodyHandle, offset10) ← required (decodeUInt32LeAt? bytes offset9)
    if offset10 == bytes.length then
      if bodyHandle == 0 then .ok none else .ok (some { runtime, handle := bodyHandle })
    else .error "invalid HTTP server request payload: trailing bytes"

def decodeHttpServerRequest (runtime : Runtime) (bytes : List UInt8)
    : Except String (HttpServerRequest Runtime) := do
  let (requestId, offset1) ← required (decodeUInt32LeAt? bytes 0)
  let (methodTag, offset2) ← required (decodeUInt32LeAt? bytes offset1)
  let (webSocketTag, offset3) ← required (decodeUInt32LeAt? bytes offset2)
  let (pathLen, offset4) ← required (decodeUInt32LeAt? bytes offset3)
  let (path, offset5) ← decodeUtf8AtAndNext bytes offset4 pathLen
  let (headersLen, offset6) ← required (decodeUInt32LeAt? bytes offset5)
  let offset7 := offset6 + headersLen.toNat
  rejectIf (offset7 > bytes.length)
  let (headers, parsedOffset7) ← decodeHeadersAtOffset bytes offset6
  rejectIf (parsedOffset7 != offset7)
  let (bodyLen, offset8) ← required (decodeUInt32LeAt? bytes offset7)
  let (body, offset9) ← required (sliceAtAndNext? bytes offset8 bodyLen)
  let bodyStream? ← decodeBodyStream runtime bytes offset9
  let method ← HttpMethod.ofTag methodTag
  return {
    requestId, method, webSocketRequested := webSocketTag != 0, path, headers, body,
    bodyStream? }

end Decode

-----------------------------------------------------------------------------------------
-- The fields in the payload
-----------------------------------------------------------------------------------------

/-- The fields before the handle, as they stand in the payload. -/
structure RequestFields where
  requestId : UInt32
  methodTag : UInt32
  webSocketTag : UInt32
  path : List UInt8
  headers : List UInt8
  body : List UInt8

namespace RequestFields

def wire (fields : RequestFields) : List UInt8 :=
  uint32Le fields.requestId
    ++ (uint32Le fields.methodTag
      ++ (uint32Le fields.webSocketTag
        ++ (fieldWire fields.path ++ (fieldWire fields.headers ++ fieldWire fields.body))))

/-- The fixed fields take twelve bytes, and each other one its size and its bytes. -/
theorem length_wire (fields : RequestFields)
    : fields.wire.length
      = 0 + 4 + 4 + 4 + (fieldWire fields.path).length + (fieldWire fields.headers).length
        + (fieldWire fields.body).length := by
  simp only [wire, List.length_append, length_uint32Le]
  omega

/-- Every size fits its field. -/
structure Fits (fields : RequestFields) : Prop where
  path : fields.path.length < 2 ^ 32
  headers : fields.headers.length < 2 ^ 32
  body : fields.body.length < 2 ^ 32

end RequestFields

/-- Four bytes stand for one number. -/
theorem uint32_unique {bytes : List UInt8} {offset : Nat} {left right : UInt32}
    (first : StandsAt bytes offset (uint32Le left))
    (second : StandsAt bytes offset (uint32Le right))
    : left = right :=
  (standsAt_uint32Le.mp first).2.symm.trans (standsAt_uint32Le.mp second).2

/-- A field says how long it is, so that only one can stand at a place. -/
theorem field_unique {bytes left right : List UInt8} {offset : Nat}
    (leftFits : left.length < 2 ^ 32) (rightFits : right.length < 2 ^ 32)
    (first : StandsAt bytes offset (fieldWire left))
    (second : StandsAt bytes offset (fieldWire right))
    : left = right := by
  obtain ⟨firstLength, firstData⟩ := standsAt_append.mp first
  obtain ⟨secondLength, secondData⟩ := standsAt_append.mp second
  have lengths := congrArg UInt32.toNat (uint32_unique firstLength secondLength)
  rw [UInt32.toNat_ofNat_of_lt' leftFits, UInt32.toNat_ofNat_of_lt' rightFits] at lengths
  exact firstData.unique secondData lengths

/-- Only one sequence of fields can stand at the start of a payload. -/
theorem RequestFields.unique {bytes : List UInt8} {left right : RequestFields}
    (leftFits : left.Fits) (rightFits : right.Fits) (first : StandsAt bytes 0 left.wire)
    (second : StandsAt bytes 0 right.wire)
    : left = right := by
  obtain ⟨requestId, methodTag, webSocketTag, path, headers, body⟩ := left
  obtain ⟨requestId', methodTag', webSocketTag', path', headers', body'⟩ := right
  simp only [wire, standsAt_append] at first second
  obtain ⟨id, tag, socket, text, block, data⟩ := first
  obtain ⟨id', tag', socket', text', block', data'⟩ := second
  obtain rfl := uint32_unique id id'
  obtain rfl := uint32_unique tag tag'
  obtain rfl := uint32_unique socket socket'
  obtain rfl := field_unique leftFits.path rightFits.path text text'
  obtain rfl := field_unique leftFits.headers rightFits.headers block block'
  obtain rfl := field_unique leftFits.body rightFits.body data data'
  rfl

-----------------------------------------------------------------------------------------
-- What the decoder accepts
-----------------------------------------------------------------------------------------

/-- What is required is there. -/
theorem required_ok_iff {α : Type} {found : Option α} {value : α}
    : required found = .ok value ↔ found = some value := by
  cases found <;> simp [required]

/-- What is rejected does not hold. -/
theorem rejectIf_ok_iff {condition : Bool} {done : Unit}
    : rejectIf condition = .ok done ↔ condition = false := by
  cases condition <;> simp [rejectIf]

/-- A slice is cut out where its bytes stand. -/
theorem sliceAtAndNext?_eq_some_iff {bytes data : List UInt8} {offset next : Nat}
    {length : UInt32}
    : sliceAtAndNext? bytes offset length = some (data, next)
      ↔ data.length = length.toNat ∧ StandsAt bytes offset data
        ∧ next = offset + length.toNat := by
  rw [← and_assoc, ← slice_iff]
  unfold sliceAtAndNext?
  by_cases fits : offset + length.toNat ≤ bytes.length
  · simp [fits, eq_comm]
  · simp [fits]

/-- A tag is accepted if it is a method's. -/
theorem HttpMethod.ofTag_ok_iff {tag : UInt32} {method : HttpMethod}
    : ofTag tag = .ok method ↔ ofTag? tag = some method := by
  unfold ofTag
  cases ofTag? tag <;> simp

section Decode

variable {Runtime : Type} {runtime : Runtime} {bytes : List UInt8}

/-- A payload ends at the handle or behind it. -/
theorem decodeBodyStream_ok_iff {offset : Nat}
    {stream? : Option (HttpServerRequestBody Runtime)}
    : decodeBodyStream runtime bytes offset = .ok stream?
      ↔ offset = bytes.length ∧ stream? = none
        ∨ ∃ bodyHandle,
            StandsAt bytes offset (uint32Le bodyHandle)
            ∧ offset + 4 = bytes.length
            ∧ stream?
              = if bodyHandle = 0 then none else some { runtime, handle := bodyHandle } := by
  unfold decodeBodyStream
  rcases eq_or_ne offset bytes.length with ended | more
  · simp [ended, eq_comm]
  · simp only [beq_iff_eq, more, if_false, false_and, false_or]
    constructor
    · intro done
      obtain ⟨⟨bodyHandle, offset10⟩, read, rest⟩ := bind_eq_ok_iff.mp done
      obtain ⟨stands, rfl⟩ := decodeUInt32LeAt?_eq_some_iff.mp (required_ok_iff.mp read)
      refine ⟨bodyHandle, stands, ?_⟩
      rcases eq_or_ne (offset + 4) bytes.length with ended | trailing
      · rcases eq_or_ne bodyHandle 0 with rfl | given
        · simp_all
        · simp_all
      · simp [trailing] at rest
    · intro handle
      obtain ⟨bodyHandle, stands, ended, rfl⟩ := handle
      have read := required_ok_iff.mpr (decodeUInt32LeAt?_eq_some_iff.mpr ⟨stands, rfl⟩)
      refine bind_eq_ok_iff.mpr ⟨_, read, ?_⟩
      simp only [ended, if_true]
      split <;> rfl

/-- Fields that say what `request` says. -/
structure Carries (fields : RequestFields) (request : HttpServerRequest Runtime) : Prop where
  requestId : fields.requestId = request.requestId
  method : HttpMethod.ofTag? fields.methodTag = some request.method
  webSocketRequested : (fields.webSocketTag != 0) = request.webSocketRequested
  path : fields.path = toUtf8 request.path
  headers : fields.headers = encodeHttpHeaders request.headers
  headersFit : ∀ header ∈ request.headers, PairFits header.pair
  headerCount : request.headers.length < 2 ^ 32
  body : fields.body = request.body

/-- A length and a text that is read behind it are a field. -/
theorem textField_iff {offset next : Nat} {text : String}
    : (∃ length : UInt32,
        StandsAt bytes offset (uint32Le length)
        ∧ decodeUtf8AtAndNext bytes (offset + 4) length = .ok (text, next))
      ↔ (toUtf8 text).length < 2 ^ 32 ∧ StandsAt bytes offset (fieldWire (toUtf8 text))
        ∧ next = offset + (fieldWire (toUtf8 text)).length := by
  simp only [decodeUtf8AtAndNext_ok_iff, ← field_iff]

/-- What the decoder accepts has the fields at its start, in their order, and the handle. -/
theorem fields_of_decoded {request : HttpServerRequest Runtime}
    (done : decodeHttpServerRequest runtime bytes = .ok request)
    : ∃ fields : RequestFields,
        fields.Fits
        ∧ StandsAt bytes 0 fields.wire
        ∧ Carries fields request
        ∧ decodeBodyStream runtime bytes fields.wire.length = .ok request.bodyStream? := by
  obtain ⟨⟨requestId, offset1⟩, read1, done⟩ := bind_eq_ok_iff.mp done
  obtain ⟨⟨methodTag, offset2⟩, read2, done⟩ := bind_eq_ok_iff.mp done
  obtain ⟨⟨webSocketTag, offset3⟩, read3, done⟩ := bind_eq_ok_iff.mp done
  obtain ⟨⟨pathLen, offset4⟩, read4, done⟩ := bind_eq_ok_iff.mp done
  obtain ⟨⟨path', offset5⟩, readPath, done⟩ := bind_eq_ok_iff.mp done
  obtain ⟨⟨headersLen, offset6⟩, read6, done⟩ := bind_eq_ok_iff.mp done
  obtain ⟨_, inside, done⟩ := bind_eq_ok_iff.mp done
  obtain ⟨⟨headers, parsedOffset7⟩, readHeaders, done⟩ := bind_eq_ok_iff.mp done
  obtain ⟨_, parsed, done⟩ := bind_eq_ok_iff.mp done
  obtain ⟨⟨bodyLen, offset8⟩, read8, done⟩ := bind_eq_ok_iff.mp done
  obtain ⟨⟨body, offset9⟩, readBody, done⟩ := bind_eq_ok_iff.mp done
  obtain ⟨bodyStream?, readStream, done⟩ := bind_eq_ok_iff.mp done
  obtain ⟨method, known, done⟩ := bind_eq_ok_iff.mp done
  obtain rfl := Except.ok.inj done
  obtain ⟨id, rfl⟩ := decodeUInt32LeAt?_eq_some_iff.mp (required_ok_iff.mp read1)
  obtain ⟨tag, rfl⟩ := decodeUInt32LeAt?_eq_some_iff.mp (required_ok_iff.mp read2)
  obtain ⟨socket, rfl⟩ := decodeUInt32LeAt?_eq_some_iff.mp (required_ok_iff.mp read3)
  obtain ⟨text, rfl⟩ := decodeUInt32LeAt?_eq_some_iff.mp (required_ok_iff.mp read4)
  obtain ⟨pathFits, pathField, rfl⟩ := textField_iff.mp ⟨pathLen, text, readPath⟩
  obtain ⟨block, rfl⟩ := decodeUInt32LeAt?_eq_some_iff.mp (required_ok_iff.mp read6)
  obtain ⟨few, fit, list, rfl⟩ := decodeHeadersAtOffset_ok_iff.mp readHeaders
  have ends : (encodeHttpHeaders headers).length = headersLen.toNat := by
    simpa using rejectIf_ok_iff.mp parsed
  obtain ⟨headersFit, headersField, next7⟩ := field_iff.mp ⟨headersLen, block, ends, list, rfl⟩
  obtain ⟨bodyLength, rfl⟩ := decodeUInt32LeAt?_eq_some_iff.mp (required_ok_iff.mp read8)
  obtain ⟨bodySize, data, rfl⟩ := sliceAtAndNext?_eq_some_iff.mp (required_ok_iff.mp readBody)
  obtain ⟨bodyFits, bodyField, next9⟩ := field_iff.mp ⟨bodyLen, bodyLength, bodySize, data, rfl⟩
  rw [next7] at bodyField next9
  let fields : RequestFields :=
    { requestId, methodTag, webSocketTag, path := toUtf8 path',
      headers := encodeHttpHeaders headers, body }
  refine ⟨fields, ⟨pathFits, headersFit, bodyFits⟩, ?_, ?_, ?_⟩
  · simp only [RequestFields.wire, standsAt_append]
    exact ⟨id, tag, socket, pathField, headersField, bodyField⟩
  · exact {
      requestId := rfl
      method := HttpMethod.ofTag_ok_iff.mp known
      webSocketRequested := rfl
      path := rfl
      headers := rfl
      headersFit := fit
      headerCount := few
      body := rfl
    }
  · rwa [next7, next9, ← fields.length_wire] at readStream

/-- The decoder accepts fields that stand at the start with a handle behind them. -/
theorem decoded_of_fields {request : HttpServerRequest Runtime} {fields : RequestFields}
    (fits : fields.Fits) (stands : StandsAt bytes 0 fields.wire) (carries : Carries fields request)
    (readStream
      : decodeBodyStream runtime bytes fields.wire.length = .ok request.bodyStream?)
    : decodeHttpServerRequest runtime bytes = .ok request := by
  obtain ⟨requestId, methodTag, webSocketTag, path, block, body⟩ := fields
  obtain ⟨_, method, webSocketRequested, path', headers, _, bodyStream?⟩ := request
  obtain ⟨sameId, known, sameSocket, samePath, sameHeaders, fit, few, sameBody⟩ := carries
  dsimp only at sameId known sameSocket samePath sameHeaders fit few sameBody readStream
  subst sameId sameSocket samePath sameHeaders sameBody
  rw [RequestFields.length_wire] at readStream
  simp only [RequestFields.wire, standsAt_append, length_uint32Le] at stands
  dsimp only at readStream fits
  obtain ⟨id, tag, socket, pathField, headersField, bodyField⟩ := stands
  obtain ⟨pathLen, text, readPath⟩ := textField_iff.mpr ⟨fits.path, pathField, rfl⟩
  obtain ⟨headersLen, blockLength, ends, list, next7⟩ :=
    field_iff.mpr ⟨fits.headers, headersField, rfl⟩
  rw [next7] at bodyField readStream
  obtain ⟨bodyLen, bodyLength, bodySize, data, next9⟩ :=
    field_iff.mpr ⟨fits.body, bodyField, rfl⟩
  rw [next9] at readStream
  have reads {offset : Nat} {value : UInt32} (stands : StandsAt bytes offset (uint32Le value))
      : required (decodeUInt32LeAt? bytes offset) = .ok (value, offset + 4) :=
    required_ok_iff.mpr (decodeUInt32LeAt?_eq_some_iff.mpr ⟨stands, rfl⟩)
  have readHeaders := decodeHeadersAtOffset_ok_iff.mpr ⟨few, fit, list, rfl⟩
  have readBody :=
    required_ok_iff.mpr (sliceAtAndNext?_eq_some_iff.mpr ⟨bodySize, data, rfl⟩)
  have inside := list.fits
  refine bind_eq_ok_iff.mpr ⟨_, reads id, bind_eq_ok_iff.mpr ⟨_, reads tag, ?_⟩⟩
  refine bind_eq_ok_iff.mpr ⟨_, reads socket, bind_eq_ok_iff.mpr ⟨_, reads text, ?_⟩⟩
  refine bind_eq_ok_iff.mpr ⟨_, readPath, bind_eq_ok_iff.mpr ⟨_, reads blockLength, ?_⟩⟩
  refine bind_eq_ok_iff.mpr ⟨(), rejectIf_ok_iff.mpr (by simp; omega), ?_⟩
  refine bind_eq_ok_iff.mpr ⟨_, readHeaders, ?_⟩
  refine bind_eq_ok_iff.mpr ⟨(), rejectIf_ok_iff.mpr (by simp [ends]), ?_⟩
  refine bind_eq_ok_iff.mpr ⟨_, reads bodyLength, bind_eq_ok_iff.mpr ⟨_, readBody, ?_⟩⟩
  refine bind_eq_ok_iff.mpr ⟨_, readStream, ?_⟩
  exact bind_eq_ok_iff.mpr ⟨_, HttpMethod.ofTag_ok_iff.mpr known, rfl⟩

/-- The decoder reads the fields that stand at the start, in their order, and the handle. -/
theorem decodeHttpServerRequest_ok_iff {request : HttpServerRequest Runtime}
    : decodeHttpServerRequest runtime bytes = .ok request
      ↔ ∃ fields : RequestFields,
          fields.Fits
          ∧ StandsAt bytes 0 fields.wire
          ∧ Carries fields request
          ∧ decodeBodyStream runtime bytes fields.wire.length = .ok request.bodyStream? := by
  constructor
  · exact fields_of_decoded
  · rintro ⟨fields, fits, stands, carries, readStream⟩
    exact decoded_of_fields fits stands carries readStream

/-- An accepted payload in which known fields stand ends behind them or behind one number. -/
theorem length_of_accepted {fields : RequestFields} {request : HttpServerRequest Runtime}
    (fits : fields.Fits) (stands : StandsAt bytes 0 fields.wire)
    (accepted : decodeHttpServerRequest runtime bytes = .ok request)
    : bytes.length = fields.wire.length ∨ bytes.length = fields.wire.length + 4 := by
  obtain ⟨found, foundFits, foundStands, _, stream⟩ := decodeHttpServerRequest_ok_iff.mp accepted
  obtain rfl := RequestFields.unique fits foundFits stands foundStands
  rcases decodeBodyStream_ok_iff.mp stream with ⟨ended, _⟩ | ⟨_, _, ended, _⟩
  · exact .inl ended.symm
  · exact .inr ended.symm

end Decode

-----------------------------------------------------------------------------------------
-- From the bridge to Lean
-----------------------------------------------------------------------------------------

/-- A method that Lean knows, UTF-8 texts, and lengths below 2^32. -/
structure HttpServerRequestRecord.Valid (record : HttpServerRequestRecord) : Prop where
  method : ∃ method : HttpMethod, method.toTag = record.methodTag
  path : record.path.length < 2 ^ 32 ∧ ValidUtf8 record.path
  headers : ∀ pair ∈ record.headers, PairFits pair ∧ ValidUtf8 pair.1 ∧ ValidUtf8 pair.2
  headerCount : record.headers.length < 2 ^ 32
  headerBytes : (headerListWire record.headers).length < 2 ^ 32
  body : record.body.length < 2 ^ 32

def HttpServerRequestRecord.fields (record : HttpServerRequestRecord) : RequestFields where
  requestId := record.requestId
  methodTag := record.methodTag
  webSocketTag := if record.webSocketRequested then 1 else 0
  path := record.path
  headers := headerListWire record.headers
  body := record.body

/-- The fields of a valid record fit. -/
theorem HttpServerRequestRecord.Valid.fits {record : HttpServerRequestRecord}
    (valid : record.Valid) : record.fields.Fits where
  path := valid.path.1
  headers := valid.headerBytes
  body := valid.body

/-- A valid record is encoded as its fields and its body's handle. -/
theorem encodeHttpServerRequest_eq {record : HttpServerRequestRecord} (valid : record.Valid)
    : encodeHttpServerRequest record
      = .ok (record.fields.wire ++ uint32Le record.bodyHandle) := by
  have path := valid.path.1
  have block := valid.headerBytes
  have body := valid.body
  have encoded := encodeHeaderPairs_eq (fun pair member => (valid.headers pair member).1)
  rw [encodeHttpServerRequest, if_neg (by omega), encoded]
  refine bind_eq_ok_iff.mpr ⟨_, rfl, ?_⟩
  rw [if_neg (by omega)]
  simp [RequestFields.wire, HttpServerRequestRecord.fields, appendUint32Le, fieldWire]

/-- A request that says what a record says. -/
structure SameRequest {Runtime : Type} (runtime : Runtime) (record : HttpServerRequestRecord)
    (request : HttpServerRequest Runtime) : Prop where
  requestId : request.requestId = record.requestId
  method : request.method.toTag = record.methodTag
  webSocketRequested : request.webSocketRequested = record.webSocketRequested
  path : toUtf8 request.path = record.path
  headers : request.headers.map HttpHeader.pair = record.headers
  body : request.body = record.body
  bodyStream_eq_none_iff : request.bodyStream? = none ↔ record.bodyHandle = 0
  bodyStream
    : ∀ stream ∈ request.bodyStream?, stream.runtime = runtime ∧ stream.handle = record.bodyHandle

/-- The bytes of a valid record decode to the same request. -/
theorem exists_request_of_valid {Runtime : Type} (runtime : Runtime)
    {record : HttpServerRequestRecord} (valid : record.Valid)
    : ∃ request,
        decodeHttpServerRequest runtime (record.fields.wire ++ uint32Le record.bodyHandle)
          = .ok request
        ∧ SameRequest runtime record request := by
  obtain ⟨method, tag⟩ := valid.method
  obtain ⟨path, samePath⟩ := validUtf8_iff.mp valid.path.2
  obtain ⟨headers, sameHeaders⟩ :=
    exists_headers_of_validUtf8 (fun pair member => (valid.headers pair member).2)
  have whole : StandsAt (record.fields.wire ++ uint32Le record.bodyHandle) 0 _ :=
    (standsAt_zero.mpr rfl).1
  obtain ⟨front, handle⟩ := standsAt_append.mp whole
  let stream? : Option (HttpServerRequestBody Runtime) :=
    if record.bodyHandle = 0 then none else some { runtime, handle := record.bodyHandle }
  let request : HttpServerRequest Runtime :=
    { requestId := record.requestId, method, webSocketRequested := record.webSocketRequested,
      path, headers, body := record.body, bodyStream? := stream? }
  refine
    ⟨request, decodeHttpServerRequest_ok_iff.mpr ⟨record.fields, valid.fits, front, ?_, ?_⟩, ?_⟩
  · refine {
      requestId := rfl
      method := ?_
      webSocketRequested := ?_
      path := samePath.symm
      headers := ?_
      headersFit := ?_
      headerCount := ?_
      body := rfl
    }
    · have known := HttpMethod.ofTag_ok_iff.mp (HttpMethod.ofTag_toTag method)
      rwa [tag] at known
    · cases requested : record.webSocketRequested <;>
        simp [HttpServerRequestRecord.fields, request, requested]
    · simp only [HttpServerRequestRecord.fields, encodeHttpHeaders_eq, request, sameHeaders]
    · exact fun header member =>
        (valid.headers _ (sameHeaders ▸ List.mem_map_of_mem member)).1
    · simpa [← sameHeaders] using valid.headerCount
  · rw [Nat.zero_add] at handle
    refine decodeBodyStream_ok_iff.mpr (.inr ⟨record.bodyHandle, handle, ?_, rfl⟩)
    rw [List.length_append, length_uint32Le]
  · refine {
      requestId := rfl
      method := tag
      webSocketRequested := rfl
      path := samePath
      headers := sameHeaders
      body := rfl
      bodyStream_eq_none_iff := ?_
      bodyStream := ?_
    }
    · simp [request, stream?]
    · intro stream given
      rcases eq_or_ne record.bodyHandle 0 with null | handle
      · simp [request, stream?, null] at given
      · simp only [request, stream?, handle, if_false, Option.mem_some_iff] at given
        exact given ▸ ⟨rfl, rfl⟩

/-- What the bridge encodes Lean decodes to the same request. Of the strict prefixes it accepts
the one without the handle alone, and no extension.
-/
theorem httpServerRequest_codec {Runtime : Type} (runtime : Runtime)
    {record : HttpServerRequestRecord} (valid : record.Valid)
    : ∃ bytes,
        encodeHttpServerRequest record = .ok bytes
        ∧ (∃ request,
            decodeHttpServerRequest runtime bytes = .ok request
            ∧ SameRequest runtime record request)
        ∧ (∀ front, front <+: bytes → front ≠ bytes → front.length + 4 ≠ bytes.length →
            ∃ reason, decodeHttpServerRequest runtime front = .error reason)
        ∧ ∀ extra, extra ≠ [] →
            ∃ reason, decodeHttpServerRequest runtime (bytes ++ extra) = .error reason := by
  have here (more : List UInt8)
      : StandsAt (record.fields.wire ++ uint32Le record.bodyHandle ++ more) 0
          record.fields.wire := by
    rw [List.append_assoc]
    exact (standsAt_zero.mpr rfl).1.append _
  have length
      : (record.fields.wire ++ uint32Le record.bodyHandle).length
        = record.fields.wire.length + 4 := by
    rw [List.length_append, length_uint32Le]
  refine ⟨_, encodeHttpServerRequest_eq valid, exists_request_of_valid runtime valid, ?_, ?_⟩
  · intro front initial strict withoutHandle
    cases decoded : decodeHttpServerRequest runtime front with
    | error reason => exact ⟨reason, rfl⟩
    | ok request =>
        obtain ⟨fields, fits, stands, -, -⟩ := decodeHttpServerRequest_ok_iff.mp decoded
        obtain ⟨more, same⟩ := initial
        have later
            : StandsAt (record.fields.wire ++ uint32Le record.bodyHandle ++ []) 0
                fields.wire := by
          rw [List.append_nil, ← same]
          exact stands.append more
        obtain rfl := RequestFields.unique fits valid.fits later (here [])
        rcases length_of_accepted fits stands decoded with short | whole
        · omega
        · exact absurd (List.IsPrefix.eq_of_length ⟨more, same⟩ (whole.trans length.symm)) strict
  · intro extra more
    cases decoded
        : decodeHttpServerRequest runtime
            (record.fields.wire ++ uint32Le record.bodyHandle ++ extra) with
    | error reason => exact ⟨reason, rfl⟩
    | ok request =>
        have positive := List.length_pos_iff.mpr more
        have ends := length_of_accepted valid.fits (here extra) decoded
        rw [List.length_append, length] at ends
        omega

/-- A POST of a text with one header, two bytes of body and more of it to be read. -/
def postRecord : HttpServerRequestRecord where
  requestId := 3
  methodTag := 2
  path := toUtf8 "/a"
  headers := [HttpHeader.pair { name := "host", value := "b" }]
  body := [1, 2]
  bodyHandle := 7

/-- Witness: a request with a body. -/
theorem httpServerRequest_codec_post
    : ∃ bytes request,
        encodeHttpServerRequest postRecord = .ok bytes
        ∧ decodeHttpServerRequest () bytes = .ok request
        ∧ SameRequest () postRecord request := by
  have valid : postRecord.Valid := {
    method := ⟨.post, rfl⟩
    path := ⟨by decide, validUtf8_iff.mpr ⟨_, rfl⟩⟩
    headers := List.forall_mem_singleton.mpr
      ⟨by decide, validUtf8_iff.mpr ⟨_, rfl⟩, validUtf8_iff.mpr ⟨_, rfl⟩⟩
    headerCount := by decide
    headerBytes := by decide
    body := by decide
  }
  obtain ⟨bytes, encoded, ⟨request, decoded, same⟩, -⟩ := httpServerRequest_codec () valid
  exact ⟨bytes, request, encoded, decoded, same⟩

end Capnp.KjAsync.RequestCodec
