import Capnp.Runtime.Message

/-! Little-endian 32-bit numbers in byte strings, and the bytes of a message: a table of
segment sizes, padded to a whole number of words, and the segments.
-/

namespace Capnp

def readByteArray (bytes : List UInt8) (byteOff : Nat) : UInt8 :=
  bytes.getD byteOff 0

def readUInt32LE (bytes : List UInt8) (byteOff : Nat) : UInt32 :=
  let b0 := (readByteArray bytes byteOff).toUInt32
  let b1 := (readByteArray bytes (byteOff + 1)).toUInt32 <<< 8
  let b2 := (readByteArray bytes (byteOff + 2)).toUInt32 <<< 16
  let b3 := (readByteArray bytes (byteOff + 3)).toUInt32 <<< 24
  b0 ||| b1 ||| b2 ||| b3

def appendUInt32LE (ba : List UInt8) (v : UInt32) : List UInt8 :=
  ba ++ [v.toUInt8, (v >>> 8).toUInt8, (v >>> 16).toUInt8, (v >>> 24).toUInt8]

def writeMessage (msg : Message) : List UInt8 :=
  let segCount := msg.segments.length
  if segCount == 0 then []
  else
    let headerWords := segCount + 1
    let out := appendUInt32LE [] (UInt32.ofNat (segCount - 1))
    let out :=
      (List.range segCount).foldl
        (fun out i => appendUInt32LE out (UInt32.ofNat ((getSegment msg i).length / 8))) out
    let out := if headerWords % 2 != 0 then appendUInt32LE out 0 else out
    (List.range segCount).foldl (fun out i => out ++ getSegment msg i) out

/-- The ids of the capabilities of a message. -/
structure CapTable where
  caps : List UInt32
deriving DecidableEq

def CapTable.toBytes (t : CapTable) : List UInt8 :=
  t.caps.foldl appendUInt32LE []

end Capnp
