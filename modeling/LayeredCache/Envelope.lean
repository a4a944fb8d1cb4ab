import LayeredCache.Text.Utf8
import LayeredCache.MessagePack.Reader
import LayeredCache.MessagePack.Writer
import LayeredCache.Zstandard.Compressor
import LayeredCache.Zstandard.Frame

/-!
# The stored form of a value

Both tiers hold values as byte strings. Text and byte strings are stored as they are. Every other
value is written as MessagePack and put into an envelope: a payload below `threshold` bytes is
kept plain, a longer one is compressed, and one last byte tells which. A value that stands for
nothing is stored as the empty byte string, and the empty byte string reads as nothing at any
type.

## Main definitions

* `Envelope` — the settings of the stored form: the compression level.
* `Envelope.encode`, `Envelope.decode` — typed values to bytes and back.
* `Envelope.wrap`, `Envelope.unwrap` — payloads with and without their last byte.
* `Envelope.Fault` — why a value cannot be stored or read.
-/

set_option autoImplicit false

namespace LayeredCache

/-- The settings of the stored form. -/
structure Envelope where
  /-- How hard the compressor looks for repetitions. -/
  level : Int := 3
  deriving DecidableEq, Repr

namespace Envelope

/-- Why a value cannot be stored, or a stored value cannot be read. -/
inductive Fault where
  /-- The value holds a part that refuses to be written, for the given reason. -/
  | unencodable (reason : String)
  /-- The payload is not a value of the wanted type. -/
  | undecodable
  /-- The bytes are not text. -/
  | notText (fault : Utf8.Fault)
  /-- The last byte names no way of storing a payload. -/
  | unknownMarker (marker : UInt8)
  /-- The compressed payload cannot be expanded. -/
  | corruptFrame
  deriving DecidableEq, Repr

/-- The text of a fault. -/
def Fault.message : Fault → String
  | .unencodable reason => "MessagePack encoding failed: " ++ reason
  | .undecodable => "MessagePack decoding failed"
  | .notText f => "Cached value is not valid UTF-8: " ++ f.message
  | .unknownMarker b => "Unknown compression method: 0x" ++ Bytes.hexByte b
  | .corruptFrame => "Zstd failed"

/-! ## Payloads -/

/-- Payloads of at least this many bytes are compressed. -/
def threshold : Nat := 64

/-- The last byte after a plain payload. -/
def plainMarker : UInt8 := 0x00

/-- The last byte after a compressed payload. -/
def compressedMarker : UInt8 := 0x01

/-- A payload, compressed when it is long, with the byte that tells which. -/
def wrap (e : Envelope) (payload : Bytes) : Bytes :=
  if payload.length < threshold then payload ++ [plainMarker]
  else Zstandard.compress e.level payload ++ [compressedMarker]

/-- The payload that a stored byte string holds. -/
def unwrap (data : Bytes) : Except Fault Bytes :=
  match data.getLast? with
  | none => .ok []
  | some marker =>
    if marker == plainMarker then .ok data.dropLast
    else if marker == compressedMarker then
      match Zstandard.expand data.dropLast with
      | some payload => .ok payload
      | none => .error .corruptFrame
    else .error (.unknownMarker marker)

/-! ## Values -/

/-- The stored form of a value whose type is stored as it is. -/
def verbatim? : Ty → Value → Option Bytes
  | .scalar .unit, _ => some []
  | .scalar .text, .text s => some (Utf8.encode s)
  | .scalar .literal, .text s => some (Utf8.encode s)
  | .scalar .octets, .octets bs => some bs
  | .scalar .buffer, .buffer bs => some bs
  | _, _ => none

/-- The stored form of a value of type `ty`. -/
def encode (e : Envelope) (ty : Ty) (v : Value) : Except Fault Bytes :=
  match verbatim? ty v with
  | some data => .ok data
  | none =>
    match v.refusal? with
    | some reason => .error (.unencodable reason)
    | none =>
      let payload := v.write
      if payload == MessagePack.nil then .ok [] else .ok (e.wrap payload)

/-- The value of type `ty` that a stored byte string holds; nothing when the string is empty. -/
def decode (ty : Ty) (data : Bytes) : Except Fault (Option Value) :=
  if data.isEmpty then .ok none
  else
    match ty with
    | .scalar .octets => .ok (some (.octets data))
    | .scalar .buffer => .ok (some (.buffer data))
    | .scalar .text =>
      match Utf8.decode data with
      | .ok s => .ok (some (.text s))
      | .error f => .error (.notText f)
    | _ =>
      match unwrap data with
      | .error f => .error f
      | .ok payload =>
        match ty.read payload with
        | some v => .ok (some v)
        | none => .error .undecodable

/-- The stored settings as text. -/
def text (e : Envelope) : String := s!"Codec \x7b zstd_level: {e.level} \x7d"

end Envelope

end LayeredCache
