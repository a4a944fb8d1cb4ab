import LayeredCache.MessagePack.Token
import LayeredCache.Text.Utf8
import LayeredCache.Value

/-!
# Writing values as MessagePack

Every value has one written form: integers under their shortest head, records as maps from field
names to values in field order, a choice as its case's name or as a map from that name to the
payload. An absent value is nil and a present one is written as what it holds.

## Main definitions

* `Value.write` — the MessagePack form of a value.
-/

set_option autoImplicit false

namespace LayeredCache

open MessagePack

/-- A text with its head. -/
def MessagePack.writeText (s : String) : Bytes :=
  let bytes := Utf8.encode s
  textHead bytes.length ++ bytes

mutual

/-- The MessagePack form of a value. A value that refuses to be written has none, and `[]` stands
in its place. -/
def Value.write : Value → Bytes
  | .unit => nil
  | .bool b => [if b then 0xc3 else 0xc2]
  | .int i => writeInt i
  | .float32 bits => 0xca :: Bytes.toBigEndian 4 bits.toNat
  | .float64 bits => 0xcb :: Bytes.toBigEndian 8 bits.toNat
  | .char c => writeText c.toString
  | .text s => writeText s
  | .octets bs => arrayHead bs.length ++ bs.flatMap fun b => writeUnsigned b.toNat
  | .buffer bs => binaryHead bs.length ++ bs
  | .absent => nil
  | .present v => v.write
  | .list vs => arrayHead vs.length ++ Value.writeAll vs
  | .map es => mapHead es.length ++ Value.writeEntries es
  | .record fs => mapHead fs.length ++ Value.writeFields fs
  | .token => arrayHead 0
  | .choice case none => writeText case
  | .choice case (some v) => mapHead 1 ++ writeText case ++ v.write
  | .sealed _ => []

/-- The forms of several values, one after the other. -/
def Value.writeAll : List Value → Bytes
  | [] => []
  | v :: vs => v.write ++ Value.writeAll vs

/-- The forms of the entries of a map, each key before its value. -/
def Value.writeEntries : List (Value × Value) → Bytes
  | [] => []
  | (k, v) :: es => k.write ++ v.write ++ Value.writeEntries es

/-- The forms of the fields of a record, each name before its value. -/
def Value.writeFields : List (String × Value) → Bytes
  | [] => []
  | (n, v) :: fs => writeText n ++ v.write ++ Value.writeFields fs

end

end LayeredCache
