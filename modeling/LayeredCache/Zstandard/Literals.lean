import LayeredCache.Zstandard.CodeTable

/-!
# The literals of a compressed block

A compressed block starts with the bytes that its sequences copy from nowhere else. They are stored
as they are, as one repeated byte, or in a prefix code, in one stream or in four.

## Main definitions

* `Zstandard.blockLimit` — how many bytes a block may produce.
* `Zstandard.Literals.read` — the literals of a block and the bytes after them.
-/

set_option autoImplicit false

namespace LayeredCache.Zstandard

/-- How many bytes a block may produce, and how many bytes it may be written with. -/
def blockLimit : Nat := 131072

namespace Literals

/-- How literals are stored. -/
inductive Kind where
  | plain
  | repeated
  /-- In a prefix code whose description precedes them. -/
  | coded
  /-- In the prefix code of an earlier block. -/
  | recoded
  deriving DecidableEq, Repr

/-- What the header of the literals says. -/
structure Header where
  kind : Kind
  /-- How many literals there are. -/
  count : Nat
  /-- How many bytes they are written with. -/
  written : Nat
  /-- Whether they are split into four streams. -/
  fourStreams : Bool

/-- The kind that the two low bits of a header name. -/
def kindOf (n : Nat) : Kind :=
  match n % 4 with
  | 0 => .plain
  | 1 => .repeated
  | 2 => .coded
  | _ => .recoded

/-- Reads the header of coded literals: two counts of `width` bits after four bits of flags. -/
def codedHeader? (kind : Kind) (bytes width : Nat) (fourStreams : Bool) (bs : Bytes) :
    Option (Header × Bytes) :=
  (Bytes.split? bytes bs).map fun (header, rest) =>
    let n := Bytes.ofLittleEndian header / 16
    (⟨kind, n % Nat.pow 2 width, n / Nat.pow 2 width % Nat.pow 2 width, fourStreams⟩, rest)

/-- Reads the header of literals that are not coded: a count after `flags` bits. -/
def plainHeader? (kind : Kind) (bytes flags : Nat) (bs : Bytes) : Option (Header × Bytes) :=
  (Bytes.split? bytes bs).map fun (header, rest) =>
    let count := Bytes.ofLittleEndian header / Nat.pow 2 flags
    (⟨kind, count, if kind = .plain then count else 1, false⟩, rest)

/-- Reads the header of the literals. -/
def header? : Bytes → Option (Header × Bytes)
  | [] => none
  | b :: rest =>
    let kind := kindOf b.toNat
    let size := b.toNat / 4 % 4
    let bs := b :: rest
    match kind with
    | .plain | .repeated =>
      match size with
      | 1 => plainHeader? kind 2 4 bs
      | 3 => plainHeader? kind 3 4 bs
      | _ => plainHeader? kind 1 3 bs
    | .coded | .recoded =>
      match size with
      | 0 => codedHeader? kind 3 10 false bs
      | 1 => codedHeader? kind 3 10 true bs
      | 2 => codedHeader? kind 4 14 true bs
      | _ => codedHeader? kind 5 18 true bs

/-- Decodes literals in four streams. Their lengths stand in front, except for the last one; the
first three hold equally many symbols. -/
def fourStreams (table : CodeTable) (count : Nat) (bs : Bytes) : Option (Array UInt8) :=
  match Bytes.split? 6 bs with
  | none => none
  | some (lengths, bs) =>
    let quarter := (count + 3) / 4
    if count < 6 then none
    else
      match Bytes.split? (Bytes.ofLittleEndian (lengths.take 2)) bs with
      | none => none
      | some (first, bs) =>
        match Bytes.split? (Bytes.ofLittleEndian ((lengths.drop 2).take 2)) bs with
        | none => none
        | some (second, bs) =>
          match Bytes.split? (Bytes.ofLittleEndian (lengths.drop 4)) bs with
          | none => none
          | some (third, fourth) =>
            (table.decode quarter first #[]).bind fun output =>
            (table.decode quarter second output).bind fun output =>
            (table.decode quarter third output).bind fun output =>
            table.decode (count - 3 * quarter) fourth output

/-- Decodes literals with a given code. -/
def decode (table : CodeTable) (h : Header) (bs : Bytes) : Option (Array UInt8) :=
  if h.fourStreams then fourStreams table h.count bs else table.decode h.count bs #[]

/-- The literals of a block, of which there may be `limit`, the code that later blocks may use
again, and the bytes after the literals. -/
def read (limit : Nat) (known : Option CodeTable) (bs : Bytes) :
    Option (Array UInt8 × Option CodeTable × Bytes) :=
  match header? bs with
  | none => none
  | some (h, bs) =>
    if limit < h.count then none
    else
      match Bytes.split? h.written bs with
      | none => none
      | some (written, rest) =>
        match h.kind with
        | .plain => some (written.toArray, known, rest)
        | .repeated => some (Array.replicate h.count (written.headD 0), known, rest)
        | .coded =>
          match CodeTable.read written with
          | none => none
          | some (table, streams) =>
            (decode table h streams).map fun literals => (literals, some table, rest)
        | .recoded =>
          match known with
          | none => none
          | some table => (decode table h written).map fun literals => (literals, known, rest)

end Literals

end LayeredCache.Zstandard
