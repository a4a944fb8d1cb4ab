import LayeredCache.Zstandard.StateTable

/-!
# Prefix code tables

Literals may be written in a prefix code. The code is described by a weight for each byte value: a
symbol of weight `w` takes `2 ^ (w - 1)` of the table's places, and places are given out from the
lightest weight up, within a weight in the order of the symbols. The last weight is not written,
because it has to complete the table.

## Main definitions

* `Zstandard.CodeTable` — the table that a code's next bits are looked up in.
* `Zstandard.CodeTable.ofWeights` — the table of the written weights.
* `Zstandard.CodeTable.read` — reads the description of a code.
* `Zstandard.CodeTable.decode` — the symbols of a stream.
-/

set_option autoImplicit false

namespace LayeredCache.Zstandard

/-- A prefix code with words of at most `maxBits` bits. Each entry holds the symbol of the code
word that the entry's index starts with, and the length of that word. -/
structure CodeTable where
  maxBits : Nat
  entries : Array (UInt8 × Nat)
  deriving Inhabited, Repr

namespace CodeTable

/-- The greatest weight of a symbol. -/
def weightLimit : Nat := 12

/-- The places that symbols of the given weights take. -/
def places (weights : List Nat) : Nat :=
  weights.foldl (fun n w => if w = 0 then n else n + Nat.pow 2 (w - 1)) 0

/-- The entries of the symbols of one weight. -/
def entriesOf (maxBits : Nat) (weights : List Nat) (weight : Nat) : List (UInt8 × Nat) :=
  weights.zipIdx.flatMap fun (w, symbol) =>
    if w = weight then
      List.replicate (Nat.pow 2 (weight - 1)) (UInt8.ofNat symbol, maxBits + 1 - weight)
    else []

/-- The table of the written weights, completed by the weight of one more symbol. There is none
when the weights leave a number of places that is not a power of two, or when the longest code
words are not a positive even number. -/
def ofWeights (written : List Nat) : Option CodeTable :=
  let taken := places written
  if taken = 0 || weightLimit < (written.foldl max 0) then none
  else
    let maxBits := taken.log2 + 1
    let missing := Nat.pow 2 maxBits - taken
    if weightLimit < maxBits || Nat.pow 2 missing.log2 ≠ missing then none
    else
      let weights := written ++ [missing.log2 + 1]
      let longest := (weights.filter (· == 1)).length
      if longest < 2 || longest % 2 = 1 || 256 < weights.length then none
      else
        let entries := (List.range' 1 maxBits).flatMap (entriesOf maxBits weights)
        some ⟨maxBits, entries.toArray⟩

/-- Weights of four bits each, the upper half of a byte first. -/
def directWeights (count : Nat) (bs : Bytes) : List Nat :=
  (bs.flatMap fun b => [b.toNat / 16, b.toNat % 16]).take count

/-- Decodes weights by two states that take turns on one stream, until it has run out; the other
state then still holds one weight. -/
def alternateWeights (t : StateTable) :
    (fuel : Nat) → (current other : Nat) → BackwardBits → List Nat → Option (List Nat)
  | 0, _, _, _, _ => none
  | fuel + 1, current, other, s, weights =>
    let weights := (t.entry current).symbol :: weights
    let (current, s) := t.next current s
    if s.overrun then some ((t.entry other).symbol :: weights).reverse
    else alternateWeights t fuel other current s weights

/-- Weights that are written with a finite-state table of their own. -/
def compressedWeights (bs : Bytes) : Option (List Nat) :=
  let data := bs.toArray
  match readDistribution 6 256 data with
  | none => none
  | some (log, shares, used) =>
    match BackwardBits.open? (data.extract used data.size) with
    | none => none
    | some s =>
      let table := StateTable.ofDistribution log shares
      let (first, s) := table.start s
      let (second, s) := table.start s
      if s.overrun then none else alternateWeights table 256 first second s []

/-- Reads the description of a code: its first byte says how the weights are written. The result
is the code's table and the bytes after the description. -/
def read : Bytes → Option (CodeTable × Bytes)
  | [] => none
  | head :: rest =>
    if 128 ≤ head then
      let count := head.toNat - 127
      match Bytes.split? ((count + 1) / 2) rest with
      | none => none
      | some (written, rest) => (ofWeights (directWeights count written)).map (·, rest)
    else
      match Bytes.split? head.toNat rest with
      | none => none
      | some (written, rest) =>
        (compressedWeights written).bind fun weights => (ofWeights weights).map (·, rest)

/-- The first `count` symbols of a stream, appended to `output`. -/
def symbols (t : CodeTable) :
    (count : Nat) → BackwardBits → Array UInt8 → Array UInt8 × BackwardBits
  | 0, s, output => (output, s)
  | count + 1, s, output =>
    let (symbol, bits) := t.entries[s.peek t.maxBits]?.getD (0, 0)
    symbols t count (s.skip bits) (output.push symbol)

/-- The `count` symbols that a byte string encodes, appended to `output`. The string has to end
with them. -/
def decode (t : CodeTable) (count : Nat) (bs : Bytes) (output : Array UInt8) :
    Option (Array UInt8) :=
  match BackwardBits.open? bs.toArray with
  | none => none
  | some s =>
    let (output, s) := t.symbols count s output
    if s.isSpent then some output else none

end CodeTable

end LayeredCache.Zstandard
