import LayeredCache.Zstandard.Bits

/-!
# Finite-state entropy tables

A symbol is decoded by a state: the state's table entry names the symbol and says how the next
state is computed from some bits of the stream. The table is built from a distribution, which
gives each symbol its share of the states.

## Main definitions

* `Zstandard.StateTable` — a decoding table.
* `Zstandard.StateTable.ofDistribution` — the table of a distribution.
* `Zstandard.StateTable.constant` — the table of a single symbol, which takes no bits.
* `Zstandard.readDistribution` — reads the description of a distribution.

## Implementation notes

A share of `-1` stands for less than one state: the symbol gets one state at the end of the table
from which the next state is read in full. The other symbols' states are spread over the table by
a fixed odd stride, skipping the end that is taken.
-/

set_option autoImplicit false

namespace LayeredCache.Zstandard

/-- What a state stands for. -/
structure StateEntry where
  symbol : Nat
  /-- How many bits the next state takes from the stream. -/
  bits : Nat
  /-- The next state when those bits are zero. -/
  base : Nat
  deriving Inhabited, Repr

/-- A decoding table with `2 ^ log` states. -/
structure StateTable where
  log : Nat
  entries : Array StateEntry
  deriving Inhabited, Repr

namespace StateTable

/-- The entry of a state. -/
def entry (t : StateTable) (state : Nat) : StateEntry := t.entries[state]?.getD ⟨0, 0, 0⟩

/-- The table of a single symbol. -/
def constant (symbol : Nat) : StateTable := ⟨0, #[⟨symbol, 0, 0⟩]⟩

/-- The symbols with a share of less than one state. -/
def rare (shares : List Int) : List Nat :=
  (shares.zipIdx.filter fun (share, _) => share == -1).map Prod.snd

/-- Each symbol as often as its share says, in order. -/
def frequent (shares : List Int) : List Nat :=
  shares.zipIdx.flatMap fun (share, symbol) => List.replicate share.toNat symbol

/-- The states in the order in which they are given out: along a fixed stride, without those from
`limit` on. -/
def spreadOrder (size limit : Nat) : List Nat :=
  let stride := size / 2 + size / 8 + 3
  ((List.range size).map fun k => k * stride % size).filter (· < limit)

/-- The symbol of each state. -/
def symbols (log : Nat) (shares : List Int) : Array Nat :=
  let size := Nat.pow 2 log
  let rare := rare shares
  let limit := size - rare.length
  let table := Array.replicate size 0
  let table := rare.zipIdx.foldl (fun t (symbol, i) => t.setIfInBounds (size - 1 - i) symbol) table
  ((spreadOrder size limit).zip (frequent shares)).foldl
    (fun t (state, symbol) => t.setIfInBounds state symbol) table

/-- The table of a distribution over `2 ^ log` states. The states of a symbol, in ascending order,
are numbered from the symbol's share on; the number of a state decides how many bits follow. -/
def ofDistribution (log : Nat) (shares : List Int) : StateTable :=
  let counters := (shares.map fun share => if share == -1 then 1 else share.toNat).toArray
  let (_, entries) := (symbols log shares).foldl (fun (counters, entries) symbol =>
    let count := counters[symbol]?.getD 1
    let bits := log - count.log2
    (counters.setIfInBounds symbol (count + 1),
      entries.push ⟨symbol, bits, count * Nat.pow 2 bits - Nat.pow 2 log⟩))
    ((counters, #[]) : Array Nat × Array StateEntry)
  ⟨log, entries⟩

/-- The first state, read in full from the stream. -/
def start (t : StateTable) (s : BackwardBits) : Nat × BackwardBits := s.take t.log

/-- The state after the given one. -/
def next (t : StateTable) (state : Nat) (s : BackwardBits) : Nat × BackwardBits :=
  let e := t.entry state
  let (bits, s) := s.take e.bits
  (e.base + bits, s)

end StateTable

/-! ## Descriptions of distributions -/

/-- Reads how many further symbols have no share: two bits at a time, the value three meaning that
another count follows. -/
def readAbsent (data : Array UInt8) : (fuel : Nat) → (position : Nat) → Nat × Nat
  | 0, position => (0, position)
  | fuel + 1, position =>
    let n := bitsAt data position 2
    if n = 3 then
      let (more, position) := readAbsent data fuel (position + 2)
      (3 + more, position)
    else (n, position + 2)

/-- Reads shares until `remaining` states are given out. A share is written with as few bits as
the number of remaining states allows, small values with one bit less. -/
def readShares (data : Array UInt8) :
    (fuel : Nat) → (remaining position : Nat) → (shares : List Int) → Option (List Int × Nat)
  | _, 0, position, shares => some (shares.reverse, position)
  | 0, _ + 1, _, _ => none
  | fuel + 1, remaining + 1, position, shares =>
    let width := (remaining + 2).log2 + 1
    let value := bitsAt data position width
    let half := Nat.pow 2 (width - 1)
    let threshold := Nat.pow 2 width - 1 - (remaining + 2)
    let (value, width) :=
      if value % half < threshold then (value % half, width - 1)
      else if half ≤ value then (value - threshold, width)
      else (value, width)
    let share : Int := (value : Int) - 1
    let position := position + width
    if remaining + 1 < share.natAbs then none
    else if share = 0 then
      let (absent, position) := readAbsent data data.size.succ position
      readShares data fuel (remaining + 1) position (List.replicate (absent + 1) 0 ++ shares)
    else readShares data fuel (remaining + 1 - share.natAbs) position (share :: shares)

/-- Reads a distribution over at most `2 ^ logLimit` states and `symbolLimit` symbols from the
beginning of a byte string. The result is the logarithm of the number of states, the shares and
the number of bytes that were read. -/
def readDistribution (logLimit symbolLimit : Nat) (data : Array UInt8) :
    Option (Nat × List Int × Nat) :=
  let log := bitsAt data 0 4 + 5
  if logLimit < log then none
  else
    match readShares data (symbolLimit + 1) (Nat.pow 2 log) 4 [] with
    | none => none
    | some (shares, position) =>
      let bytes := (position + 7) / 8
      if symbolLimit < shares.length || data.size < bytes then none
      else some (log, shares, bytes)

end LayeredCache.Zstandard
