import LayeredCache.Zstandard.Frame

/-!
# Writing zstd frames

A byte string is compressed by looking for places where it repeats itself: literals and matches
take turns, and a block holds them all, coded by the plain tables. If the frame that comes out does
not expand to the input again, or is not smaller than the input stored as it is, the stored form is
used; so expanding always inverts compressing.

## Main definitions

* `Zstandard.store` — a frame that holds a byte string as it is.
* `Zstandard.compact` — a frame that holds a byte string as literals and matches.
* `Zstandard.compress` — the smaller of the two frames.

## Implementation notes

The states of a table are chosen from the last sequence back to the first: the last one starts at
the lowest state of its code, and each earlier code has exactly one state from which the state after
it can be reached. Literals are never coded themselves.
-/

set_option autoImplicit false

namespace LayeredCache.Zstandard

/-! ## Stored frames -/

/-- The header of frames that are written here: no content size, no checksum, and a window of
`2 ^ windowLog` bytes. -/
def header (windowLog : Nat) : Bytes := magic ++ [0x00, UInt8.ofNat (8 * (windowLog - 10))]

/-- The header of a block. -/
def blockHeader (last : Bool) (kind size : Nat) : Bytes :=
  Bytes.toLittleEndian 3 ((if last then 1 else 0) + 2 * kind + 8 * size)

/-- Blocks that hold a byte string as it is. -/
def storedBlocks : (fuel : Nat) → Bytes → Bytes
  | 0, bs => blockHeader true 0 bs.length ++ bs
  | fuel + 1, bs =>
    if bs.length ≤ blockLimit then blockHeader true 0 bs.length ++ bs
    else
      blockHeader false 0 blockLimit ++ (bs.take blockLimit ++
        storedBlocks fuel (bs.drop blockLimit))

/-- A frame that holds a byte string as it is, with a window of one block. -/
def store (bs : Bytes) : Bytes := header 17 ++ storedBlocks (bs.length / blockLimit) bs

/-! ## Compact frames -/

namespace Compact

/-- The shortest match worth a sequence. -/
def leastMatch : Nat := 5

/-- A stretch of the input: literals and a match that follows them. -/
structure Stretch where
  literals : Bytes
  distance : Nat
  length : Nat

/-- How many bytes agree at two places, up to a limit. -/
def agreement (data : Array UInt8) (i j : Nat) : (limit : Nat) → Nat
  | 0 => 0
  | limit + 1 =>
    if j < data.size && data[i]? == data[j]? then agreement data (i + 1) (j + 1) limit + 1 else 0

/-- The number by which places are looked up: the four bytes there. -/
def fingerprint (data : Array UInt8) (i : Nat) : Nat := wordAt data i 4 % 4093

/-- The best of some earlier places to copy from, and how many bytes agree there. -/
def bestMatch (data : Array UInt8) (i : Nat) (places : List Nat) : Nat × Nat :=
  places.foldl (fun best place =>
    let n := agreement data place i (data.size - i)
    if best.2 < n then (i - place, n) else best) (0, 0)

/-- What is remembered while the input is searched. -/
structure Search where
  /-- The latest places of each fingerprint. -/
  places : Array (List Nat)
  /-- The literals since the last match, the latest first. -/
  literals : Bytes
  /-- The stretches found, the latest first. -/
  stretches : List Stretch
  /-- The first place after the last match. -/
  resume : Nat

/-- Looks at place `i`: within a match there is nothing to do; otherwise the longest of the latest
matches is taken if it is long enough. -/
def Search.visit (probes : Nat) (data : Array UInt8) (s : Search) (i : Nat) : Search :=
  let key := fingerprint data i
  let places := s.places[key]?.getD []
  let s := { s with places := s.places.setIfInBounds key ((i :: places).take probes) }
  if i < s.resume then s
  else
    let (distance, length) := bestMatch data i places
    if leastMatch ≤ length then
      { s with
        literals := []
        stretches := ⟨s.literals.reverse, distance, length⟩ :: s.stretches
        resume := i + length }
    else { s with literals := (data[i]?.getD 0) :: s.literals }

/-- The stretches of an input and the literals after the last one. -/
def search (probes : Nat) (data : Array UInt8) : List Stretch × Bytes :=
  let s := (List.range data.size).foldl (Search.visit probes data)
    ⟨Array.replicate 4093 [], [], [], 0⟩
  (s.stretches.reverse, s.literals.reverse)

/-- The last code whose base does not exceed a number, with the extra bits and their count. -/
def codeOf (v : CodeValues) (n : Nat) : Nat × Nat × Nat :=
  let code := (v.bases.toList.takeWhile (· ≤ n)).length - 1
  (code, n - v.bases[code]?.getD 0, v.extraBits[code]?.getD 0)

/-- The literals of a block, stored as they are. -/
def literalSection (bs : Bytes) : Bytes :=
  (if bs.length < 32 then Bytes.toLittleEndian 1 (8 * bs.length)
    else if bs.length < 4096 then Bytes.toLittleEndian 2 (4 + 16 * bs.length)
    else Bytes.toLittleEndian 3 (12 + 16 * bs.length)) ++ bs

/-- A backward stream that holds the given numbers, each with its count of bits, in the order in
which they are read. -/
def stream (fields : List (Nat × Nat)) : Bytes :=
  let n := fields.foldl (fun n (value, bits) => n * Nat.pow 2 bits + value) 1
  Bytes.toLittleEndian (n.log2 / 8 + 1) n

/-- The number that is written for a distance: the choice of a recent distance where there is one,
otherwise three more than the distance. -/
def distanceNumber (recent : Recent) (literals distance : Nat) : Nat :=
  (([1, 2, 3].find? fun n => (recent.resolve n literals).1 == distance)).getD (distance + 3)

/-- The numbers that are written for the distances of some stretches, one after another. -/
def distanceNumbers : Recent → List Stretch → List Nat
  | _, [] => []
  | recent, s :: rest =>
    let number := distanceNumber recent s.literals.length s.distance
    number :: distanceNumbers (recent.resolve number s.literals.length).2 rest

/-- The lowest state that stands for a code and from which the state `next`, if there is one, can
be reached. -/
def stateFor (t : StateTable) (code : Nat) (next : Option Nat) : Nat :=
  (t.entries.findIdx? fun e => e.symbol == code &&
    next.all fun n => e.base ≤ n && n < e.base + Nat.pow 2 e.bits).getD 0

/-- The states that stand for some codes, one after another. -/
def states (t : StateTable) (codes : List Nat) : List Nat :=
  codes.foldr (fun code after => stateFor t code after.head? :: after) []

/-- What is read to come from each state to the next one; the first state is read in full. -/
def moves (t : StateTable) (path : List Nat) : List (Nat × Nat) :=
  (path.head?.getD 0, t.log) :: (path.zip path.tail).map fun (state, next) =>
    (next - (t.entry state).base, (t.entry state).bits)

/-- The number of sequences, as it is written. -/
def sequenceCount (n : Nat) : Bytes :=
  if n < 128 then [UInt8.ofNat n]
  else if n < 0x7f00 then [UInt8.ofNat (n / 256 + 128), UInt8.ofNat n]
  else 255 :: Bytes.toLittleEndian 2 (n - 0x7f00)

/-- The sequences of some stretches: their count, the plain tables, and one stream with the codes
and their extra bits. -/
def sequenceSection (stretches : List Stretch) : Bytes :=
  let counts := stretches.map fun s => codeOf literalCodes s.literals.length
  let lengths := stretches.map fun s => codeOf matchCodes s.length
  let numbers := distanceNumbers .initial stretches
  let plain (k : CodeKind) := StateTable.ofDistribution k.plainLog k.plainShares
  let path (k : CodeKind) (codes : List Nat) := moves (plain k) (states (plain k) codes)
  let countMoves := path literalKind (counts.map (·.1))
  let distanceMoves := path distanceKind (numbers.map Nat.log2)
  let lengthMoves := path matchKind (lengths.map (·.1))
  let starts := [countMoves.headD (0, 0), distanceMoves.headD (0, 0), lengthMoves.headD (0, 0)]
  let extras := (numbers.zip (lengths.zip counts)).map fun (number, length, count) =>
    [(number - Nat.pow 2 number.log2, number.log2), length.2, count.2]
  let between := (countMoves.tail.zip (lengthMoves.tail.zip distanceMoves.tail)).map
    fun (count, length, distance) => [count, length, distance]
  sequenceCount stretches.length ++ [0] ++
    stream (starts ++ ((extras.zip (between ++ [[]])).flatMap fun (e, b) => e ++ b))

/-- A block with some stretches and the literals after them, or with the part of the input as it
is when that is hardly longer. Distances are chosen as at the beginning of a frame. -/
def block (probes : Nat) (last : Bool) (part : Bytes) : Bytes :=
  let (stretches, rest) := search probes part.toArray
  let content := literalSection (stretches.flatMap (·.literals) ++ rest) ++
    sequenceSection stretches
  if stretches.isEmpty || part.length ≤ content.length + part.length / 64 + 2 then
    blockHeader last 0 part.length ++ part
  else blockHeader last 2 content.length ++ content

/-- The blocks of all parts of the input: the first one is compressed, later ones come as they
are. -/
def blocks (probes : Nat) (bs : Bytes) : Bytes :=
  if bs.length ≤ blockLimit then block probes true bs
  else
    block probes false (bs.take blockLimit) ++
      storedBlocks (bs.length / blockLimit) (bs.drop blockLimit)

end Compact

/-- How many earlier places are compared with each place of the input at a level of effort. -/
def probesAt (level : Int) : Nat := (max 1 (min level 22)).toNat

/-- The logarithm of the window that frames of a level of effort ask for; level zero stands for
three. -/
def windowLogAt (level : Int) : Nat :=
  if level = 0 then 21
  else if level ≤ 1 then 19
  else if level = 2 then 20
  else if level ≤ 8 then 21
  else if level ≤ 16 then 22
  else if level ≤ 19 then 23
  else if level = 20 then 25
  else if level = 21 then 26
  else 27

/-- A frame that holds a byte string as literals and matches. -/
def compact (level : Int) (bs : Bytes) : Bytes :=
  header (windowLogAt level) ++ Compact.blocks (probesAt level) bs

/-- A frame that expands to the given byte string: the compact one if it is right and smaller than
the stored one. -/
def compress (level : Int) (bs : Bytes) : Bytes :=
  let frame := compact level bs
  if frame.length < (store bs).length && expand frame == some bs then frame else store bs

end LayeredCache.Zstandard
