import LayeredCache.Zstandard.Lap
import LayeredCache.Zstandard.Literals

/-!
# The sequences of a compressed block

A sequence copies some literals and then a match: bytes that were produced before, at a distance
that is written out or repeats a recent one. The three numbers of a sequence are written as codes
with extra bits; the codes come from three finite-state tables that take turns on one stream.

## Main definitions

* `Zstandard.Tables` — the three tables, which later blocks may use again.
* `Zstandard.Recent` — the three recent distances.
* `Zstandard.Sequences.run` — reads the sequences of a block and carries them out.
-/

set_option autoImplicit false

namespace LayeredCache.Zstandard

/-! ## Codes -/

/-- The numbers that codes stand for: the number of a code is its base plus its extra bits. -/
structure CodeValues where
  bases : Array Nat
  extraBits : Array Nat

/-- The codes of literal counts. -/
def literalCodes : CodeValues where
  bases := #[0, 1, 2, 3, 4, 5, 6, 7, 8, 9, 10, 11, 12, 13, 14, 15, 16, 18, 20, 22, 24, 28, 32, 40,
    48, 64, 128, 256, 512, 1024, 2048, 4096, 8192, 16384, 32768, 65536]
  extraBits := #[0, 0, 0, 0, 0, 0, 0, 0, 0, 0, 0, 0, 0, 0, 0, 0, 1, 1, 1, 1, 2, 2, 3, 3,
    4, 6, 7, 8, 9, 10, 11, 12, 13, 14, 15, 16]

/-- The codes of match lengths. -/
def matchCodes : CodeValues where
  bases := #[3, 4, 5, 6, 7, 8, 9, 10, 11, 12, 13, 14, 15, 16, 17, 18, 19, 20, 21, 22, 23, 24, 25,
    26, 27, 28, 29, 30, 31, 32, 33, 34, 35, 37, 39, 41, 43, 47, 51, 59, 67, 83, 99, 131, 259, 515,
    1027, 2051, 4099, 8195, 16387, 32771, 65539]
  extraBits := #[0, 0, 0, 0, 0, 0, 0, 0, 0, 0, 0, 0, 0, 0, 0, 0, 0, 0, 0, 0, 0, 0, 0, 0, 0, 0, 0,
    0, 0, 0, 0, 0, 1, 1, 1, 1, 2, 2, 3, 3, 4, 4, 5, 7, 8, 9, 10, 11, 12, 13, 14, 15, 16]

/-- The number that a code stands for, with its extra bits taken from the stream. -/
def CodeValues.take (v : CodeValues) (code : Nat) (s : BackwardBits) : Nat × BackwardBits :=
  let (extra, s) := s.take (v.extraBits[code]?.getD 0)
  (v.bases[code]?.getD 0 + extra, s)

/-! ## Tables -/

/-- What is fixed about one of the three kinds of code. -/
structure CodeKind where
  /-- The greatest code. -/
  greatest : Nat
  /-- The logarithm of the greatest number of states. -/
  logLimit : Nat
  /-- The distribution that needs no description, over `2 ^ plainLog` states. -/
  plainLog : Nat
  plainShares : List Int

/-- Literal counts. -/
def literalKind : CodeKind where
  greatest := 35
  logLimit := 9
  plainLog := 6
  plainShares := [4, 3, 2, 2, 2, 2, 2, 2, 2, 2, 2, 2, 2, 1, 1, 1, 2, 2, 2, 2, 2, 2, 2, 2, 2, 3, 2,
    1, 1, 1, 1, 1, -1, -1, -1, -1]

/-- Distances. -/
def distanceKind : CodeKind where
  greatest := 31
  logLimit := 8
  plainLog := 5
  plainShares := [1, 1, 1, 1, 1, 1, 2, 2, 2, 1, 1, 1, 1, 1, 1, 1, 1, 1, 1, 1, 1, 1, 1, 1, -1, -1,
    -1, -1, -1]

/-- Match lengths. -/
def matchKind : CodeKind where
  greatest := 52
  logLimit := 9
  plainLog := 6
  plainShares := [1, 4, 3, 2, 2, 2, 2, 2, 2, 1, 1, 1, 1, 1, 1, 1, 1, 1, 1, 1, 1, 1, 1, 1, 1, 1, 1,
    1, 1, 1, 1, 1, 1, 1, 1, 1, 1, 1, 1, 1, 1, 1, 1, 1, 1, 1, -1, -1, -1, -1, -1, -1, -1]

/-- Reads a table in one of four modes: the plain one, a single code, a described one, or the one
that an earlier block used. -/
def CodeKind.table (k : CodeKind) (mode : Nat) (known : Option StateTable) (bs : Bytes) :
    Option (StateTable × Bytes) :=
  match mode with
  | 0 => some (StateTable.ofDistribution k.plainLog k.plainShares, bs)
  | 1 =>
    match bs with
    | [] => none
    | code :: bs => if k.greatest < code.toNat then none else some (.constant code.toNat, bs)
  | 2 =>
    match readDistribution k.logLimit (k.greatest + 1) bs.toArray with
    | none => none
    | some (log, shares, used) => some (StateTable.ofDistribution log shares, bs.drop used)
  | _ => known.map (·, bs)

/-- The tables that a block leaves to later ones. -/
structure Tables where
  literals : Option StateTable
  distances : Option StateTable
  lengths : Option StateTable

/-- No tables. -/
def Tables.none : Tables := ⟨Option.none, Option.none, Option.none⟩

/-! ## Distances -/

/-- The three most recent distances, the latest first. -/
structure Recent where
  first : Nat
  second : Nat
  third : Nat
  deriving DecidableEq, Repr

/-- The recent distances at the beginning of a frame. -/
def Recent.initial : Recent := ⟨1, 4, 8⟩

/-- The distance that a written number stands for. Numbers up to three choose a recent distance,
the next older one when the sequence has no literals; greater ones are three more than the
distance. -/
def Recent.resolve (r : Recent) (number literals : Nat) : Nat × Recent :=
  if 3 < number then (number - 3, ⟨number - 3, r.first, r.second⟩)
  else
    match (if literals = 0 then number else number - 1) with
    | 0 => (r.first, r)
    | 1 => (r.second, ⟨r.second, r.first, r.third⟩)
    | 2 => (r.third, ⟨r.third, r.first, r.second⟩)
    | _ => (r.first - 1, ⟨r.first - 1, r.first, r.second⟩)

/-! ## Carrying out -/

namespace Sequences

/-- The three tables and their states. -/
structure States where
  literalTable : StateTable
  distanceTable : StateTable
  lengthTable : StateTable
  literal : Nat
  distance : Nat
  length : Nat

/-- What the sequences of a block have done so far. -/
structure Progress where
  output : Array UInt8
  /-- How many literals were copied. -/
  used : Nat
  recent : Recent

/-- Reads the number of sequences. -/
def count? : Bytes → Option (Nat × Bytes)
  | [] => none
  | a :: bs =>
    if a < 128 then some (a.toNat, bs)
    else
      match bs with
      | [] => none
      | b :: bs =>
        if a < 255 then some ((a.toNat - 128) * 256 + b.toNat, bs)
        else
          match bs with
          | [] => none
          | c :: bs => some (b.toNat + 256 * c.toNat + 0x7f00, bs)

/-- Carries out one sequence: copies literals and then a match. -/
def step (lap : Lap) (literals : Array UInt8) (literalCount number length : Nat) (p : Progress) :
    Option Progress :=
  let (distance, recent) := p.recent.resolve number literalCount
  if literals.size < p.used + literalCount then none
  else
    let output := p.output ++ literals.extract p.used (p.used + literalCount)
    (lap.copy output distance length).map fun output =>
      ⟨output, p.used + literalCount, recent⟩

/-- Carries out `n` sequences, as long as the output does not grow beyond `limit` bytes. After each
sequence but the last the states move on. -/
def steps (limit : Nat) (lap : Lap) (literals : Array UInt8) (st : States) :
    (n : Nat) → BackwardBits → Progress → Option (BackwardBits × Progress)
  | 0, s, p => some (s, p)
  | n + 1, s, p =>
    let distanceCode := (st.distanceTable.entry st.distance).symbol
    let (extra, s) := s.take distanceCode
    let (length, s) := matchCodes.take (st.lengthTable.entry st.length).symbol s
    let (count, s) := literalCodes.take (st.literalTable.entry st.literal).symbol s
    if limit < p.output.size + count + length then none
    else
      match step lap literals count (Nat.pow 2 distanceCode + extra) length p with
      | none => none
      | some p =>
        if n = 0 then some (s, p)
        else
          let (literal, s) := st.literalTable.next st.literal s
          let (length, s) := st.lengthTable.next st.length s
          let (distance, s) := st.distanceTable.next st.distance s
          if s.overrun then none
          else steps limit lap literals { st with literal, length, distance } n s p

/-- Appends the literals after the last sequence. -/
def finish (limit : Nat) (literals : Array UInt8) (p : Progress) : Option Progress :=
  if limit < p.output.size + (literals.size - p.used) then none
  else some ⟨p.output ++ literals.extract p.used literals.size, literals.size, p.recent⟩

/-- Reads the sequences at the end of a block and carries them out on what the frame has produced
so far, which must not grow beyond `limit` bytes. The result also holds the tables for later
blocks. -/
def run (limit : Nat) (lap : Lap) (literals : Array UInt8) (known : Tables) (recent : Recent)
    (output : Array UInt8) (bs : Bytes) : Option (Progress × Tables) :=
  match count? bs with
  | none => none
  | some (0, rest) =>
    if rest.isEmpty then (finish limit literals ⟨output, 0, recent⟩).map (·, known) else none
  | some (_, []) => none
  | some (n, modes :: bs) =>
    if modes % 4 ≠ 0 then none
    else
      match literalKind.table (modes.toNat / 64) known.literals bs with
      | none => none
      | some (literalTable, bs) =>
        match distanceKind.table (modes.toNat / 16 % 4) known.distances bs with
        | none => none
        | some (distanceTable, bs) =>
          match matchKind.table (modes.toNat / 4 % 4) known.lengths bs with
          | none => none
          | some (lengthTable, bs) =>
            match BackwardBits.open? bs.toArray with
            | none => none
            | some s =>
              let (literal, s) := literalTable.start s
              let (distance, s) := distanceTable.start s
              let (length, s) := lengthTable.start s
              let st : States :=
                ⟨literalTable, distanceTable, lengthTable, literal, distance, length⟩
              match steps limit lap literals st n s ⟨output, 0, recent⟩ with
              | none => none
              | some (s, p) =>
                if s.isSpent then
                  (finish limit literals p).map
                    (·, ⟨some literalTable, some distanceTable, some lengthTable⟩)
                else none

end Sequences

end LayeredCache.Zstandard
