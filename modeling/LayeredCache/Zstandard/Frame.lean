import LayeredCache.Zstandard.Checksum
import LayeredCache.Zstandard.Sequences

/-!
# zstd frames

Compressed data is a series of frames. A frame has a header, blocks, and possibly a checksum of
what they produce; frames of another kind hold application data and are skipped. A block stores its
bytes, repeats one byte, or is compressed; a compressed block may also copy what its frame has
produced before.

## Main definitions

* `Zstandard.FrameHeader` — what a header says; `FrameHeader.read` reads it.
* `Zstandard.Frame.blocks` — what the blocks of a frame produce.
* `Zstandard.expand` — the content of a series of frames.

## Implementation notes

The layers above the block are lists of bytes; within a compressed block, streams and output are
arrays. Frames that need a dictionary are refused.

A frame that announces a content of at most `portion` bytes is carried out in one place of that
size; then only its compressed blocks are limited by the window, and it has to produce exactly what
it announces. Any other frame passes through a buffer for its window, which must not be larger than
`windowLimit`. Then every block is limited by the window; a block that is written with no bytes
produces none, and after such a block the announced size is not checked.
-/

set_option autoImplicit false

namespace LayeredCache.Zstandard

/-- The bytes that a frame starts with. -/
def magic : Bytes := [0x28, 0xb5, 0x2f, 0xfd]

/-- How large a window may be that output has to pass through. -/
def windowLimit : Nat := 0x8000000 + 1

/-- How many bytes of output are handed on at a time. -/
def portion : Nat := 8192

/-- What the header of a frame says. -/
structure FrameHeader where
  /-- How far back a block may refer. -/
  window : Nat
  /-- How many bytes the frame is to produce, if it says so. -/
  contentSize : Option Nat
  /-- Whether a checksum follows the blocks. -/
  checked : Bool
  deriving DecidableEq, Repr

namespace FrameHeader

/-- How many bytes a block may take, and how many it may produce. -/
def blockLimit (h : FrameHeader) : Nat := min h.window Zstandard.blockLimit

/-- Whether the frame is carried out in one place that is as large as its content. -/
def isWhole (h : FrameHeader) : Bool := h.contentSize.any (· ≤ portion)

/-- How many bytes the buffer has that a frame passes through: room for the window, for two blocks
and for what is copied in excess; or for the content, if that is less. -/
def bufferSize (h : FrameHeader) : Nat :=
  let needed := max h.window 1024 + 2 * h.blockLimit + 64
  (h.contentSize.map (min needed)).getD needed

/-- Whether the buffer is smaller than the content, so that it is filled again and again. -/
def isLapped (h : FrameHeader) : Bool := !h.isWhole && h.contentSize.all (h.bufferSize < ·)

/-- How many bytes the frame may have produced after a block that started after `produced`. -/
def outputLimit (h : FrameHeader) (produced : Nat) : Nat :=
  if h.isWhole then h.contentSize.getD 0
  else if h.isLapped then produced + h.blockLimit
  else min (produced + h.blockLimit) h.bufferSize

/-- The window that a descriptor byte stands for: a power of two and some eighths of it. It has at
most 31 bits before the eighths. -/
def windowOf (b : UInt8) : Option Nat :=
  let log := 10 + b.toNat / 8
  let base := Nat.pow 2 log
  if 31 < log then none else some (base + base / 8 * (b.toNat % 8))

/-- How many bytes the content size takes. -/
def sizeWidth (flag : Nat) (single : Bool) : Nat :=
  match flag with
  | 0 => if single then 1 else 0
  | 1 => 2
  | 2 => 4
  | _ => 8

/-- Reads the window descriptor, unless the frame is a single segment. -/
def window? (single : Bool) (bs : Bytes) : Option (Option Nat × Bytes) :=
  if single then some (none, bs)
  else
    match bs with
    | [] => none
    | b :: bs => (windowOf b).map fun window => (some window, bs)

/-- The content size that a number stands for: nothing for the greatest one of eight bytes. -/
def contentSizeOf (width size : Nat) : Option Nat :=
  if width = 0 || size = 0xffffffffffffffff then none else some size

/-- Reads the header after the magic bytes. -/
def read : Bytes → Option (FrameHeader × Bytes)
  | [] => none
  | descriptor :: bs =>
    let d := descriptor.toNat
    let single := d / 32 % 2 == 1
    if d / 8 % 2 = 1 then none
    else
      match window? single bs with
      | none => none
      | some (window, bs) =>
        match Bytes.split? ([0, 1, 2, 4][d % 4]?.getD 0) bs with
        | none => none
        | some (dictionary, bs) =>
          let width := sizeWidth (d / 64) single
          match Bytes.split? width bs with
          | none => none
          | some (size, bs) =>
            let size := Bytes.ofLittleEndian size + (if width = 2 then 256 else 0)
            let h : FrameHeader := ⟨window.getD size, contentSizeOf width size, d / 4 % 2 == 1⟩
            if Bytes.ofLittleEndian dictionary ≠ 0 || (!h.isWhole && windowLimit < h.window) then
              none
            else some (h, bs)

end FrameHeader

/-! ## Blocks -/

/-- What the blocks of a frame so far leave to the next one. -/
structure BlockState where
  /-- All that the frame has produced. -/
  output : Array UInt8
  lap : Lap
  code : Option CodeTable
  tables : Tables
  recent : Recent

/-- The state before the first block. -/
def BlockState.initial : BlockState := ⟨#[], Lap.first, none, Tables.none, Recent.initial⟩

namespace Frame

/-- What the header of a block says. -/
structure BlockHeader where
  isLast : Bool
  kind : Nat
  /-- How many bytes the block produces if it repeats a byte, and otherwise how many it takes. -/
  size : Nat
  deriving DecidableEq, Repr

/-- Reads the three bytes of a block's header. -/
def blockHeader? (bs : Bytes) : Option (BlockHeader × Bytes) :=
  (Bytes.split? 3 bs).map fun (header, bs) =>
    let n := Bytes.ofLittleEndian header
    (⟨n % 2 == 1, n / 2 % 4, n / 8⟩, bs)

/-- Whether a block is passed over: it is written with no bytes, in a frame that is not whole. -/
def BlockHeader.isEmpty (b : BlockHeader) (h : FrameHeader) : Bool :=
  b.size = 0 && (b.kind = 0 || b.kind = 2) && !h.isWhole

/-- Carries out a compressed block. -/
def compressedBlock (h : FrameHeader) (st : BlockState) (bs : Bytes) : Option BlockState :=
  match Literals.read h.blockLimit st.code bs with
  | none => none
  | some (literals, code, bs) =>
    (Sequences.run (h.outputLimit st.output.size) st.lap literals st.tables st.recent st.output
      bs).map fun (p, tables) => ⟨p.output, st.lap, code, tables, p.recent⟩

/-- Carries out a block; the result holds the bytes after it. -/
def block (h : FrameHeader) (b : BlockHeader) (st : BlockState) (bs : Bytes) :
    Option (BlockState × Bytes) :=
  let fits := st.output.size + b.size ≤ h.outputLimit st.output.size
  match b.kind with
  | 0 =>
    if fits then
      (Bytes.split? b.size bs).map fun (content, rest) =>
        ({ st with output := st.output ++ content.toArray }, rest)
    else none
  | 1 =>
    match bs with
    | [] => none
    | byte :: rest =>
      if fits then some ({ st with output := st.output ++ Array.replicate b.size byte }, rest)
      else none
  | 2 =>
    if h.blockLimit < b.size then none
    else
      match Bytes.split? b.size bs with
      | none => none
      | some (content, rest) => (compressedBlock h st content).map (·, rest)
  | _ => none

/-- Starts the next lap when the buffer may be too small for another block. -/
def BlockState.turn (h : FrameHeader) (st : BlockState) : BlockState :=
  if h.isLapped && h.bufferSize < st.output.size - st.lap.start + h.blockLimit then
    { st with lap := st.lap.next st.output.size }
  else st

/-- Carries out blocks up to the one that is marked as the last. The result says whether the frame
still has to be compared with its announced size. Every block takes at least the three bytes of its
header, so the number of bytes bounds the number of blocks. -/
def blocks (h : FrameHeader) :
    (fuel : Nat) → BlockState → Bytes → Option (Array UInt8 × Bool × Bytes)
  | 0, _, _ => none
  | fuel + 1, st, bs =>
    match blockHeader? bs with
    | none => none
    | some (b, bs) =>
      match (if b.isEmpty h then some (st, bs) else block h b st bs) with
      | none => none
      | some (st, bs) =>
        if b.isLast then some (st.output, !b.isEmpty h, bs)
        else blocks h fuel (BlockState.turn h st) bs

/-- Compares the content with the checksum that follows it, if there is one. -/
def verified? (checked : Bool) (content bs : Bytes) : Option Bytes :=
  if checked then
    match Bytes.split? 4 bs with
    | none => none
    | some (sum, bs) => if Bytes.ofLittleEndian sum = checksum content then some bs else none
  else some bs

/-- The content of the frame whose header follows, and the bytes after the frame. -/
def content? (bs : Bytes) : Option (Bytes × Bytes) :=
  match FrameHeader.read bs with
  | none => none
  | some (h, bs) =>
    match blocks h bs.length BlockState.initial bs with
    | none => none
    | some (output, sized, bs) =>
      let content := output.toList
      if sized && h.contentSize.any (· != content.length) then none
      else (verified? h.checked content bs).map fun rest => (content, rest)

/-- Whether four bytes start a frame that is to be skipped. -/
def isSkippable (start : Bytes) : Bool :=
  match start with
  | [a, 0x2a, 0x4d, 0x18] => a &&& 0xf0 == 0x50
  | _ => false

/-- The content of the first frame of a series, and the bytes after it; nothing for a frame that
is skipped. -/
def first? (bs : Bytes) : Option (Bytes × Bytes) :=
  match Bytes.split? 4 bs with
  | none => none
  | some (start, bs) =>
    if start = magic then content? bs
    else if isSkippable start then
      match Bytes.split? 4 bs with
      | none => none
      | some (size, bs) =>
        (Bytes.split? (Bytes.ofLittleEndian size) bs).map fun (_, rest) => ([], rest)
    else none

/-- The contents of a series of frames. Every frame takes at least four bytes, so the number of
bytes bounds the number of frames. -/
def all? : (fuel : Nat) → Bytes → Option Bytes
  | 0, _ => none
  | fuel + 1, bs =>
    match first? bs with
    | none => none
    | some (content, []) => some content
    | some (content, rest) => (all? fuel rest).map (content ++ ·)

end Frame

/-- The content of a series of at least one frame. -/
def expand (bs : Bytes) : Option Bytes := Frame.all? (bs.length + 1) bs

end LayeredCache.Zstandard
