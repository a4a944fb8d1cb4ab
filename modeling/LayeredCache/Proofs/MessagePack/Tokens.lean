import LayeredCache.MessagePack.Token
import LayeredCache.Proofs.Bytes

/-!
# Tokens that are written are read

Every head is read as what it was written for, at all boundaries between the widths of numbers and
of lengths, and so are the bytes that belong to it; what follows is left for the next token.

## Main definitions

* `MessagePack.lengthLimit` — the first length that no head can hold.

## Main results

* `MessagePack.Token.read_writeUnsigned`, `MessagePack.Token.read_writeInt` — numbers.
* `MessagePack.Token.read_text`, `MessagePack.Token.read_binary` — texts and byte strings.
* `MessagePack.Token.read_arrayHead`, `MessagePack.Token.read_mapHead` — heads of containers.
-/

set_option autoImplicit false

namespace LayeredCache.MessagePack

/-- The first length that no head can hold. -/
def lengthLimit : Nat := 0x100000000

variable {n width : Nat} (rest : Bytes)

/-! ## Numbers of a fixed width -/

/-- A number that fits its width. -/
lemma number?_append (h : n < Nat.pow 256 width) :
    number? width (Bytes.toBigEndian width n ++ rest) = some (n, rest) := by
  rw [number?, Bytes.split?_append (Bytes.length_toBigEndian width n), Option.map_some]
  dsimp only
  rw [Bytes.ofBigEndian_toBigEndian h]

/-- A byte string after its length. -/
lemma counted?_append {bytes : Bytes} (h : bytes.length < Nat.pow 256 width) :
    counted? width (Bytes.toBigEndian width bytes.length ++ (bytes ++ rest)) =
      some (bytes, rest) := by
  rw [counted?, number?_append _ h]
  exact Bytes.split?_append rfl rest

/-- A negative number that fits its width, in two's complement. -/
lemma signed?_append {i : Int} {half : Nat} (hhalf : Nat.pow 2 (8 * width - 1) = half)
    (hwhole : Nat.pow 2 (8 * width) = 2 * half) (hpow : Nat.pow 256 width = 2 * half)
    (hlow : -(half : Int) ≤ i) (hneg : i < 0) :
    signed? width (twosComplement width i ++ rest) = some (i, rest) := by
  have hmod : i % ((2 * half : Nat) : Int) = i + (2 * half : Nat) := by
    rw [← Int.add_emod_right]
    exact Int.emod_eq_of_lt (by omega) (by omega)
  have hfits : (i % ((2 * half : Nat) : Int)).toNat < Nat.pow 256 width := by
    rw [hmod, hpow]
    omega
  rw [signed?, twosComplement, hwhole, number?_append _ hfits, Option.map_some]
  dsimp only
  rw [hhalf, hmod, if_neg (by omega)]
  congr 2
  omega

namespace Token

/-! ## Heads that hold a number -/

/-- The number in a head. -/
lemma toNat_head (base : Nat) {room : Nat} (h : n < room) (hroom : base + room ≤ 256) :
    (UInt8.ofNat (base + n)).toNat = base + n :=
  UInt8.toNat_ofNat_of_lt' (Nat.lt_of_lt_of_le (Nat.add_lt_add_left h base) hroom)

/-- A number below 128 is its own head. -/
lemma read_fixnum (h : n < 0x80) :
    Token.read (UInt8.ofNat n :: rest) = some (.unsigned n, rest) := by
  have hn : (UInt8.ofNat n).toNat = n := UInt8.toNat_ofNat_of_lt' (Nat.lt_trans h (by decide))
  simp only [Token.read, hn, if_pos h]

/-- A short map. -/
lemma read_fixmap (h : n < 16) :
    Token.read (UInt8.ofNat (0x80 + n) :: rest) = some (.map n, rest) := by
  simp only [Token.read, toNat_head 0x80 h (by decide)]
  rw [if_neg (by omega), if_pos (by omega), Nat.add_sub_cancel_left]

/-- A short sequence. -/
lemma read_fixarray (h : n < 16) :
    Token.read (UInt8.ofNat (0x90 + n) :: rest) = some (.array n true, rest) := by
  simp only [Token.read, toNat_head 0x90 h (by decide)]
  rw [if_neg (by omega), if_neg (by omega), if_pos (by omega), Nat.add_sub_cancel_left]

/-- A short text. -/
lemma read_fixtext {bytes : Bytes} (h : bytes.length < 32) :
    Token.read (UInt8.ofNat (0xa0 + bytes.length) :: (bytes ++ rest)) =
      some (.text bytes, rest) := by
  simp only [Token.read, toNat_head 0xa0 h (by decide)]
  rw [if_neg (by omega), if_neg (by omega), if_neg (by omega), if_pos (by omega),
    Nat.add_sub_cancel_left, Bytes.split?_append rfl, Option.map_some]

/-! ## Heads before a number or a byte string -/

variable {head : UInt8}

/-- A head that a number follows. -/
lemma read_number (token : Nat → Token)
    (hhead : ∀ bs, Token.read (head :: bs) = (number? width bs).map fun (n, r) => (token n, r))
    (h : n < Nat.pow 256 width) :
    Token.read (head :: Bytes.toBigEndian width n ++ rest) = some (token n, rest) := by
  rw [List.cons_append, hhead, number?_append rest h, Option.map_some]

/-- A head that a byte string follows, after its length. -/
lemma read_counted (token : Bytes → Token) {bytes : Bytes}
    (hhead : ∀ bs, Token.read (head :: bs) = (counted? width bs).map fun (s, r) => (token s, r))
    (h : bytes.length < Nat.pow 256 width) :
    Token.read (head :: Bytes.toBigEndian width bytes.length ++ (bytes ++ rest)) =
      some (token bytes, rest) := by
  rw [List.cons_append, hhead, counted?_append rest h, Option.map_some]

/-! ## Numbers -/

/-- **A number that is not negative** is read under each of its heads. -/
theorem read_writeUnsigned (h : n < 0x10000000000000000) :
    Token.read (writeUnsigned n ++ rest) = some (.unsigned n, rest) := by
  unfold writeUnsigned
  split
  · exact read_fixnum rest ‹_›
  split
  · exact read_number rest .unsigned (fun _ => rfl) ‹_›
  split
  · exact read_number rest .unsigned (fun _ => rfl) ‹_›
  split
  · exact read_number rest .unsigned (fun _ => rfl) ‹_›
  · exact read_number rest .unsigned (fun _ => rfl) h

/-- A negative number of at least -32 is its own head. -/
lemma read_negativeFixnum {i : Int} (hlow : -32 ≤ i) (hneg : i < 0) :
    Token.read (twosComplement 1 i ++ rest) = some (.signed i, rest) := by
  have hmod : i % 256 = i + 256 := by
    rw [← Int.add_emod_right]
    exact Int.emod_eq_of_lt (by omega) (by omega)
  have hsize : (i + 256).toNat < 256 := by omega
  have hbyte : (UInt8.ofNat (i + 256).toNat).toNat = (i + 256).toNat :=
    UInt8.toNat_ofNat_of_lt' hsize
  have hdigits : twosComplement 1 i = [UInt8.ofNat (i % 256).toNat] := rfl
  rw [hdigits, hmod, List.singleton_append]
  simp only [Token.read, hbyte]
  rw [if_neg (by omega), if_neg (by omega), if_neg (by omega), if_neg (by omega),
    if_neg (by omega)]
  congr 3
  omega

/-- A negative number of more bytes. -/
lemma read_signed {i : Int} (half : Nat)
    (hhead : ∀ bs, Token.read (head :: bs) = (signed? width bs).map fun (i, r) => (.signed i, r))
    (hhalf : Nat.pow 2 (8 * width - 1) = half) (hwhole : Nat.pow 2 (8 * width) = 2 * half)
    (hpow : Nat.pow 256 width = 2 * half) (hlow : -(half : Int) ≤ i) (hneg : i < 0) :
    Token.read (head :: twosComplement width i ++ rest) = some (.signed i, rest) := by
  rw [List.cons_append, hhead, signed?_append rest hhalf hwhole hpow hlow hneg, Option.map_some]

/-- **An integer** of 64 bits, signed or not, is read under each of its heads. -/
theorem read_writeInt {i : Int} (hlow : -0x8000000000000000 ≤ i) (hhigh : i < 0x10000000000000000) :
    Token.read (writeInt i ++ rest) =
      some (if 0 ≤ i then .unsigned i.toNat else .signed i, rest) := by
  unfold writeInt
  split
  · exact read_writeUnsigned rest (by omega)
  have hneg : i < 0 := Int.not_le.mp ‹_›
  split
  · exact read_negativeFixnum rest ‹_› hneg
  split
  · exact read_signed rest 0x80 (fun _ => rfl) rfl rfl rfl ‹_› hneg
  split
  · exact read_signed rest 0x8000 (fun _ => rfl) rfl rfl rfl ‹_› hneg
  split
  · exact read_signed rest 0x80000000 (fun _ => rfl) rfl rfl rfl ‹_› hneg
  · exact read_signed rest 0x8000000000000000 (fun _ => rfl) rfl rfl rfl hlow hneg

/-- A float of 32 bits. -/
lemma read_float32 (bits : UInt32) :
    Token.read (0xca :: Bytes.toBigEndian 4 bits.toNat ++ rest) = some (.float32 bits, rest) := by
  have hread : Token.read (0xca :: Bytes.toBigEndian 4 bits.toNat ++ rest) =
      some (.float32 (UInt32.ofNat bits.toNat), rest) :=
    read_number rest (fun n => .float32 (UInt32.ofNat n)) (fun _ => rfl) bits.toNat_lt
  rwa [UInt32.ofNat_toNat] at hread

/-- A float of 64 bits. -/
lemma read_float64 (bits : UInt64) :
    Token.read (0xcb :: Bytes.toBigEndian 8 bits.toNat ++ rest) = some (.float64 bits, rest) := by
  have hread : Token.read (0xcb :: Bytes.toBigEndian 8 bits.toNat ++ rest) =
      some (.float64 (UInt64.ofNat bits.toNat), rest) :=
    read_number rest (fun n => .float64 (UInt64.ofNat n)) (fun _ => rfl) bits.toNat_lt
  rwa [UInt64.ofNat_toNat] at hread

/-! ## Texts and byte strings -/

variable {bytes : Bytes}

/-- **A text** is read under each of its heads. -/
theorem read_text (h : bytes.length < lengthLimit) :
    Token.read (textHead bytes.length ++ bytes ++ rest) = some (.text bytes, rest) := by
  rw [List.append_assoc]
  unfold textHead
  split
  · exact read_fixtext rest ‹_›
  split
  · exact read_counted rest .text (fun _ => rfl) ‹_›
  split
  · exact read_counted rest .text (fun _ => rfl) ‹_›
  · exact read_counted rest .text (fun _ => rfl) h

/-- **A byte string** is read under each of its heads. -/
theorem read_binary (h : bytes.length < lengthLimit) :
    Token.read (binaryHead bytes.length ++ bytes ++ rest) = some (.binary bytes, rest) := by
  rw [List.append_assoc]
  unfold binaryHead
  split
  · exact read_counted rest .binary (fun _ => rfl) ‹_›
  split
  · exact read_counted rest .binary (fun _ => rfl) ‹_›
  · exact read_counted rest .binary (fun _ => rfl) h

/-! ## Heads of containers -/

/-- **The head of a sequence** is read as one, and as a short one below sixteen items. -/
theorem read_arrayHead (h : n < lengthLimit) :
    Token.read (arrayHead n ++ rest) = some (.array n (decide (n < 16)), rest) := by
  unfold arrayHead
  split
  · rw [decide_eq_true ‹_›]
    exact read_fixarray rest ‹_›
  rw [decide_eq_false ‹_›]
  split
  · exact read_number rest (.array · false) (fun _ => rfl) ‹_›
  · exact read_number rest (.array · false) (fun _ => rfl) h

/-- **The head of a map** is read as one. -/
theorem read_mapHead (h : n < lengthLimit) :
    Token.read (mapHead n ++ rest) = some (.map n, rest) := by
  unfold mapHead
  split
  · exact read_fixmap rest ‹_›
  split
  · exact read_number rest .map (fun _ => rfl) ‹_›
  · exact read_number rest .map (fun _ => rfl) h

end Token

end LayeredCache.MessagePack
