import LayeredCache.Bytes

/-!
# UTF-8

Text is stored as UTF-8. Reading bytes back as text either gives the text or says where and how
the bytes stop being valid: a reader of the message learns how long the valid beginning is and
whether the next character is malformed or merely cut off.

## Main definitions

* `Utf8.encode`, `Utf8.decode` — text to bytes and back.
* `Utf8.mend` — the text of any byte string, with a mark where it cannot be read.
* `Utf8.Fault` — where and how a byte string stops being UTF-8.
* `Utf8.fault?` — the first fault of a byte string.

## Implementation notes

`decode` accepts by the standard library's validity test, so that encoding and decoding are
inverse by its lemmas; `fault?` is consulted only for the position in the message.
-/

set_option autoImplicit false

namespace LayeredCache.Utf8

/-- The first place where a byte string stops being UTF-8. -/
structure Fault where
  /-- The length of the longest valid beginning. -/
  validLength : Nat
  /-- How many bytes cannot be continued; nothing when the input ends inside a character. -/
  badLength : Option Nat
  deriving DecidableEq, Repr

/-- The text of a fault. -/
def Fault.message (f : Fault) : String :=
  match f.badLength with
  | some n => s!"invalid utf-8 sequence of {n} bytes from index {f.validLength}"
  | none => s!"incomplete utf-8 byte sequence from index {f.validLength}"

/-- Whether a byte continues a character. -/
def isContinuation (b : UInt8) : Bool := 0x80 ≤ b && b ≤ 0xbf

/-- Whether `b` may follow the first byte of a three-byte character: overlong forms and
surrogates are excluded by the second byte. -/
def secondOfThree (first b : UInt8) : Bool :=
  if first == 0xe0 then 0xa0 ≤ b && b ≤ 0xbf
  else if first == 0xed then 0x80 ≤ b && b ≤ 0x9f
  else isContinuation b

/-- Whether `b` may follow the first byte of a four-byte character: overlong forms and numbers
above the last code point are excluded by the second byte. -/
def secondOfFour (first b : UInt8) : Bool :=
  if first == 0xf0 then 0x90 ≤ b && b ≤ 0xbf
  else if first == 0xf4 then 0x80 ≤ b && b ≤ 0x8f
  else isContinuation b

/-- The first fault of a byte string of which `position` valid bytes were read already. -/
def fault? (position : Nat) : Bytes → Option Fault
  | [] => none
  | first :: rest =>
    if first < 0x80 then fault? (position + 1) rest
    else if 0xc2 ≤ first && first ≤ 0xdf then
      match rest with
      | [] => some ⟨position, none⟩
      | b :: rest =>
        if isContinuation b then fault? (position + 2) rest else some ⟨position, some 1⟩
    else if 0xe0 ≤ first && first ≤ 0xef then
      match rest with
      | [] => some ⟨position, none⟩
      | b :: rest =>
        if !secondOfThree first b then some ⟨position, some 1⟩
        else match rest with
          | [] => some ⟨position, none⟩
          | c :: rest =>
            if isContinuation c then fault? (position + 3) rest else some ⟨position, some 2⟩
    else if 0xf0 ≤ first && first ≤ 0xf4 then
      match rest with
      | [] => some ⟨position, none⟩
      | b :: rest =>
        if !secondOfFour first b then some ⟨position, some 1⟩
        else match rest with
          | [] => some ⟨position, none⟩
          | c :: rest =>
            if !isContinuation c then some ⟨position, some 2⟩
            else match rest with
              | [] => some ⟨position, none⟩
              | d :: rest =>
                if isContinuation d then fault? (position + 4) rest else some ⟨position, some 3⟩
    else some ⟨position, some 1⟩

/-- The bytes of a text. -/
def encode (s : String) : Bytes := s.toUTF8.data.toList

/-- The text that a byte string encodes, if it is UTF-8. -/
def text? (bs : Bytes) : Option String := String.fromUTF8? ⟨bs.toArray⟩

/-- The text that a byte string encodes, or the place where it stops being UTF-8. -/
def decode (bs : Bytes) : Except Fault String :=
  match text? bs with
  | some s => .ok s
  | none => .error ((fault? 0 bs).getD ⟨0, none⟩)

/-- The pieces of a byte string that are UTF-8, with a replacement character for each part that
cannot be continued. A fault takes at least one byte, so the number of bytes bounds the pieces. -/
def mendedPieces : (fuel : Nat) → Bytes → List String
  | 0, _ => []
  | fuel + 1, bs =>
    match fault? 0 bs with
    | none => [(text? bs).getD ""]
    | some f =>
      let rest := match f.badLength with
        | none => []
        | some n => mendedPieces fuel (bs.drop (f.validLength + n))
      (text? (bs.take f.validLength)).getD "" :: "\ufffd" :: rest

/-- The text that a byte string encodes, with a replacement character for each part that is not
UTF-8. -/
def mend (bs : Bytes) : String := String.join (mendedPieces (bs.length + 1) bs)

end LayeredCache.Utf8
