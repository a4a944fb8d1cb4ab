import LayeredCache.Proofs.KeyValue.SameAnswers

/-!
# The lifetime that a server is told

A client tells its server the lifetime of an entry in whole milliseconds, in a word of 64 bits. No
lifetime is not told, and one below a millisecond is told as one. A lifetime of `2 ^ 64`
milliseconds or more does not fit the word and is told as what is left of it there: the server then
drops the entry far too early, or refuses it when nothing is left.

## Main definitions

* `KeyValue.Sends` — the words that a client sends for a request.
* `KeyValue.ToldFor` — the lifetime that is told for a lifetime.

## Main results

* `KeyValue.toldFor_lifetime` — which lifetimes are told as they are, and what the others become.
* `KeyValue.lifetime_told` — what a client sends for a write.
* `KeyValue.lifetime_lost` — a lifetime of which nothing is left.
-/

set_option autoImplicit false

namespace LayeredCache.KeyValue

/-- The number of values of a word in which a lifetime is told. -/
def wordRange : Nat := 0x10000000000000000

/-- The whole milliseconds of a lifetime, at least one. -/
def wholeMilliseconds (ttl : Span) : Nat := max 1 (ttl / Span.milliseconds 1)

/-- A client sends some words for a request, and reads the reply of its server. -/
def Sends {σ : Type} [Server σ] (c : Client σ) (now : Instant) (request : Far.Request)
    (words : List Bytes) : Prop :=
  ∃ command : Command, command.words = words ∧
    FarStore.answer c now request =
      (Client.read c.limit request (Server.exchange c.server now command).1,
        { c with server := (Server.exchange c.server now command).2 })

/-- The number of milliseconds that is told for a lifetime. -/
structure ToldFor (ttl : Span) (told : Option Nat) : Prop where
  /-- Only no lifetime is not told. -/
  nothing : told = none ↔ ttl = 0
  /-- A lifetime is told as it is exactly if it is below `2 ^ 64` milliseconds. -/
  faithful : ttl ≠ 0 → (told = some (wholeMilliseconds ttl) ↔ ttl < Span.milliseconds wordRange)
  /-- Any other is told as a shorter one. -/
  shorter : Span.milliseconds wordRange ≤ ttl →
    ∃ n, told = some n ∧ n = wholeMilliseconds ttl % wordRange ∧ n < wholeMilliseconds ttl

/-- A lifetime is told as what a word holds of its milliseconds. -/
lemma lifetime_of_ne_zero {ttl : Span} (h : ttl ≠ 0) :
    Command.lifetime ttl = some (wholeMilliseconds ttl % wordRange) := if_neg h

/-- A lifetime fits a word exactly if it is below `2 ^ 64` milliseconds. -/
lemma wholeMilliseconds_lt_iff (ttl : Span) :
    wholeMilliseconds ttl < wordRange ↔ ttl < Span.milliseconds wordRange := by
  have hone : 1 < wordRange := by decide
  have hms : Span.milliseconds 1 = 1000000 := rfl
  unfold wholeMilliseconds
  rw [Nat.max_lt, and_iff_right hone, hms, Nat.div_lt_iff_lt_mul (by decide)]
  rfl

/-- **The lifetime that is told.**

**Proof sketch.** What a word holds of a number is this number exactly if it fits the word, and else
less. -/
lemma toldFor_lifetime (ttl : Span) : ToldFor ttl (Command.lifetime ttl) where
  nothing := by
    by_cases hzero : ttl = 0
    · rw [hzero]
      exact iff_of_true rfl rfl
    · rw [lifetime_of_ne_zero hzero]
      exact iff_of_false (Option.some_ne_none _) hzero
  faithful hzero := by
    rw [lifetime_of_ne_zero hzero, Option.some_inj, Nat.mod_eq_iff_lt (by decide),
      wholeMilliseconds_lt_iff]
  shorter hlong := by
    have hpos : 0 < Span.milliseconds wordRange := by decide
    have hzero : ttl ≠ 0 := Nat.ne_of_gt (Nat.lt_of_lt_of_le hpos hlong)
    have hover : wordRange ≤ wholeMilliseconds ttl := by
      rw [← Nat.not_lt, wholeMilliseconds_lt_iff, Nat.not_lt]
      exact hlong
    have hfits : wholeMilliseconds ttl % wordRange < wordRange := Nat.mod_lt _ (by decide)
    exact ⟨_, lifetime_of_ne_zero hzero, rfl, Nat.lt_of_lt_of_le hfits hover⟩

/-- **What a client sends for a write.** It is a `SET` of the data under the key, whose options ask
for the condition of the write and tell its lifetime. Only no lifetime is not told. Any other is
told in whole milliseconds, at least one, as long as it is below `2 ^ 64` of them, and as a shorter
one from there on.

**Proof sketch.** `toldFor_lifetime`, with `setOptions_sent` for the options. -/
theorem lifetime_told {σ : Type} [Server σ] (c : Client σ) (hconnections : 0 < c.connections)
    (now : Instant) (condition : Condition) (key : String) (data : Bytes) (ttl : Span) :
    ∃ options told,
      Sends c now (.write condition key data ttl)
        (Utf8.encode "SET" :: Utf8.encode key :: data :: options.map Utf8.encode) ∧
      SetOptions options told condition ∧ ToldFor ttl told := by
  refine ⟨_, _, ⟨.ofRequest (.write condition key data ttl), rfl, ?_⟩,
    setOptions_sent (Command.lifetime ttl) condition, toldFor_lifetime ttl⟩
  exact if_neg (Nat.ne_of_gt hconnections)

/-- The server in memory is told of a millisecond and a half as one, and that it writes only where
nothing is. -/
theorem lifetime_told_conditional :
    0 < (⟨{}, 0, 1⟩ : Client Table).connections ∧ 1500000 ≠ 0 ∧
      1500000 < Span.milliseconds wordRange ∧
      ∃ options,
        Sends (⟨{}, 0, 1⟩ : Client Table) 0 (.write .ifAbsent "k" [0x76] 1500000)
          (Utf8.encode "SET" :: Utf8.encode "k" :: [0x76] :: options.map Utf8.encode) ∧
        SetOptions options (some 1) .ifAbsent := by
  have hshort : 1500000 < Span.milliseconds wordRange := by decide
  obtain ⟨options, told, hsends, hoptions, htold⟩ :=
    lifetime_told (⟨{}, 0, 1⟩ : Client Table) Nat.one_pos 0 .ifAbsent "k" [0x76] 1500000
  obtain rfl := (htold.faithful (by decide)).mpr hshort
  exact ⟨Nat.one_pos, by decide, hshort, options, hsends, hoptions⟩

/-- **Nothing is left** of a lifetime of exactly `2 ^ 64` milliseconds, which a caller can name: the
server is told none, and not the number of its milliseconds. -/
theorem lifetime_lost :
    let ttl := Span.milliseconds 0x10000000000000000
    let words := (Command.ofRequest (.write .always "k" [0x76] ttl)).words
    ttl ≤ Span.seconds 0xffffffffffffffff + 999999999 ∧
      wholeMilliseconds ttl = 0x10000000000000000 ∧
      words = [Utf8.encode "SET", Utf8.encode "k", [0x76], Utf8.encode "PX", Utf8.encode "0"] ∧
      words ≠ [Utf8.encode "SET", Utf8.encode "k", [0x76], Utf8.encode "PX",
        Utf8.encode (toString (wholeMilliseconds ttl))] := by
  decide +kernel

end LayeredCache.KeyValue
