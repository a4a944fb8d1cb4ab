import LayeredCache.Value
import LayeredCache.Time
import LayeredCache.Text.Quoted

/-!
# Options of a call

Each call of the cache says how long what it writes shall live, which tiers it leaves alone, under
which condition the far tier accepts the write, whether the near tier holds the value itself, and
whether concurrent loads of the key share one run.

## Main definitions

* `Skip` — the tiers that a call leaves alone.
* `Condition` — when the far tier accepts a write.
* `CallOptions` — the options; `CallOptions.lifetime` — the lifetime that writes get.
* `Item` — what a get-or-compute call asks for.
-/

set_option autoImplicit false

namespace LayeredCache

/-! ## Tiers to leave alone -/

/-- The tiers that a call leaves alone. -/
structure Skip where
  near : Bool := false
  far : Bool := false
  deriving DecidableEq, Repr

namespace Skip

/-- No tier is skipped. -/
def none : Skip := ⟨false, false⟩

/-- The near tier is skipped. -/
def nearOnly : Skip := ⟨true, false⟩

/-- The far tier is skipped. -/
def farOnly : Skip := ⟨false, true⟩

/-- Both tiers are skipped. -/
def all : Skip := ⟨true, true⟩

/-- Whether any tier is skipped. -/
def any (s : Skip) : Bool := s.near || s.far

/-- Whether `s` skips every tier that `t` skips, and `t` skips one at all. -/
def covers (s t : Skip) : Bool := t.any && (!t.near || s.near) && (!t.far || s.far)

/-- The tiers that either of two settings skips. -/
def union (s t : Skip) : Skip := ⟨s.near || t.near, s.far || t.far⟩

/-- The number of a setting: one for the near tier and two for the far tier. -/
def number (s : Skip) : Nat := s.near.toNat + 2 * s.far.toNat

/-- A setting as text. -/
def text (s : Skip) : String := s!"SkipMode({s.number})"

end Skip

/-! ## Conditional writes -/

/-- When the far tier accepts a write. -/
inductive Condition where
  | always
  /-- Only over an entry that exists. -/
  | ifPresent
  /-- Only where there is no entry. -/
  | ifAbsent
  deriving DecidableEq, Repr

/-- A condition as text. -/
def Condition.text : Condition → String
  | .always => "Always"
  | .ifPresent => "IfExists"
  | .ifAbsent => "IfAbsent"

/-! ## Options -/

/-- The options of one call. -/
structure CallOptions where
  ttl : Span := 0
  condition : Condition := .always
  skip : Skip := .none
  /-- The near tier holds the value itself. -/
  raw : Bool := false
  /-- Concurrent loads of the key share one run. -/
  group : Bool := false
  deriving DecidableEq, Repr

namespace CallOptions

/-- The lifetime that replaces a positive one below a second. -/
def substituteLifetime : Span := Span.seconds 3600

/-- The lifetime that writes get: none stays none, and a positive one below a second is replaced
by an hour. -/
def lifetime (o : CallOptions) : Span :=
  if o.ttl = 0 ∨ Span.seconds 1 ≤ o.ttl then o.ttl else substituteLifetime

/-- Options as text. -/
def text (o : CallOptions) : String :=
  s!"Options \x7b ttl: {Span.text o.ttl}, condition: {o.condition.text}, skip: {o.skip.text}, " ++
    s!"raw: {o.raw}, group: {o.group} \x7d"

end CallOptions

/-- What a get-or-compute call asks for: a key, a value to use when there is no loader, and a
loader, which is named by a term of `ρ`. -/
structure Item (ρ : Type) where
  key : String
  value : Option Value := none
  loader : Option ρ := none
  options : CallOptions := {}

/-- An item as text. -/
def Item.text {ρ : Type} (item : Item ρ) : String :=
  s!"Item \x7b key: {Text.quote item.key}, has_value: {item.value.isSome}, " ++
    s!"has_loader: {item.loader.isSome}, options: {item.options.text} \x7d"

end LayeredCache
