import LayeredCache.Counters
import LayeredCache.Far.Request
import LayeredCache.Native

/-!
# Programs over two tiers

An operation of the cache is a program: a tree of requests to the tiers, to the counters, to the
loader and to the table of shared runs, each followed by a program for every answer. A program
says which requests an operation makes in which order and decides nothing about their answers, so
the same program runs alone, in turns with others, and against any far tier.

## Main definitions

* `Prog` — programs that end with an `α`.
* `Setup` — what a program knows of its cache: which tiers there are, and the stored form.
* `Setup.get`, `Setup.set`, `Setup.has`, `Setup.delete`, `Setup.ping` — the plain operations.
* `Setup.take`, `Setup.once`, `Setup.load` — get or compute, without and with shared runs.

## Implementation notes

A program that reads a value ends with `some v` when the caller's destination is to be set to `v`
and with `none` when it is to be left alone. Running the loader takes two requests, one that
starts it and one that waits for what it gives, because a caller may be suspended in between.
-/

set_option autoImplicit false

namespace LayeredCache

/-- The outcome of a shared run: the stored form of the value, or why there is none. -/
abbrev Outcome := Except Failure Bytes

/-- A program that ends with an `α`. -/
inductive Prog (α : Type) : Type where
  | done (result : α)
  /-- Looks a key up in the near tier. -/
  | find (key : String) (next : Option Content → Prog α)
  /-- Asks whether the near tier serves a key. -/
  | holds (key : String) (next : Bool → Prog α)
  /-- Writes into the near tier. -/
  | put (key : String) (content : Content) (ttl : Span) (next : Prog α)
  /-- Removes a key from the near tier. -/
  | drop (key : String) (next : Prog α)
  /-- Sends a request to the far tier. -/
  | call (request : Far.Request) (next : Except Failure request.Reply → Prog α)
  /-- Counts a far look-up. -/
  | tally (found : Bool) (next : Prog α)
  /-- Counts an event. -/
  | count (event : Event) (next : Prog α)
  /-- Starts the loader. -/
  | startLoad (next : Prog α)
  /-- Waits for what the loader gives. -/
  | awaitLoad (next : Except LoadFailure Value → Prog α)
  /-- Joins the shared run of a key: waits for its outcome, or is to run and gets nothing. -/
  | join (key : String) (next : Option Outcome → Prog α)
  /-- Ends the shared run that was joined with an outcome. -/
  | land (outcome : Outcome) (next : Prog α)

namespace Prog

variable {α β : Type}

/-- Goes on after a program with its result. -/
def bind (p : Prog α) (f : α → Prog β) : Prog β :=
  match p with
  | .done a => f a
  | .find key next => .find key fun c => (next c).bind f
  | .holds key next => .holds key fun b => (next b).bind f
  | .put key content ttl next => .put key content ttl (next.bind f)
  | .drop key next => .drop key (next.bind f)
  | .call request next => .call request fun r => (next r).bind f
  | .tally found next => .tally found (next.bind f)
  | .count event next => .count event (next.bind f)
  | .startLoad next => .startLoad (next.bind f)
  | .awaitLoad next => .awaitLoad fun v => (next v).bind f
  | .join key next => .join key fun o => (next o).bind f
  | .land outcome next => .land outcome (next.bind f)

instance : Monad Prog where
  pure := .done
  bind := bind

end Prog

/-! ## Single requests -/

/-- The name of the near tier in counters. -/
def nearLabel : String := "local"

/-- The name of the far tier in counters. -/
def farLabel : String := "remote"

/-- What a program knows of its cache. -/
structure Setup where
  near : Bool
  far : Bool
  envelope : Envelope := {}
  deriving DecidableEq, Repr

namespace Setup

/-- Whether there is a tier at all. -/
def hasTier (s : Setup) : Bool := s.near || s.far

/-- Whether a call uses the near tier. -/
def usesNear (s : Setup) (o : CallOptions) : Bool := s.near && !o.skip.covers .nearOnly

/-- Whether a call uses the far tier. -/
def usesFar (s : Setup) (o : CallOptions) : Bool := s.far && !o.skip.covers .farOnly

/-- Looks a key up in the near tier, if the call uses it, and counts the look-up. -/
def findNear (s : Setup) (key : String) (o : CallOptions) : Prog (Option Content) :=
  if s.usesNear o then
    .find key fun found =>
      .count (if found.isSome then .hit nearLabel else .miss nearLabel) (.done found)
  else .done none

/-- Writes into the near tier, if the call uses it. -/
def putNear (s : Setup) (key : String) (content : Content) (o : CallOptions) : Prog Unit :=
  if s.usesNear o then .put key content o.lifetime (.done ()) else .done ()

/-- Removes a key from the near tier, if there is one. -/
def dropNear (s : Setup) (key : String) : Prog Unit :=
  if s.near then .drop key (.done ()) else .done ()

/-! ## Look-ups -/

/-- Looks a key up in the far tier, if the call uses it, counts the look-up, and copies what is
found into the near tier. -/
def fetch (s : Setup) (key : String) (o : CallOptions) : Prog Outcome :=
  if s.usesFar o then
    .call (.get key) fun
      | .error f => .tally false (.count (.miss farLabel) (.done (.error f)))
      | .ok data => .tally true (.count (.hit farLabel) do
          s.putNear key (.stored data) o
          return .ok data)
  else .done (.error .missing)

/-- The value of a key at type `ty`, from the near tier or else from the far tier. -/
def lookup (s : Setup) (ty : Ty) (key : String) (o : CallOptions) :
    Prog (Except Failure (Option Value)) :=
  if o.skip.covers .all then .done (.error .missing)
  else if !s.hasTier then .done (.error .noTiers)
  else do
    match ← s.findNear key o with
    | some content => return content.read ty
    | none =>
      match ← s.fetch key o with
      | .error f => return .error f
      | .ok data => return (Content.stored data).read ty

/-! ## Writes and deletes -/

/-- What the near tier holds for a value. -/
def contentOf (ty : Ty) (v : Value) (data : Bytes) (o : CallOptions) : Content :=
  if o.raw then .native (.of ty v) else .stored data

/-- Writes a value and its stored form into the tiers that the call uses. When the far tier refuses
a conditional write, the near tier forgets the key, whatever the call skips. -/
def store (s : Setup) (ty : Ty) (key : String) (v : Value) (data : Bytes) (o : CallOptions) :
    Prog (Except Failure Unit) :=
  if o.skip.covers .all then .done (.ok ())
  else if !s.hasTier then .done (.error .noTiers)
  else do
    s.putNear key (contentOf ty v data o) o
    if s.usesFar o then
      .call (.write o.condition key data o.lifetime) fun
        | .error f => .done (.error f)
        | .ok applied =>
          if applied || o.condition == .always then .done (.ok ())
          else do
            s.dropNear key
            return .ok ()
    else return .ok ()

/-- Encodes a value and writes it. -/
def set (s : Setup) (ty : Ty) (key : String) (v : Value) (o : CallOptions) :
    Prog (Except Failure Unit) :=
  match s.envelope.encode ty v with
  | .error f => .done (.error (.envelope f))
  | .ok data => s.store ty key v data o

/-- Removes a key from the tiers that are not skipped. -/
def deleteFrom (s : Setup) (key : String) (skip : Skip) : Prog (Except Failure Unit) := do
  if !skip.covers .nearOnly then s.dropNear key
  if s.far && !skip.covers .farOnly then
    .call (.delete [key]) fun
      | .error f => .done (.error f)
      | .ok _ => .done (.ok ())
  else return .ok ()

/-- Drops an entry that cannot be read, so that the next look-up loads it again. -/
def heal (s : Setup) (key : String) (o : CallOptions) : Prog (Except Failure Unit) :=
  .count .heal (s.deleteFrom key o.skip)

/-! ## The plain operations -/

/-- Reads a key at type `ty`. -/
def get (s : Setup) (ty : Ty) (key : String) (o : CallOptions) :
    Prog (Except Failure (Option Value)) :=
  s.lookup ty key o

/-- Whether a key would be found. -/
def has (s : Setup) (key : String) (o : CallOptions) : Prog Bool :=
  if o.skip.covers .all || !s.hasTier then .done false
  else do
    let near ← if s.usesNear o then .holds key .done else .done false
    if near then return true
    else
      match ← s.fetch key o with
      | .ok _ => return true
      | .error _ => return false

/-- Removes a key from both tiers. -/
def delete (s : Setup) (key : String) : Prog (Except Failure Unit) :=
  if s.hasTier then s.deleteFrom key .none else .done (.error .noTiers)

/-- Asks whether the far tier is there; without one there is nothing to ask. -/
def ping (s : Setup) : Prog (Except Failure Unit) :=
  if s.far then
    .call .ping fun
      | .error f => .done (.error f)
      | .ok _ => .done (.ok ())
  else .done (.ok ())

/-! ## Get or compute -/

variable {ρ : Type}

/-- Computes the value of an item: by its loader, or else from its plain value. -/
def produce (item : Item ρ) (mode : String) : Prog (Except Failure Value) :=
  .count (.load mode) <|
    match item.loader, item.value with
    | some _, _ => .startLoad (.awaitLoad fun
        | .ok v => .done (.ok v)
        | .error reason => .done (.error (.loader reason)))
    | none, some v => .done (.ok v)
    | none, none => .done (.error .missing)

/-- Computes the value of an item and writes it. -/
def compute (s : Setup) (ty : Ty) (item : Item ρ) : Prog (Except Failure (Option Value)) := do
  match ← produce item "take" with
  | .error f => return .error f
  | .ok v =>
    match ← s.set ty item.key v item.options with
    | .error f => return .error f
    | .ok _ => return .ok (some v)

/-- Reads a key, and computes it when it is missing. An entry that cannot be read is dropped once
and looked up again. -/
def take (s : Setup) (ty : Ty) (item : Item ρ) : Prog (Except Failure (Option Value)) := do
  match ← s.lookup ty item.key item.options with
  | .ok v => return .ok v
  | .error f =>
    if f.isMissing then s.compute ty item
    else if f.isCorruption then
      match ← s.heal item.key item.options with
      | .error f => return .error f
      | .ok _ =>
        match ← s.lookup ty item.key item.options with
        | .ok v => return .ok v
        | .error f => if f.isMissing then s.compute ty item else return .error f
    else return .error f

/-- Computes the value of an item inside a shared run, writes it and gives its stored form. -/
def computeStored (s : Setup) (ty : Ty) (item : Item ρ) : Prog Outcome := do
  match ← produce item "once" with
  | .error f => return .error f
  | .ok v =>
    match s.envelope.encode ty v with
    | .error f => return .error (.envelope f)
    | .ok data =>
      match ← s.store ty item.key v data item.options with
      | .error f => return .error f
      | .ok _ => return .ok data

/-- The body of a shared run: looks the key up again, since an earlier run may have just ended, and
computes it when it is missing or, after dropping the entry, when it cannot be read. -/
def flight (s : Setup) (ty : Ty) (item : Item ρ) : Prog Outcome := do
  match ← s.lookup ty item.key item.options with
  | .ok none => return .ok []
  | .ok (some v) =>
    match s.envelope.encode ty v with
    | .error f => return .error (.envelope f)
    | .ok data => return .ok data
  | .error f =>
    if f.isMissing then s.computeStored ty item
    else if f.isCorruption then
      match ← s.heal item.key item.options with
      | .error f => return .error f
      | .ok _ => s.computeStored ty item
    else return .error f

/-- What a caller makes of the outcome of a shared run. -/
def receive (ty : Ty) : Outcome → Except Failure (Option Value)
  | .error f => .error (.shared f)
  | .ok data => (Content.stored data).read ty

/-- Reads a key; when it is missing or cannot be read, joins the shared run that computes it. -/
def once (s : Setup) (ty : Ty) (item : Item ρ) : Prog (Except Failure (Option Value)) := do
  match ← s.lookup ty item.key item.options with
  | .ok v => return .ok v
  | .error f =>
    if f.isMissing || f.isCorruption then
      .join item.key fun
        | some outcome => .done (receive ty outcome)
        | none => do
          let outcome ← s.flight ty item
          .land outcome (.done (receive ty outcome))
    else return .error f

/-- Reads or computes, in a shared run when the item asks for one. -/
def load (s : Setup) (ty : Ty) (item : Item ρ) : Prog (Except Failure (Option Value)) :=
  if item.options.group then s.once ty item else s.take ty item

end Setup

end LayeredCache
