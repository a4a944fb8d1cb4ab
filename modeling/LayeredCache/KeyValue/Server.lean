import LayeredCache.Far.MemoryStore
import LayeredCache.KeyValue.Command
import LayeredCache.KeyValue.Reply

/-!
# Key-value servers

A server takes commands one after another. It may reply, say nothing, drop the connection or be out
of reach.

## Main definitions

* `KeyValue.Server` — a server whose states are the terms of `σ`.
* `KeyValue.Unreachable` — a server that no connection reaches.
* `KeyValue.Table` — a server that keeps its entries in memory.
-/

set_option autoImplicit false

namespace LayeredCache.KeyValue

/-- What comes of sending a command to a server. -/
inductive Exchange where
  | replied (reply : Reply)
  /-- There is no answer. -/
  | silent
  /-- The connection was dropped. -/
  | closed
  /-- There was no connection. -/
  | unreachable
  deriving DecidableEq, Repr

/-- A server that takes commands, each at an instant. -/
class Server (σ : Type) where
  exchange : σ → Instant → Command → Exchange × σ

/-- A server that no connection reaches. -/
structure Unreachable where
  deriving DecidableEq, Repr, Inhabited

instance : Server Unreachable where
  exchange s _ _ := (.unreachable, s)

open Far (Held)

/-- A server that keeps its entries in memory. -/
structure Table where
  entries : Std.HashMap String Held := ∅

namespace Table

/-- The entry under a key, if it is not expired. -/
def find? (t : Table) (now : Instant) (key : String) : Option Held :=
  (t.entries[key]?).filter fun h => !h.isExpired now

/-- The deadline of a lifetime in milliseconds. -/
def deadline (now : Instant) (lifetime : Option Nat) : Option Instant :=
  lifetime.map fun n => now + Span.milliseconds n

/-- Whether a lifetime is one that a server takes: a positive number below half of the range of a
64-bit word. -/
def takes (lifetime : Option Nat) : Bool := lifetime.all fun n => 0 < n && n < 0x8000000000000000

/-- Drops a key, and counts it if it was there. -/
def drop (now : Instant) (counted : Nat × Table) (key : String) : Nat × Table :=
  let (n, t) := counted
  (if (t.find? now key).isSome then n + 1 else n, ⟨t.entries.erase key⟩)

/-- The reply to a command. -/
def reply (t : Table) (now : Instant) : Command → Reply × Table
  | .set key data lifetime condition =>
    if !takes lifetime then (.error "ERR invalid expire time in 'set' command", t)
    else if Far.MemoryStore.allows condition (t.find? now key).isSome then
      (.status "OK", ⟨t.entries.insert key ⟨data, deadline now lifetime⟩⟩)
    else (.nil, t)
  | .get key =>
    match t.find? now key with
    | some h => (.bulk h.data, t)
    | none => (.nil, t)
  | .delete keys =>
    let (n, t) := keys.foldl (drop now) (0, t)
    (.integer n, t)
  | .ping => (.status "PONG", t)

end Table

instance : Server Table where
  exchange t now command :=
    let (reply, t) := t.reply now command
    (.replied reply, t)

end LayeredCache.KeyValue
