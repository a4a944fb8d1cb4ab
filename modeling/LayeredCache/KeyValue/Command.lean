import LayeredCache.Far.Request
import LayeredCache.Text.Utf8

/-!
# Commands of a key-value server

A request to the far tier becomes a command. Lifetimes are sent in whole milliseconds, and
a lifetime that is shorter is sent as one.

## Main definitions

* `KeyValue.Command` — the commands; `KeyValue.Command.words` — what is sent for them.
* `KeyValue.Command.ofRequest` — the command that a request becomes.
-/

set_option autoImplicit false

namespace LayeredCache.KeyValue

/-- A command of a key-value server. -/
inductive Command where
  /-- Writes an entry if the condition allows it; the lifetime is in milliseconds. -/
  | set (key : String) (data : Bytes) (lifetime : Option Nat) (condition : Condition)
  | get (key : String)
  | delete (keys : List String)
  | ping
  deriving DecidableEq, Repr

namespace Command

/-- The words that ask for a condition. -/
def conditionWords : Condition → List String
  | .always => []
  | .ifPresent => ["XX"]
  | .ifAbsent => ["NX"]

/-- The words that ask for a lifetime. -/
def lifetimeWords : Option Nat → List String
  | none => []
  | some n => ["PX", toString n]

/-- What is sent for a command. -/
def words : Command → List Bytes
  | .set key data lifetime condition =>
    [Utf8.encode "SET", Utf8.encode key, data] ++
      (lifetimeWords lifetime ++ conditionWords condition).map Utf8.encode
  | .get key => [Utf8.encode "GET", Utf8.encode key]
  | .delete keys => Utf8.encode "DEL" :: keys.map Utf8.encode
  | .ping => [Utf8.encode "PING"]

/-- The lifetime that is sent, in milliseconds that a 64-bit word holds; an entry without an end has
none. -/
def lifetime (ttl : Span) : Option Nat :=
  if ttl = 0 then none else some (max 1 (ttl / Span.milliseconds 1) % 0x10000000000000000)

/-- The command that a request becomes. -/
def ofRequest : Far.Request → Command
  | .write condition key data ttl => .set key data (lifetime ttl) condition
  | .get key => .get key
  | .delete keys => .delete keys
  | .ping => .ping

end Command

end LayeredCache.KeyValue
