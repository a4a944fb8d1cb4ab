import LayeredCache.Far.Request
import Std.Data.HashMap

/-!
# A far tier in memory

Entries with an optional deadline. Expired entries read as absent, and every write first sweeps
them out.

## Main definitions

* `MemoryStore` — the entries by key.
* `MemoryStore.sweep`, `MemoryStore.live`, `MemoryStore.write`, `MemoryStore.get`,
  `MemoryStore.delete` — the operations.
* The instance of `FarStore`.
-/

set_option autoImplicit false

namespace LayeredCache.Far

/-- Bytes with the instant from which on they are expired, if there is one. -/
structure Held where
  data : Bytes
  deadline : Option Instant
  deriving DecidableEq, Repr

/-- Whether an entry is expired. -/
def Held.isExpired (h : Held) (now : Instant) : Bool := h.deadline.any fun instant => instant ≤ now

/-- Entries by key. -/
structure MemoryStore where
  entries : Std.HashMap String Held := ∅

namespace MemoryStore

/-- The number of entries, expired ones included. -/
def size (s : MemoryStore) : Nat := s.entries.size

/-- Whether there is no entry, expired ones included. -/
def isEmpty (s : MemoryStore) : Bool := s.entries.isEmpty

/-- Drops every expired entry. -/
def sweep (s : MemoryStore) (now : Instant) : MemoryStore :=
  ⟨s.entries.filter fun _ h => !h.isExpired now⟩

/-- The entry under a key, which is dropped if it is expired. -/
def live (s : MemoryStore) (now : Instant) (key : String) : Option Held × MemoryStore :=
  match s.entries[key]? with
  | none => (none, s)
  | some h => if h.isExpired now then (none, ⟨s.entries.erase key⟩) else (some h, s)

/-- Stores an entry, unless the clock cannot represent its deadline. -/
def put (s : MemoryStore) (now : Instant) (key : String) (data : Bytes) (ttl : Span) :
    Option MemoryStore :=
  if ttl = 0 then some ⟨s.entries.insert key ⟨data, none⟩⟩
  else (deadline? now ttl).map fun instant => ⟨s.entries.insert key ⟨data, some instant⟩⟩

/-- Whether a condition allows a write over what is there. -/
def allows (condition : Condition) (there : Bool) : Bool :=
  match condition with
  | .always => true
  | .ifPresent => there
  | .ifAbsent => !there

/-- Sweeps, and stores an entry if the condition allows it; tells whether it did. Nothing is told
when the clock cannot represent the deadline. -/
def write (s : MemoryStore) (now : Instant) (condition : Condition) (key : String) (data : Bytes)
    (ttl : Span) : Option Bool × MemoryStore :=
  let (there, s) := (s.sweep now).live now key
  if allows condition there.isSome then
    match s.put now key data ttl with
    | some s => (some true, s)
    | none => (none, s)
  else (some false, s)

/-- The bytes under a key. -/
def get (s : MemoryStore) (now : Instant) (key : String) : Option Bytes × MemoryStore :=
  let (there, s) := s.live now key
  (there.map (·.data), s)

/-- Drops several keys. -/
def delete (s : MemoryStore) (keys : List String) : MemoryStore :=
  ⟨keys.foldl (fun es key => es.erase key) s.entries⟩

/-- The time left to the entry under a key: nothing when there is no entry, and nothing inside when
it never expires. -/
def remaining (s : MemoryStore) (now : Instant) (key : String) : Option (Option Span) :=
  (s.entries[key]?).map fun h => h.deadline.map (· - now)

end MemoryStore

instance : FarStore MemoryStore where
  answer s now
    | .write condition key data ttl =>
      match s.write now condition key data ttl with
      | (some applied, s) => (.reply applied, s)
      | (none, s) => (.crash, s)
    | .get key =>
      match s.get now key with
      | (some data, s) => (.reply data, s)
      | (none, s) => (.failure .missing, s)
    | .delete keys => (.reply (), s.delete keys)
    | .ping => (.reply (), s)

end LayeredCache.Far
