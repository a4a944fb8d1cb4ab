import LayeredCache.CallOptions
import LayeredCache.Failure

/-!
# Requests to the far tier

The cache speaks to its far tier by four kinds of requests, and each kind has its own kind of
reply. Any store that answers requests can be a far tier; a request may also be answered by a
failure.

## Main definitions

* `Far.Request` — the requests; `Far.Request.Reply` — what each is answered with.
* `FarStore` — a store whose states are the terms of `σ`.
-/

set_option autoImplicit false

namespace LayeredCache

namespace Far

/-- A request to the far tier; a lifetime of zero never ends. -/
inductive Request where
  /-- Writes an entry if the condition allows it. -/
  | write (condition : Condition) (key : String) (data : Bytes) (ttl : Span)
  | get (key : String)
  | delete (keys : List String)
  /-- Asks whether the tier is there. -/
  | ping
  deriving DecidableEq, Repr

/-- What a request is answered with when it does not fail. -/
@[reducible] def Request.Reply : Request → Type
  /- whether the write was applied -/
  | .write _ _ _ _ => Bool
  | .get _ => Bytes
  | .delete _ => Unit
  | .ping => Unit

/-- How a store answers a request: with a reply or a failure, or, when the clock cannot represent a
deadline, not at all. -/
inductive Answer (r : Request) where
  | reply (value : r.Reply)
  | failure (cause : Failure)
  | crash

end Far

/-- A store that answers requests, each at an instant. -/
class FarStore (σ : Type) where
  answer : σ → Instant → (r : Far.Request) → Far.Answer r × σ

end LayeredCache
