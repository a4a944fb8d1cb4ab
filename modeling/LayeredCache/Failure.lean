import LayeredCache.Directory
import LayeredCache.Envelope
import LayeredCache.Time

/-!
# Failures of cache operations

Every operation of the cache fails for one of these causes. That a key is absent is the most
common one and no sign of trouble, so it can be told apart from the rest; causes that mean "the
stored bytes are not a value of this type" can be told apart too, because an entry that has become
unreadable is dropped and loaded again. A failure that several callers of one load share stays
recognisable through the wrapper.

## Main definitions

* `Failure` — the causes; `Failure.message` — their texts.
* `Failure.isMissing` — the key is absent, and nothing else is wrong.
* `Failure.isCorruption` — an entry is there and cannot be read.
-/

set_option autoImplicit false

namespace LayeredCache

/-- Why a loader gave no value: a first cause inside any number of explanations. -/
inductive LoadFailure where
  | cause (text : String)
  | explained (explanation : String) (inner : LoadFailure)
  deriving DecidableEq, Repr

/-- The outermost explanation. -/
def LoadFailure.message : LoadFailure → String
  | .cause t => t
  | .explained t _ => t

/-- Why an operation of the cache failed. -/
inductive Failure where
  /-- The key is absent or expired. -/
  | missing
  /-- A native value is held that cannot be assigned to the wanted type. -/
  | mismatch (expected found : String)
  /-- The value cannot be stored, or what is stored cannot be read. -/
  | envelope (fault : Envelope.Fault)
  /-- The cache has neither tier. -/
  | noTiers
  /-- The far tier answered a request with an error. -/
  | farRefused
  /-- No connection to the far tier could be had. -/
  | noConnection
  /-- The address of the far tier is malformed. -/
  | badAddress
  /-- The far tier did not answer in time. -/
  | farTimeout (limit : Span)
  /-- The loader gave no value. -/
  | loader (reason : LoadFailure)
  /-- The outcome of a load that several callers wait for. -/
  | shared (inner : Failure)
  /-- The directory of caches refused. -/
  | directory (fault : Directory.Fault)
  deriving DecidableEq, Repr, Inhabited

namespace Failure

/-- The text of a failure. -/
def message : Failure → String
  | .missing => "cache: key is missing"
  | .mismatch expected found => "cache: cannot assign cached " ++ found ++ " to " ++ expected
  | .envelope f => f.message
  | .noTiers => "cache: neither a local nor a remote tier is configured"
  | .farRefused => "Redis error"
  | .noConnection => "Redis pool error"
  | .badAddress => "Failed to create Redis pool"
  | .farTimeout limit => "Remote tier did not answer within " ++ Span.text limit
  | .loader reason => "Loader failed: " ++ reason.message
  | .shared inner => inner.message
  | .directory f => f.message

/-- Whether the failure only says that the key is not cached. -/
def isMissing : Failure → Bool
  | .missing => true
  | .shared inner => inner.isMissing
  | _ => false

/-- Whether the failure says that an entry is there and is no value of the wanted type. -/
def isCorruption : Failure → Bool
  | .envelope _ => true
  | .mismatch _ _ => true
  | .shared inner => inner.isCorruption
  | _ => false

end Failure

end LayeredCache
