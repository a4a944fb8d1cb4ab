import LayeredCache.Failure

/-!
# Outcomes of building

A cache and its parts are built from settings. That may be refused for a cause, and settings so
large that no memory could hold what they ask for end the program.

## Main definitions

* `Built` — what comes of building something, a monad.
-/

set_option autoImplicit false

namespace LayeredCache

/-- What comes of building something. -/
inductive Built (α : Type) where
  | ready (value : α)
  | refused (cause : Failure)
  /-- No memory could hold it. -/
  | crashed
  deriving Repr

namespace Built

variable {α β : Type}

/-- Builds something on what was built. -/
def bind (b : Built α) (f : α → Built β) : Built β :=
  match b with
  | .ready a => f a
  | .refused cause => .refused cause
  | .crashed => .crashed

instance : Monad Built where
  pure := .ready
  bind := bind

/-- What memory can hold, or a crash. -/
def ofOption : Option α → Built α
  | some a => .ready a
  | none => .crashed

end Built

end LayeredCache
