import LayeredCache.Text.Quoted

/-!
# Directory of named caches

Caches are registered under names and looked up by them. A name is taken for ever by its first
registration, and the first name of all is the default. The directory refuses an empty name, a name
that is taken and a name that nobody registered, and it has no default before the first
registration.

## Main definitions

* `Directory.Fault` — the refusals; `Directory.Fault.message` — their texts.
* `Directory` — the registered caches, each shown by a handle.
* `Directory.register`, `Directory.find`, `Directory.defaultHandle`, `Directory.names`.
-/

set_option autoImplicit false

namespace LayeredCache

/-- Why the directory refused. -/
inductive Directory.Fault where
  | emptyName
  | taken (name : String)
  | unknown (name : String)
  | noDefault
  deriving DecidableEq, Repr

/-- The text of a refusal. -/
def Directory.Fault.message : Directory.Fault → String
  | .emptyName => "registry: driver name must not be empty"
  | .taken name => "registry: driver " ++ Text.quote name ++ " is already registered"
  | .unknown name => "registry: driver " ++ Text.quote name ++ " is not registered"
  | .noDefault => "registry: no default driver"

/-- Handles by name, in ascending order of the names, and the name of the default. -/
structure Directory (α : Type) where
  entries : List (String × α) := []
  default : Option String := none

namespace Directory

variable {α : Type}

/-- Adds a name at its place in ascending order. -/
def place (name : String) (handle : α) : List (String × α) → List (String × α)
  | [] => [(name, handle)]
  | (n, h) :: rest =>
    if name < n then (name, handle) :: (n, h) :: rest else (n, h) :: place name handle rest

/-- The names, in ascending order. -/
def names (d : Directory α) : List String := d.entries.map (·.1)

/-- Registers a handle under a name that is not empty and not taken; the first registration makes
the default. -/
def register (d : Directory α) (name : String) (handle : α) : Except Fault (Directory α) :=
  if name.isEmpty then .error .emptyName
  else if d.names.contains name then .error (.taken name)
  else .ok
    { entries := place name handle d.entries
      default := d.default.or (some name) }

/-- The handle under a name. -/
def find (d : Directory α) (name : String) : Except Fault α :=
  match d.entries.lookup name with
  | some handle => .ok handle
  | none => .error (.unknown name)

/-- The handle of the default. -/
def defaultHandle (d : Directory α) : Except Fault α :=
  match d.default.bind fun name => d.entries.lookup name with
  | some handle => .ok handle
  | none => .error .noDefault

/-- A directory as text. -/
def text (d : Directory α) : String :=
  let default := match d.default with
    | some name => "Some(" ++ Text.quote name ++ ")"
    | none => "None"
  "Registry \x7b names: [" ++ String.intercalate ", " (d.names.map Text.quote) ++
    "], default: " ++ default ++ " \x7d"

end Directory

end LayeredCache
