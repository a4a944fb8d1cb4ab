import LayeredCache.Text.Url
import LayeredCache.Text.Utf8

/-!
# Addresses of servers

The address of a key-value server is a URL. It names either a host with a port, a database in its
path and credentials, or the path of a socket with the rest in its query.

## Main definitions

* `KeyValue.Address` — where a server is, and which of its databases is meant.
* `KeyValue.Address.read?` — the address that a text stands for.
-/

set_option autoImplicit false

namespace LayeredCache.KeyValue

/-- Where a server is. -/
inductive Endpoint where
  | host (name : String) (port : Nat)
  /-- A socket in the file system. -/
  | socket (path : Bytes)
  deriving DecidableEq, Repr

/-- Where a server is, which of its databases is meant, and what is told to it first. -/
structure Address where
  endpoint : Endpoint
  database : Int := 0
  user : Option String := none
  password : Option String := none
  /-- The version of the protocol. -/
  version : Nat := 2
  deriving DecidableEq, Repr

namespace Address

/-- The port of a host when none is given. -/
def usualPort : Nat := 6379

/-- The version of the protocol that a query asks for. -/
def version? (url : Url) : Option Nat :=
  match url.parameter? "protocol" with
  | none => some 2
  | some t =>
    if t == "2" || t == "resp2" then some 2 else if t == "3" || t == "resp3" then some 3 else none

/-- The number of a database; none is the first. -/
def database? (t : Option String) : Option Int :=
  match t with
  | none => some 0
  | some t => Text.integer? 64 t

/-- The user and the password that are written before a host; an empty user is none. -/
def credentials? (url : Url) : Option (Option String × Option String) := do
  let (user, password) := Url.splitAt ':' (url.credentials.getD [])
  let user ← Utf8.text? (Url.decode user)
  let password ← match password with
    | none => some none
    | some cs => (Utf8.text? (Url.decode cs)).map some
  pure (if user.isEmpty then none else some user, password)

/-- The address of a host. -/
def ofHost? (url : Url) : Option Address := do
  let name ← url.host
  let database ← match url.segments with
    | [] => some 0
    | [segment] => database? (some (String.ofList segment))
    | _ => none
  let (user, password) ← credentials? url
  let version ← version? url
  pure ⟨.host (String.ofList name) (url.port.getD usualPort), database, user, password, version⟩

/-- The address of a socket; it is on this machine. -/
def ofSocket? (url : Url) : Option Address := do
  guard (url.path.head? == some '/')
  guard (url.host.all (· == "localhost".toList))
  let database ← database? (url.parameter? "db")
  let version ← version? url
  pure ⟨.socket (Url.decode url.path), database, url.parameter? "user", url.parameter? "pass",
    version⟩

/-- The address that a text stands for. Encrypted connections are not supported. -/
def read? (s : String) : Option Address := do
  let url ← Url.read? s
  if url.scheme == "redis" then ofHost? url
  else if ["unix", "redis+unix"].contains url.scheme then ofSocket? url
  else none

end Address

end LayeredCache.KeyValue
