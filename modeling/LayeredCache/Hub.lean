import LayeredCache.Assembly
import LayeredCache.Directory

/-!
# Hub of caches

A hub holds any number of caches and a directory that names some of them. A cache built from
settings is registered under the name that they give, and the plain operations can be asked of the
directory's default cache without naming it.

## Main definitions

* `Hub` — the caches, each at its place, and the directory of places.
* `Hub.add`, `Hub.register`, `Hub.build` — how caches come to the hub and get their names.
* `Hub.set`, `Hub.get`, `Hub.has`, `Hub.delete` — the operations of the default cache.
-/

set_option autoImplicit false

namespace LayeredCache

/-- Caches, each at its place, and the directory of places. -/
structure Hub (σ : Type) where
  caches : Array (Cache σ) := #[]
  directory : Directory Nat := {}

namespace Hub

variable {σ α : Type}

/-! ## Caches and names -/

/-- Adds a cache, which has no name yet, and tells its place. -/
def add (h : Hub σ) (c : Cache σ) : Nat × Hub σ :=
  (h.caches.size, { h with caches := h.caches.push c })

/-- Registers the cache at a place under a name. -/
def register (h : Hub σ) (name : String) (place : Nat) : Except Failure (Hub σ) :=
  match h.directory.register name place with
  | .ok d => .ok { h with directory := d }
  | .error f => .error (.directory f)

/-- The place of the cache with a name. -/
def find (h : Hub σ) (name : String) : Except Failure Nat :=
  (h.directory.find name).mapError .directory

/-- The place of the default cache. -/
def defaultPlace (h : Hub σ) : Except Failure Nat :=
  h.directory.defaultHandle.mapError .directory

/-- Builds the cache that settings ask for and registers it under the name that they give, if it is
not empty; tells its place. A refusal of either leaves the hub as it was. -/
def build {τ : Type} (h : Hub (KeyValue.Client τ)) (around : Surroundings τ) (s : Settings) :
    Built (Nat × Hub (KeyValue.Client τ)) := do
  let c ← Cache.ofSettings around s
  let (place, h) := h.add c
  if s.name.isEmpty then pure (place, h)
  else
    match h.register s.name place with
    | .ok h => pure (place, h)
    | .error cause => .refused cause

/-! ## Operations -/

variable [FarStore σ]

/-- Runs a program on the cache at a place. -/
def visitAt (h : Hub σ) (place : Nat) (v : Visit) (p : Setup → Prog α) : Progress α × Hub σ :=
  match h.caches[place]? with
  | none => (.crashed, h)
  | some c =>
    let (r, c) := (p c.setup).visit v c
    (r, { h with caches := h.caches.setIfInBounds place c })

/-- Runs a program on the default cache; without one, the refusal of the directory is the result. -/
def visitDefault (h : Hub σ) (v : Visit) (p : Setup → Prog α) (refused : Failure → α) :
    Progress α × Hub σ :=
  match h.defaultPlace with
  | .ok place => h.visitAt place v p
  | .error cause => (.finished (refused cause), h)

/-- Sets a key in the default cache. -/
def set (h : Hub σ) (v : Visit) (ty : Ty) (key : String) (value : Value) (o : CallOptions) :
    Progress (Except Failure Unit) × Hub σ :=
  h.visitDefault v (fun s => s.set ty key value o) .error

/-- Reads a key of the default cache. -/
def get (h : Hub σ) (v : Visit) (ty : Ty) (key : String) (o : CallOptions) :
    Progress (Except Failure (Option Value)) × Hub σ :=
  h.visitDefault v (fun s => s.get ty key o) .error

/-- Whether the default cache has a key; without a default cache, no. -/
def has (h : Hub σ) (v : Visit) (key : String) (o : CallOptions) : Progress Bool × Hub σ :=
  h.visitDefault v (fun s => s.has key o) fun _ => false

/-- Deletes a key from the default cache. -/
def delete (h : Hub σ) (v : Visit) (key : String) : Progress (Except Failure Unit) × Hub σ :=
  h.visitDefault v (fun s => s.delete key) .error

end Hub

end LayeredCache
