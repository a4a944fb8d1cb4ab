import LayeredCache.Cache.Run
import LayeredCache.KeyValue.Client

/-!
# Caches from settings

Settings say which tiers a cache has and whether it keeps a tally. A cache that is built from
settings always counts events, and the far tier is a client of a key-value server.

## Main definitions

* `Cache.ofSettings` — the cache that settings ask for.
-/

set_option autoImplicit false

namespace LayeredCache

/-- What the settings of a cache do not say. -/
structure Surroundings (σ : Type) where
  /-- The hash function of the near tier's keys. -/
  hash : String → UInt64
  /-- The numbers that the near tier draws for its jitter. -/
  draws : Nat → Nat
  /-- What is found at the address of the far tier. -/
  server : σ

variable {σ : Type}

/-- The near tier that settings ask for, if they enable it. -/
def NearTier.ofSettings (around : Surroundings σ) (s : NearSettings) : Built (Option NearTier) :=
  if s.enabled then
    Built.ofOption ((NearTier.new around.hash around.draws s.size s.samples).map fun t =>
      some (t.withTtl s.ttl))
  else .ready none

/-- The far tier that settings ask for, if they enable it. -/
def KeyValue.Client.ofSettings (around : Surroundings σ) (s : FarSettings) :
    Built (Option (KeyValue.Client σ)) :=
  if s.enabled then do
    let client ← KeyValue.Client.connect around.server s
    pure (some client)
  else .ready none

/-- The cache that settings ask for. -/
def Cache.ofSettings (around : Surroundings σ) (s : Settings) :
    Built (Cache (KeyValue.Client σ)) := do
  let near ← NearTier.ofSettings around s.near
  let far ← KeyValue.Client.ofSettings around s.far
  pure
    { near := near
      far := far
      tally := if s.stats then some {} else none
      counters := some {}
      envelope := ⟨s.level⟩ }

end LayeredCache
