/-!
# Traffic counters

The cache counts hits and misses by tier, loads by the way in which they were asked for, and the
entries that were dropped because they could not be read. The counters are shown as text in the
exposition format: one family of series after another, by name, and the series of a family by
label.

## Main definitions

* `Series` — counts by label, in ascending label order.
* `Counters` — the counters of a cache.
* `Counters.exposition` — their text.
-/

set_option autoImplicit false

namespace LayeredCache

/-- Counts by label, in ascending label order. -/
abbrev Series := List (String × Nat)

/-- Adds one to the count of a label. -/
def Series.bump (label : String) : Series → Series
  | [] => [(label, 1)]
  | (l, n) :: rest =>
    if label = l then (l, n + 1) :: rest
    else if label < l then (label, 1) :: (l, n) :: rest
    else (l, n) :: Series.bump label rest

/-- The count of a label. -/
def Series.count (label : String) (s : Series) : Nat := (s.lookup label).getD 0

/-- The tier or way of loading that a counter is about. -/
inductive Event where
  | hit (tier : String)
  | miss (tier : String)
  | load (mode : String)
  | heal
  deriving DecidableEq, Repr

/-- The counters of a cache. -/
structure Counters where
  hits : Series := []
  misses : Series := []
  loads : Series := []
  heals : Nat := 0
  deriving DecidableEq, Repr

namespace Counters

/-- Counts an event. -/
def record (c : Counters) : Event → Counters
  | .hit tier => { c with hits := Series.bump tier c.hits }
  | .miss tier => { c with misses := Series.bump tier c.misses }
  | .load mode => { c with loads := Series.bump mode c.loads }
  | .heal => { c with heals := c.heals + 1 }

/-! ## Exposition -/

/-- A character inside a label's quotes. -/
def labelChar (c : Char) : String :=
  if c == '\\' then "\\\\"
  else if c == '\n' then "\\n"
  else if c == '"' then "\\\""
  else c.toString

/-- A label's value in quotes. -/
def labelValue (s : String) : String :=
  "\"" ++ String.join (s.toList.map labelChar) ++ "\""

/-- The two lines that introduce a family of counters. -/
def heading (name help : String) : String :=
  s!"# HELP {name} {help}\n# TYPE {name} counter\n"

/-- A family of series under a label; a family without series is left out. -/
def family (name help label : String) : Series → String
  | [] => ""
  | s => heading name help ++
    String.join (s.map fun (value, n) =>
      s!"{name}\x7b{label}=" ++ labelValue value ++ s!"\x7d {n}\n")

/-- The text of all counters. -/
def exposition (c : Counters) : String :=
  family "tier_cache_hits_total" "Cache hits by tier" "tier" c.hits ++
    family "tier_cache_loads_total" "Loader invocations by mode" "mode" c.loads ++
    family "tier_cache_misses_total" "Cache misses by tier" "tier" c.misses ++
    heading "tier_cache_self_heals_total" "Entries deleted and reloaded after a decode failure" ++
    s!"tier_cache_self_heals_total {c.heals}\n"

end Counters

end LayeredCache
