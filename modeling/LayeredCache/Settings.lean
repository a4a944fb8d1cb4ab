import LayeredCache.Settings.Reader
import LayeredCache.Time

/-!
# Settings

A cache can be built from a settings file. Every setting has a default, so that a file may give
any part of the settings or none.

## Main definitions

* `Settings`, `NearSettings`, `FarSettings` — the settings with their defaults.
* `Settings.read` — the settings of a file's content.
* `Settings.Fault` — why there are none.
-/

set_option autoImplicit false

namespace LayeredCache

/-- Settings of the near tier. -/
structure NearSettings where
  enabled : Bool := true
  /-- The greatest number of entries. -/
  size : Nat := 10000
  /-- The number of accesses over which popularity is estimated. -/
  samples : Nat := 100000
  /-- The default lifetime in seconds; zero stands for the standard one. -/
  ttlSeconds : Nat := 60
  deriving DecidableEq, Repr

/-- The default lifetime. -/
def NearSettings.ttl (s : NearSettings) : Span := Span.seconds s.ttlSeconds

/-- Settings of the far tier. -/
structure FarSettings where
  enabled : Bool := false
  /-- The address of the server. -/
  address : String := "redis://127.0.0.1:6379"
  /-- The greatest number of connections. -/
  connections : Nat := 16
  /-- How long a request may take, in milliseconds. -/
  timeoutMilliseconds : Nat := 500
  deriving DecidableEq, Repr

/-- All settings of a cache. -/
structure Settings where
  /-- The name under which the cache is registered; the empty name is not registered. -/
  name : String := "default"
  /-- Whether far look-ups are tallied. -/
  stats : Bool := true
  near : NearSettings := {}
  far : FarSettings := {}
  /-- How hard the compressor works. -/
  level : Int := 3
  deriving DecidableEq, Repr

/-- The fields of the near tier's settings. -/
def NearSettings.fields : List (Json.Field NearSettings) :=
  [.of "enabled" Json.flag fun b s => { s with enabled := b },
   .of "size" Json.count fun n s => { s with size := n },
   .of "samples" Json.count fun n s => { s with samples := n },
   .of "ttl_secs" Json.count fun n s => { s with ttlSeconds := n }]

/-- The fields of the far tier's settings. -/
def FarSettings.fields : List (Json.Field FarSettings) :=
  [.of "enabled" Json.flag fun b s => { s with enabled := b },
   .of "url" Json.text fun t s => { s with address := t },
   .of "pool_size" Json.count fun n s => { s with connections := n },
   .of "timeout_ms" Json.count fun n s => { s with timeoutMilliseconds := n }]

namespace Settings

/-- The only field of the settings of the stored form: the level, a signed 32-bit integer. -/
def levelFields : List (Json.Field Int) :=
  [.of "zstd_level" (Json.whole (-0x80000000) 0x7fffffff) fun i _ => i]

/-- The fields of the settings. -/
def fields : List (Json.Field Settings) :=
  [.of "driver_name" Json.text fun t s => { s with name := t },
   .of "stats" Json.flag fun b s => { s with stats := b },
   .nested "local" NearSettings.fields (·.near) fun t s => { s with near := t },
   .nested "remote" FarSettings.fields (·.far) fun t s => { s with far := t },
   .nested "codec" levelFields (·.level) fun i s => { s with level := i }]

/-- Why there are no settings. -/
inductive Fault where
  /-- The content could not be read, or is not text. -/
  | unreadable
  | json (fault : Json.Fault)
  deriving DecidableEq, Repr

/-- The settings that a file's content gives. -/
def read (bs : Bytes) : Except Fault Settings :=
  if (Utf8.text? bs).isNone then .error .unreadable
  else
    match Json.file fields {} bs with
    | .ok s => .ok s
    | .error f => .error (.json f)

/-- What is found under a file's name. -/
inductive Source where
  /-- Nothing. -/
  | absent
  /-- Something without content, such as a folder. -/
  | folder
  | content (bs : Bytes)
  deriving DecidableEq, Repr

/-- The settings that are found under a file's name; the defaults when nothing is there. -/
def load : Source → Except Fault Settings
  | .absent => .ok {}
  | .folder => .error .unreadable
  | .content bs => read bs

end Settings

end LayeredCache
