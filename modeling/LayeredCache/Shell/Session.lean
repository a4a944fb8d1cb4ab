import LayeredCache.Assembly
import LayeredCache.Shell.Arguments
import LayeredCache.Shell.Command

/-!
# Sessions of the shell

A session builds a cache from settings, makes sure that its far tier is there, and then answers line
after line until the lines end or a command ends it.

## Main definitions

* `Shell.Exit` — how the shell ends.
* `Shell.Command.answer` — what a command does to a cache, and the reply to it.
* `Shell.start` — how a session starts.
* `Shell.turn`, `Shell.session` — one line, and all lines.
* `Shell.run` — the whole program.
-/

set_option autoImplicit false

namespace LayeredCache.Shell

/-- How the shell ends. -/
inductive Exit where
  | done
  /-- There were no settings, no cache, no far tier or no text. -/
  | failed
  /-- The arguments were invalid. -/
  | misused
  /-- The clock could not represent a deadline, or memory could not hold the cache. -/
  | crashed
  deriving DecidableEq, Repr

/-- The number that a program ends with. -/
def Exit.code : Exit → Nat
  | .done => 0
  | .failed => 1
  | .misused => 2
  | .crashed => 101

variable {σ : Type} [FarStore σ]

/-! ## Replies -/

/-- The text of a failed command. -/
def errorText (message : String) : String := "error: " ++ message

/-- The reply to a command that was done or not. -/
def doneText : Except Failure Unit → String
  | .ok _ => "OK"
  | .error cause => errorText cause.message

/-- The reply to a look-up; a value that is nil shows as nothing. -/
def foundText : Except Failure (Option Value) → String
  | .ok (some (.text t)) => t
  | .ok _ => ""
  | .error cause => if cause.isMissing then "(miss)" else errorText cause.message

/-- Runs a program for a command and puts its result into words; a crash has none. -/
def perform {α : Type} (now : Instant) (c : Cache σ) (p : Prog α) (tell : α → String) :
    Option String × Cache σ :=
  match p.visit ⟨now, 0, none⟩ c with
  | (.finished a, c) => (some (tell a), c)
  | (_, c) => (none, c)

/-- What a command does to a cache, and the reply to it; a crash has none. -/
def Command.answer (now : Instant) (c : Cache σ) : Command → Option String × Cache σ
  | .get key => perform now c (c.setup.get .text key {}) foundText
  | .set condition key value ttl =>
    perform now c (c.setup.set .text key (.text value) { ttl := ttl, condition := condition })
      doneText
  | .badLifetime => (some (errorText "ttl must be whole seconds"), c)
  | .delete key => perform now c (c.setup.delete key) doneText
  | .has key => perform now c (c.setup.has key {}) toString
  | .stats => (some ((c.tally.map Tally.summary).getD "stats disabled"), c)
  | .metrics => (some ((c.counters.map Counters.exposition).getD "metrics unavailable"), c)
  | .unknown words => (some ("unknown command: " ++ String.intercalate " " words), c)
  | .nothing | .quit => (some "", c)

/-! ## Lines -/

/-- What a line leads to. -/
inductive Turn (σ : Type) where
  /-- The next line, after an output. -/
  | next (output : String) (cache : Cache σ)
  | stop (exit : Exit)

/-- Answers a line. It has to be text. -/
def turn (now : Instant) (c : Cache σ) (line : Bytes) : Turn σ :=
  match Utf8.text? line with
  | none => .stop .failed
  | some t =>
    match Command.ofLine t with
    | .nothing => .next "" c
    | .quit => .stop .done
    | command =>
      match command.answer now c with
      | (some reply, c) => .next (reply ++ "\n") c
      | (none, _) => .stop .crashed

/-- Answers lines, each at an instant; the outputs together, and how the session ends. -/
def session (c : Cache σ) : List (Instant × Bytes) → String × Exit
  | [] => ("", .done)
  | (now, line) :: rest =>
    match turn now c line with
    | .stop exit => ("", exit)
    | .next output c =>
      let (more, exit) := session c rest
      (output ++ more, exit)

/-- The lines of an input. The last one need not be ended. -/
def lines (input : Bytes) : List Bytes :=
  let (line, more) := input.foldr (fun b (line, more) =>
    if b == 0x0a then ([], line :: more) else (b :: line, more)) ([], [])
  let all := line :: more
  if all.getLast? == some [] then all.dropLast else all

/-! ## From arguments to exit -/

/-- How a session starts. -/
inductive Opening (σ : Type) where
  | ready (cache : Cache σ)
  | stop (exit : Exit)

/-- Asks the far tier, if there should be one, whether it is there. -/
def greet (now : Instant) (needed : Bool) (c : Cache σ) : Opening σ :=
  if needed then
    match c.setup.ping.visit ⟨now, 0, none⟩ c with
    | (.finished (.ok _), c) => .ready c
    | (.finished (.error _), _) => .stop .failed
    | _ => .stop .crashed
  else .ready c

/-- Starts a session with the settings that are found. -/
def start {τ : Type} [KeyValue.Server τ] (around : Surroundings τ) (now : Instant)
    (source : Settings.Source) : Opening (KeyValue.Client τ) :=
  match Settings.load source with
  | .error _ => .stop .failed
  | .ok s =>
    match Cache.ofSettings around s with
    | .ready c => greet now s.far.enabled c
    | .refused _ => .stop .failed
    | .crashed => .stop .crashed

/-- The whole program: its output and how it ends, for what is found under each file name, for
arguments and for an input all of which is read at one instant. -/
def run {τ : Type} [KeyValue.Server τ] (around : Surroundings τ) (now : Instant)
    (find : String → Settings.Source) (arguments : List String) (input : Bytes) : String × Exit :=
  match Invocation.read arguments with
  | .help => (help, .done)
  | .invalid => ("", .misused)
  | .run a =>
    match start around now (find a.settingsFile) with
    | .stop exit => ("", exit)
    | .ready c => session c ((lines input).map fun line => (now, line))

end LayeredCache.Shell
