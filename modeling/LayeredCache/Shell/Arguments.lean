/-!
# Arguments of the shell

The shell is started with options: the file with its settings, and whether its log is verbose. Short
options may share one argument, and a value may follow its option directly, after an equals sign or
as the next argument. Every option may be given once, and nothing but options may be given.

## Main definitions

* `Shell.Arguments` — what the options say.
* `Shell.Invocation.read` — what a list of arguments asks for.
* `Shell.help` — the text that describes the options.
-/

set_option autoImplicit false

namespace LayeredCache.Shell

/-- What the options say. -/
structure Arguments where
  /-- The file with the settings, if one is named. -/
  file : Option String := none
  verbose : Bool := false
  deriving DecidableEq, Repr

namespace Arguments

/-- The file with the settings when none is named. -/
def usualFile : String := "config.json"

/-- The file with the settings. -/
def settingsFile (a : Arguments) : String := a.file.getD usualFile

/-- Names the file with the settings: not twice, and not by an empty name. -/
def withFile (a : Arguments) (name : String) : Option Arguments :=
  if name.isEmpty || a.file.isSome then none else some { a with file := some name }

/-- Asks for a verbose log: not twice. -/
def withVerbose (a : Arguments) : Option Arguments :=
  if a.verbose then none else some { a with verbose := true }

end Arguments

/-- What a list of arguments asks for. -/
inductive Invocation where
  | run (arguments : Arguments)
  /-- To be told of the options. -/
  | help
  | invalid
  deriving DecidableEq, Repr

/-- What one argument comes to. -/
inductive Step where
  | more (arguments : Arguments)
  /-- The next argument has to name the file with the settings. -/
  | nameNext (arguments : Arguments)
  | help
  | invalid
  deriving DecidableEq, Repr

namespace Step

/-- Goes on with arguments, if there are any. -/
def ofOption : Option Arguments → Step
  | some a => .more a
  | none => .invalid

/-- Reads short options that share one argument. -/
def short (a : Arguments) : List Char → Step
  | [] => .more a
  | 'v' :: cs =>
    match a.withVerbose with
    | some a => short a cs
    | none => .invalid
  | ['c'] => .nameNext a
  | 'c' :: '=' :: cs => ofOption (a.withFile (String.ofList cs))
  | 'c' :: cs => ofOption (a.withFile (String.ofList cs))
  | 'h' :: _ => .help
  | _ :: _ => .invalid

/-- Reads a long option, which may have a value. -/
def long (a : Arguments) (name : List Char) (value : Option (List Char)) : Step :=
  match String.ofList name, value with
  | "config", some cs => ofOption (a.withFile (String.ofList cs))
  | "config", none => .nameNext a
  | "verbose", none => ofOption a.withVerbose
  | "help", none => .help
  | _, _ => .invalid

/-- The characters before the first equals sign, and those after it if there is one. -/
def splitValue (cs : List Char) : List Char × Option (List Char) :=
  match cs.span (· != '=') with
  | (name, _ :: value) => (name, some value)
  | (name, []) => (name, none)

/-- Reads one argument. -/
def ofArgument (a : Arguments) (argument : String) : Step :=
  match argument.toList with
  | '-' :: '-' :: cs => long a (splitValue cs).1 (splitValue cs).2
  | '-' :: c :: cs => short a (c :: cs)
  | _ => .invalid

end Step

/-- Whether an argument is an option and so no value: it starts with a dash and has more. -/
def isOption (argument : String) : Bool := argument.startsWith "-" && argument != "-"

namespace Invocation

/-- Reads arguments after those that were read before. Two dashes end the options, and as nothing
but options may be given, the arguments with them. -/
def readFrom (a : Arguments) : List String → Invocation
  | [] => .run a
  | ["--"] => .run a
  | argument :: rest =>
    match Step.ofArgument a argument, rest with
    | .more a, rest => readFrom a rest
    | .nameNext a, name :: rest =>
      if isOption name then .invalid
      else
        match a.withFile name with
        | some a => readFrom a rest
        | none => .invalid
    | .nameNext _, [] => .invalid
    | .help, _ => .help
    | .invalid, _ => .invalid

/-- What a list of arguments asks for. -/
def read (arguments : List String) : Invocation := readFrom {} arguments

end Invocation

/-- The text that describes the options. -/
def help : String :=
  "Interactive shell over a two-tier cache\n\n" ++
  "Usage: tier-cache [OPTIONS]\n\n" ++
  "Options:\n" ++
  "  -c, --config <CONFIG>  Path to configuration file (JSON) [default: config.json]\n" ++
  "  -v, --verbose          Enable verbose logging\n" ++
  "  -h, --help             Print help\n"

end LayeredCache.Shell
