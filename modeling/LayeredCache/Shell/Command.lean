import LayeredCache.CallOptions

/-!
# Commands of the shell

A line of the shell is read by its words: the first names the command and the others are its
arguments. A command with the wrong number of arguments is as unknown as one with a wrong name.

A line falls into words at its white space. Any character with the property of being white space
counts, not only the blank and the control characters.

## Main definitions

* `Text.isBlank` — whether a character is white space; `Text.words` — the words of a text, in order.
* `Shell.Command` — the commands.
* `Shell.Command.ofWords` — the command that words stand for.
-/

set_option autoImplicit false

/-! ## Words -/

namespace LayeredCache.Text

/-- The code points that are white space, in ranges of first and last. -/
def blankRanges : List (Nat × Nat) :=
  [(0x9, 0xd), (0x20, 0x20), (0x85, 0x85), (0xa0, 0xa0), (0x1680, 0x1680), (0x2000, 0x200a),
   (0x2028, 0x2029), (0x202f, 0x202f), (0x205f, 0x205f), (0x3000, 0x3000)]

/-- Whether a character is white space. -/
def isBlank (c : Char) : Bool :=
  blankRanges.any fun (first, last) => first ≤ c.toNat && c.toNat ≤ last

/-- Puts a word before others, unless it is empty. -/
def consWord (word : List Char) (more : List (List Char)) : List (List Char) :=
  if word.isEmpty then more else word :: more

/-- Puts a character before the word that a text starts with and the words that follow: a blank
ends that word. -/
def extendWords (c : Char) : List Char × List (List Char) → List Char × List (List Char)
  | (word, more) => if isBlank c then ([], consWord word more) else (c :: word, more)

/-- The words of a text, in order. -/
def words (s : String) : List String :=
  let (word, more) := s.toList.foldr extendWords ([], [])
  (consWord word more).map String.ofList

end LayeredCache.Text

/-! ## Commands -/

namespace LayeredCache.Shell

/-- What a line asks for. -/
inductive Command where
  /-- The line has no words. -/
  | nothing
  | quit
  | get (key : String)
  /-- To store a value; a lifetime of zero is none. -/
  | set (condition : Condition) (key value : String) (ttl : Span)
  /-- To store a value with a lifetime that is no number of seconds. -/
  | badLifetime
  | delete (key : String)
  | has (key : String)
  | stats
  | metrics
  | unknown (words : List String)
  deriving DecidableEq, Repr

namespace Command

/-- The words that end the session, whatever follows them. -/
def farewells : List String := ["quit", "exit"]

/-- The words that store a value, and the condition of each. -/
def setters : List (String × Condition) :=
  [("set", .always), ("setnx", .ifAbsent), ("setxx", .ifPresent)]

/-- The command to store a value, from the words after it. A single word is the lifetime in seconds;
two words or more say nothing. -/
def setting (condition : Condition) (key value : String) : List String → Command
  | [ttl] =>
    match Text.natural? 64 ttl with
    | some n => .set condition key value (Span.seconds n)
    | none => .badLifetime
  | _ => .set condition key value 0

/-- The command of a name with its arguments. -/
def named (name : String) (arguments : List String) : Command :=
  match setters.lookup name, name, arguments with
  | some condition, _, key :: value :: rest => setting condition key value rest
  | _, "get", [key] => .get key
  | _, "del", [key] => .delete key
  | _, "has", [key] => .has key
  | _, "stats", [] => .stats
  | _, "metrics", [] => .metrics
  | _, _, _ => .unknown (name :: arguments)

/-- The command that words stand for. -/
def ofWords : List String → Command
  | [] => .nothing
  | name :: arguments =>
    if farewells.contains name then .quit else named name arguments

/-- The command of a line. -/
def ofLine (line : String) : Command := ofWords (Text.words line)

end Command

end LayeredCache.Shell
