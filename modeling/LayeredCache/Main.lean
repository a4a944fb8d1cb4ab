import LayeredCache.Shell.Session

/-!
# The shell as a program

The outer layer of the shell: it reads the settings file and the lines of the standard input, and
writes the replies. It has no network, so that no far tier is within its reach.

## Main definitions

* `main` — the program.
-/

set_option autoImplicit false

namespace LayeredCache.Main

open Shell

/-- What is found under a file name. Nothing is, too, when the name leads through a file; a folder
can be opened but not read. -/
def find (name : String) : IO Settings.Source := do
  try
    let content ← IO.FS.readBinFile name
    pure (.content content.toList)
  catch
    | .noFileOrDirectory _ _ _ => pure .absent
    | .inappropriateType (some _) _ _ => pure .absent
    | _ => pure .folder

/-- The bytes of the input up to the end of a line, which is left out; none at the end of the
input. The bytes that were read before come in reverse. -/
partial def readLine (input : IO.FS.Stream) (before : Bytes) : IO (Option Bytes) := do
  let bytes ← input.read 1
  match bytes.toList with
  | [b] => if b == 0x0a then pure (some before.reverse) else readLine input (b :: before)
  | _ => pure (if before.isEmpty then none else some before.reverse)

/-- Answers the lines of the input until it ends or a line ends the session. -/
partial def converse {σ : Type} [FarStore σ] (input output : IO.FS.Stream) (c : Cache σ) :
    IO Exit := do
  match ← readLine input [] with
  | none => pure .done
  | some line =>
    let now ← IO.monoNanosNow
    match turn now c line with
    | .stop exit => pure exit
    | .next text c =>
      output.putStr text
      output.flush
      converse input output c

/-- Starts a session and answers the lines of the input. -/
def run (a : Arguments) : IO Exit := do
  let seed ← IO.rand 0 0x8000000000000000
  let around : Surroundings KeyValue.Unreachable :=
    { hash := fun key => mixHash (UInt64.ofNat seed) (hash key)
      draws := fun n => (seed + n) * 0x9e3779b97f4a7c15 % 0x10000000000000000
      server := {} }
  let source ← find a.settingsFile
  match start around (← IO.monoNanosNow) source with
  | .stop exit =>
    (← IO.getStderr).putStrLn "the settings, or what they ask for, cannot be used"
    pure exit
  | .ready c => converse (← IO.getStdin) (← IO.getStdout) c

end LayeredCache.Main

open LayeredCache in
/-- The program: it ends with the code of the session's exit. -/
def main (arguments : List String) : IO UInt32 := do
  let exit ← match Shell.Invocation.read arguments with
    | .help => do
      (← IO.getStdout).putStr Shell.help
      pure Shell.Exit.done
    | .invalid => do
      (← IO.getStderr).putStr Shell.help
      pure Shell.Exit.misused
    | .run a => LayeredCache.Main.run a
  pure (UInt32.ofNat exit.code)
