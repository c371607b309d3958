import MasCheck.TokenDump
import MasCheck.Text.Number

/-!
# The command that lists tokens

The command takes the path of a MAS file or of a test script. With `--line N` it lists only the
tokens near a line, and with `--json` it writes JSON.
-/

namespace MasCheck

structure Arguments where
  files : List String
  target : Option Nat
  json : Bool
  deriving DecidableEq, Repr

namespace Arguments

def empty : Arguments :=
  { files := [], target := none, json := false }

def read (a : Arguments) : List String → Option Arguments
  | [] => some a
  | "--json" :: rest => { a with json := true }.read rest
  | "--line" :: number :: rest =>
    match Text.count? number.toList with
    | some n => { a with target := some n }.read rest
    | none => none
  | file :: rest =>
    if file.startsWith "--" then none else { a with files := a.files ++ [file] }.read rest

end Arguments

def usage : String :=
  "usage: FILE [--line N] [--json]"

def listTokens (file : String) (target : Option Nat) (json : Bool) : IO UInt32 := do
  let source ← IO.FS.readFile file
  let listing := (TokenDump.ofSource source target).listing json
  (← IO.getStdout).putStr listing.output
  (← IO.getStderr).putStr listing.remarks
  return 0

end MasCheck

def main (args : List String) : IO UInt32 := do
  match MasCheck.Arguments.empty.read args with
  | some { files := [file], target, json } => MasCheck.listTokens file target json
  | _ =>
    IO.eprintln MasCheck.usage
    return 2
