import Triage.Cli.Program
import Triage.Machine.Listing

namespace Triage.Cli

def home : Location := ["home"]

def hostWorkers : Nat := 4

partial def readAll (input : IO.FS.Stream) (sofar : String) : IO String := do
  let line ← input.getLine
  if line.isEmpty then return sofar else readAll input (sofar ++ line)

end Triage.Cli

open Triage Cli

def main (args : List String) : IO UInt32 := do
  match Listing.tree home (← readAll (← IO.getStdin) "") with
  | .error f =>
    IO.eprintln s!"line {f.line} of the listing has no meaning"
    return usage.toUInt32
  | .ok tree =>
    match Cli.run (Survey.checkAll hostWorkers) args hostWorkers (.start tree home []) with
    | none =>
      IO.eprintln "the checks do not end"
      return brokenOff.toUInt32
    | some (result, _) =>
      IO.print result.output
      for line in result.errors do IO.eprintln line
      return result.exitCode.toUInt32
