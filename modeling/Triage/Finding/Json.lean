import Triage.Finding
import Triage.Json.Layout
import Triage.Json.Value

namespace Triage
open Json

namespace Finding

def toJson (f : Finding) : String := String.ofList (Layout.compact.record 0 f.fields)

def listToJson (layout : Layout) (fs : List Finding) : String :=
  String.ofList (layout.records (fs.map fields))

end Finding

namespace Status

def ofText (s : String) : Except Fault Status :=
  match ofName? s with
  | some status => .ok status
  | none => .error .mismatch

def readNothing (s : List Char) : Except Fault (List Char) :=
  match skipSpace s with
  | 'n' :: r => word ['u', 'l', 'l'] r
  | s => .error (wrongShape s)

/-- A status is its name, or an object with the name as its only key and `null` beside it. -/
def read (s : List Char) : Except Fault (Status × List Char) :=
  match skipSpace s with
  | [] => .error .truncated
  | '"' :: r => do
    let (name, r) ← readQuoted r
    return (← ofText (String.ofList name), r)
  | '{' :: r => do
    let (name, r) ← readText r
    let status ← ofText name
    let r ← expect ':' r
    let r ← readNothing r
    return (status, ← expect '}' r)
  | _ => .error .malformed

def ofJson (s : String) : Except Fault Status := readWhole read s

end Status

namespace Finding

structure Draft where
  file : Option String := none
  status : Option Status := none
  message : Option String := none
  output : Option (Option String) := none

namespace Draft

def finish (d : Draft) : Except Fault Finding :=
  match d.file, d.status, d.message with
  | some file, some status, some message => .ok ⟨file, status, message, d.output.join⟩
  | _, _, _ => .error .mismatch

def refuseAgain (known : Option α) : Except Fault Unit :=
  if known.isSome then .error .mismatch else .ok ()

/-- Reads the value beside `key`.  A key of a finding may not come again. -/
def readField (d : Draft) (key : List Char) (s : List Char) : Except Fault (Draft × List Char) :=
  if key = "file".toList then do
    refuseAgain d.file
    let (file, r) ← readText (← expect ':' s)
    return ({ d with file := some file }, r)
  else if key = "status".toList then do
    refuseAgain d.status
    let (status, r) ← Status.read (← expect ':' s)
    return ({ d with status := some status }, r)
  else if key = "message".toList then do
    refuseAgain d.message
    let (message, r) ← readText (← expect ':' s)
    return ({ d with message := some message }, r)
  else if key = "output".toList then do
    refuseAgain d.output
    let (output, r) ← readText? (← expect ':' s)
    return ({ d with output := some output }, r)
  else do
    return (d, ← skip (← expect ':' s))

end Draft

/-- The members of an object up to its closing bracket; `fuel` bounds their number. -/
def readMembers (fuel : Nat) (first : Bool) (d : Draft) (s : List Char) :
    Except Fault (Draft × List Char) :=
  match fuel with
  | 0 => .error .malformed
  | fuel + 1 => do
    match ← nextKey first s with
    | none => return (d, s)
    | some s =>
      let (key, s) ← readQuoted s
      let (d, s) ← d.readField key s
      readMembers fuel false d s

def readPositional (s : List Char) : Except Fault (Finding × List Char) := do
  let some s ← nextItem true s | .error .mismatch
  let (file, s) ← readText s
  let some s ← nextItem false s | .error .mismatch
  let (status, s) ← Status.read s
  let some s ← nextItem false s | .error .mismatch
  let (message, s) ← readText s
  match ← nextItem false s with
  | none => return (⟨file, status, message, none⟩, s)
  | some s =>
    let (output, s) ← readText? s
    return (⟨file, status, message, output⟩, s)

def read (s : List Char) : Except Fault (Finding × List Char) :=
  match skipSpace s with
  | '[' :: r => do
    let (f, r) ← readPositional r
    return (f, ← expect ']' r)
  | '{' :: r => do
    let (d, r) ← readMembers (r.length + 1) true {} r
    return (← d.finish, ← expect '}' r)
  | s => .error (wrongShape s)

def ofJson (s : String) : Except Fault Finding := readWhole read s

def readItems (fuel : Nat) (known : List Finding) (s : List Char) :
    Except Fault (List Finding × List Char) :=
  match fuel with
  | 0 => .error .malformed
  | fuel + 1 => do
    match ← nextItem known.isEmpty s with
    | none => return (known.reverse, s)
    | some s =>
      let (f, s) ← read s
      readItems fuel (f :: known) s

def readList (s : List Char) : Except Fault (List Finding × List Char) :=
  match skipSpace s with
  | '[' :: r => do
    let (fs, r) ← readItems (r.length + 1) [] r
    return (fs, ← expect ']' r)
  | s => .error (wrongShape s)

def listOfJson (s : String) : Except Fault (List Finding) := readWhole readList s

end Finding
end Triage
