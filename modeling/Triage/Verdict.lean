import Triage.Outcome
import Triage.Text.Blank
import Triage.Text.Clip

namespace Triage

inductive Doubt
  | timedOut
  | unrecognised (exitCode : Int) (output : String)
  deriving DecidableEq, Repr

def Doubt.message : Doubt → String
  | timedOut => "parse check timed out"
  | unrecognised exitCode output =>
    s!"unrecognised parse check output (exit code {exitCode}): {output}"

inductive Verdict
  | valid
  /-- What is wrong with the file, and where. -/
  | defect (description : String)
  /-- Why the file could not be read. -/
  | unreadable (reason : String)
  | inconclusive (doubt : Doubt)
  deriving DecidableEq, Repr

namespace Verdict
open Text

def validSign : List Char := "SYNTAX_OK".toList

def failureSign : List Char := "SYNTAX_ERR:".toList

def unreadableSign : List Char := "cannot_read:".toList

def lineSign : List Char := ":line:".toList

/-- How much of an output that nobody understands is kept. -/
def doubtLimit : Nat := 200

/-- A decimal number below `2 ^ 64`, perhaps with a plus in front. -/
def number? (s : List Char) : Option Nat :=
  let digits := match s with
    | '+' :: r => r
    | s => s
  if digits.isEmpty || !digits.all Char.isDigit then none
  else
    let n := digits.foldl (fun n c => 10 * n + (c.toNat - 48)) 0
    if n < UInt64.size then some n else none

/-- `kind:text` is written with a space after its first colon. -/
def describeKind (s : List Char) : List Char :=
  match splitOnce? [':'] s with
  | some (kind, text) => kind ++ [':', ' '] ++ text
  | none => s

/-- `kind:text:line:n` is described as `kind: text (line n)`; a line that is no number is left
out. -/
def describe (s : List Char) : List Char :=
  match splitLast? lineSign s with
  | none => describeKind s
  | some (head, tail) =>
    match number? (trim tail) with
    | none => describeKind head
    | some n => describeKind head ++ s!" (line {n})".toList

def ofFailure (rest : List Char) : Verdict :=
  match stripPrefix? unreadableSign rest with
  | some reason => unreadable (String.ofList reason)
  | none => defect (String.ofList (describe rest))

/-- A sign of success anywhere decides; then the first sign of a failure; then how the check
ended. -/
def ofOutcome (o : Outcome) : Verdict :=
  if o.timedOut then inconclusive .timedOut
  else
    let output := o.combined.toList
    let ls := (lines output).map trim
    if ls.contains validSign then valid
    else match ls.findSome? (stripPrefix? failureSign) with
      | some rest => ofFailure rest
      | none =>
        if o.success then valid
        else
          inconclusive (.unrecognised o.exitCode (String.ofList (clip doubtLimit (trim output))))

end Verdict
end Triage
