/-!
The commands of the shell.  A word keeps its segments until it is expanded; the source of a command
substitution is kept as text until it runs.  There are no aliases and no job control.
-/

namespace Triage.Shell

mutual

/-- A part of a word; `quoted` parts are neither split nor matched against file names. -/
inductive Segment
  | text (s : List Char) (quoted : Bool)
  | param (name : String) (use : Use) (quoted : Bool)
  | arith (body : List Segment) (quoted : Bool)
  | command (line : Nat) (source : List Char) (quoted : Bool)
  | result (s : List Char) (quoted : Bool)
  deriving Repr

/-- What is made of a parameter.  With `colon`, an empty parameter counts as unset. -/
inductive Use
  | value
  | length
  | orElse (colon : Bool) (word : List Segment)
  | orAssign (colon : Bool) (word : List Segment)
  | orFail (colon : Bool) (word : List Segment)
  | ifSet (colon : Bool) (word : List Segment)
  | trim (atEnd longest : Bool) (pattern : List Segment)
  | invalid
  deriving Repr

end

abbrev Word := List Segment

instance : Inhabited Segment := ⟨.text [] false⟩

inductive Access
  | read
  | write
  | append
  | readWrite
  deriving DecidableEq, Repr

inductive Source
  | file (access : Access) (path : Word)
  | descriptor (number : Word)
  | here (text : Word)
  deriving Repr

structure Redirect where
  fd : Nat
  source : Source
  deriving Repr

inductive Cmd
  | nothing
  | simple (line : Nat) (assigns : List (String × Word)) (words : List Word)
      (redirects : List Redirect)
  | pipeline (parts : List Cmd)
  | invert (c : Cmd)
  | andThen (a b : Cmd)
  | orElse (a b : Cmd)
  | seq (a b : Cmd)
  | background (c : Cmd)
  | subshell (c : Cmd)
  | redirected (line : Nat) (c : Cmd) (redirects : List Redirect)
  | ifThen (cond yes no : Cmd)
  | loop (negated : Bool) (cond body : Cmd)
  /-- Without words, goes through the positional parameters. -/
  | forEach (name : String) (words : Option (List Word)) (body : Cmd)
  | caseOf (subject : Word) (arms : List (List Word × Cmd))
  | define (name : String) (body : Cmd)
  | invalid (line : Nat) (reason : String)
  deriving Repr

instance : Inhabited Cmd := ⟨.nothing⟩

end Triage.Shell
