import Triage.Shell.Arithmetic
import Triage.Shell.Pattern
import Triage.Shell.State

/-!
Expanding words.  Parameters, arithmetic and the output of commands are put in, then unquoted parts
that came from them are split into fields, and last the quotes are dropped.
-/

namespace Triage.Shell

inductive Piece
  /-- A character; `splits` if it separates fields when it is a separator. -/
  | char (c : Char) (quoted splits : Bool)
  /-- There is a field here, even if it has no character. -/
  | hold
  | cut
  deriving DecidableEq, Repr

inductive ExpansionFault
  | unset (name reason : String)
  | arithmetic (text : String) (cause : Arithmetic.Fault)
  | badSubstitution
  deriving DecidableEq, Repr

def ExpansionFault.message : ExpansionFault → String
  | unset name reason => s!"{name}: {reason}"
  | arithmetic text cause => cause.message text
  | badSubstitution => "Bad substitution"

def notSet : String := "parameter not set"

abbrev Expansion := StateT State (Except ExpansionFault)

namespace Piece

def ofValue (quoted : Bool) (s : List Char) : List Piece :=
  if quoted then .hold :: s.map (.char · true false) else s.map (.char · false true)

def asValue (quoted : Bool) (ps : List Piece) : List Piece :=
  ps.map fun
    | .char c q splits => if quoted then .char c true false else .char c q (splits || !q)
    | p => p

def marks (ps : List Piece) : List Mark :=
  ps.filterMap fun
    | .char c q _ => some (c, q)
    | .hold => none
    | .cut => some (' ', true)

def text (ps : List Piece) : List Char := (marks ps).map (·.1)

structure Splitting where
  fields : List (List Mark) := []
  field : Option (List Mark) := none
  /-- Whether white space alone ended the last field. -/
  soft : Bool := false

namespace Splitting

def close (s : Splitting) (soft : Bool) : Splitting :=
  match s.field with
  | some f => ⟨f.reverse :: s.fields, none, soft⟩
  | none => { s with soft := s.soft && soft }

def add (separators : List Char) (s : Splitting) : Piece → Splitting
  | .hold => { s with field := some (s.field.getD []) }
  | .cut => s.close false
  | .char c q splits =>
    if splits && separators.contains c then
      if c = ' ' ∨ c = '\t' ∨ c = '\n' then
        match s.field with
        | some _ => s.close true
        | none => s
      else
        match s.field with
        | some _ => s.close false
        | none =>
          if s.soft then { s with soft := false } else { s with fields := [] :: s.fields }
    else { s with field := some ((c, q) :: s.field.getD []), soft := false }

end Splitting

def fields (separators : List Char) (ps : List Piece) : List (List Mark) :=
  ((ps.foldl (Splitting.add separators) {}).close false).fields.reverse

end Piece

namespace Expansion
open Piece

def allParams (s : State) (joined quoted : Bool) : List Piece :=
  if joined && quoted then
    let sep := (s.separators.head?.map fun c => c.toString).getD ""
    ofValue true (sep.intercalate s.params).toList
  else ([Piece.cut].intercalate (s.params.map fun p => ofValue quoted p.toList))

def isSet (s : State) (name : String) (colon : Bool) : Bool :=
  match s.value? name with
  | none => false
  | some v => !(colon && v.isEmpty)

def valueOf (name : String) : Expansion String := do
  let s ← get
  match s.value? name with
  | some v => return v
  | none => if s.wantsSet then throw (.unset name notSet) else return ""

def param (name : String) (quoted : Bool) : Expansion (List Piece) := do
  if name = "@" then return allParams (← get) false quoted
  else if name = "*" then return allParams (← get) true quoted
  else return ofValue quoted (← valueOf name).toList

def arith (body : List Char) : Expansion Int := do
  let s ← get
  let vars := s.vars.map fun (n, v) => (n, v.value)
  match (Arithmetic.ofText body).bind (·.eval vars) with
  | .error f => throw (.arithmetic (String.ofList body) f)
  | .ok (n, after) =>
    let changed := after.filter fun (x, v) => s.var? x != some v
    set (changed.foldl (fun s (x, v) => s.assign x v) s)
    return n

mutual

def segment : Segment → Expansion (List Piece)
  | .text s q =>
    return if q then .hold :: s.map (.char · true false) else s.map (.char · false false)
  | .param name u q => use name q u
  | .arith body q => do
    let n ← arith (text (← word body))
    return ofValue q (toString n).toList
  | .command _ _ _ => return []
  | .result s q => return ofValue q s

def use (name : String) (quoted : Bool) : Use → Expansion (List Piece)
  | .value => param name quoted
  | .length => return ofValue quoted (toString (← valueOf name).length).toList
  | .orElse colon w => do
    if isSet (← get) name colon then param name quoted
    else return asValue quoted (← word w)
  | .orAssign colon w => do
    if isSet (← get) name colon then param name quoted
    else
      let v := text (← word w)
      modify (·.assign name (String.ofList v))
      return ofValue quoted v
  | .orFail colon w => do
    if isSet (← get) name colon then param name quoted
    else
      let reason := text (← word w)
      let reason :=
        if !reason.isEmpty then String.ofList reason
        else if colon then notSet ++ " or null"
        else notSet
      throw (.unset name reason)
  | .ifSet colon w => do
    if isSet (← get) name colon then return asValue quoted (← word w) else return []
  | .trim atEnd longest w => do
    let p := Pattern.ofMarks (marks (← word w))
    let v := (← valueOf name).toList
    return ofValue quoted (if atEnd then p.trimEnd longest v else p.trimStart longest v)
  | .invalid => throw .badSubstitution

def word : List Segment → Expansion (List Piece)
  | [] => return []
  | seg :: w => do
    let ps ← segment seg
    return ps ++ (← word w)

end

def textOf (w : Word) : Expansion String := do return String.ofList (text (← word w))

def patternOf (w : Word) : Expansion Pattern := do return .ofMarks (marks (← word w))

def fieldsOf : List Word → Expansion (List (List Mark))
  | [] => return []
  | w :: ws => do
    let ps ← word w
    let fields := Piece.fields (← get).separators ps
    return fields ++ (← fieldsOf ws)

end Expansion

/-- A command in a text, with its line and its source, and the text with something else in its
place. -/
abbrev Focus (α : Type) := Option (Nat × List Char × (List Char → α))

namespace Focus

def map (f : α → β) (x : Focus α) : Focus β :=
  Option.map (fun (line, source, fill) => (line, source, fun s => f (fill s))) x

def list (find : α → Focus α) : List α → Focus (List α)
  | [] => none
  | a :: as =>
    match map (· :: as) (find a) with
    | some x => some x
    | none => map (a :: ·) (list find as)

mutual

def segment (s : State) : Segment → Focus Segment
  | .text _ _ | .result _ _ => none
  | .command line source q => some (line, source, fun out => .result out q)
  | .arith body q => map (.arith · q) (word s body)
  | .param name u q => map (.param name · q) (use s name u)

def use (s : State) (name : String) : Use → Focus Use
  | .value | .length | .invalid => none
  | .orElse colon w =>
    if Expansion.isSet s name colon then none else map (.orElse colon) (word s w)
  | .orAssign colon w =>
    if Expansion.isSet s name colon then none else map (.orAssign colon) (word s w)
  | .orFail colon w =>
    if Expansion.isSet s name colon then none else map (.orFail colon) (word s w)
  | .ifSet colon w =>
    if Expansion.isSet s name colon then map (.ifSet colon) (word s w) else none
  | .trim atEnd longest w => map (.trim atEnd longest) (word s w)

def word (s : State) : List Segment → Focus (List Segment)
  | [] => none
  | seg :: w =>
    match map (· :: w) (segment s seg) with
    | some x => some x
    | none => map (seg :: ·) (word s w)

end

def redirect (s : State) (r : Redirect) : Focus Redirect :=
  match r.source with
  | .file access w => map (fun w => ⟨r.fd, .file access w⟩) (word s w)
  | .descriptor w => map (fun w => ⟨r.fd, .descriptor w⟩) (word s w)
  | .here w => map (fun w => ⟨r.fd, .here w⟩) (word s w)

def assign (s : State) (a : String × Word) : Focus (String × Word) :=
  map (a.1, ·) (word s a.2)

def command (s : State) : Cmd → Focus Cmd
  | .simple line assigns words redirects =>
    match map (.simple line assigns · redirects) (list (word s) words) with
    | some x => some x
    | none =>
      match map (.simple line assigns words ·) (list (redirect s) redirects) with
      | some x => some x
      | none => map (.simple line · words redirects) (list (assign s) assigns)
  | .redirected line c redirects => map (.redirected line c ·) (list (redirect s) redirects)
  | .forEach name (some words) body =>
    map (fun ws => .forEach name (some ws) body) (list (word s) words)
  | .caseOf subject arms => map (.caseOf · arms) (word s subject)
  | _ => none

end Focus
end Triage.Shell
