import Triage.Shell.Syntax
import Triage.Text.Blank

/-!
Reading the source of a script.  The commands that end before a fault still run, so a script is the
list of its complete commands, with the fault as the last of them.
-/

namespace Triage.Shell

structure Fault where
  reason : String
  left : Nat
  /-- Whether what was still to be read starts with a word that cannot stand there. -/
  atWord : Bool := false

abbrev Reader := StateT (List Char) (Except Fault)

namespace Script

def isMeta (c : Char) : Bool := " \t\n;&|<>()".toList.contains c

def isNameStart (c : Char) : Bool := c.isAlpha || c == '_'

def isNameChar (c : Char) : Bool := c.isAlphanum || c == '_'

def isName (s : List Char) : Bool :=
  match s with
  | [] => false
  | c :: cs => isNameStart c && cs.all isNameChar

def isSpecial (c : Char) : Bool := "@*#?-$!".toList.contains c

def closers : List String := ["then", "else", "elif", "fi", "do", "done", "esac", "\x7d"]

def reserved : List String := closers ++ ["!", "\x7b", "case", "for", "if", "in", "until", "while"]

/-- The builtin commands that end the shell if one of their redirections fails, and whose
assignments stay. -/
def specials : List String :=
  [":", ".", "break", "continue", "eval", "exec", "exit", "export", "return", "set", "shift",
    "trap", "unset"]

def functionName? (w : Word) : Option String :=
  match w with
  | [.text s false] =>
    let name := String.ofList s
    if isName s && !specials.contains name then some name else none
  | _ => none

def skipSpace (lines : Bool) : (inComment : Bool) → List Char → List Char
  | true, '\n' :: r => if lines then skipSpace lines false r else '\n' :: r
  | true, _ :: r => skipSpace lines true r
  | false, '\n' :: r => if lines then skipSpace lines false r else '\n' :: r
  | false, ' ' :: r | false, '\t' :: r => skipSpace lines false r
  | false, '\\' :: '\n' :: r => skipSpace lines false r
  | false, '#' :: r => skipSpace lines true r
  | _, s => s

def blanks : Reader Unit := modify (skipSpace false false)

def lineEnds : Reader Unit := modify (skipSpace true false)

def bareWord (s : List Char) : String := String.ofList (s.takeWhile (!isMeta ·))

/-- A fault at the next token; a line end belongs to the line behind it. -/
def fail (reason : String) : Reader α := do
  let s ← get
  throw ⟨reason, if s.head? = some '\n' then s.length - 1 else s.length, false⟩

def failAtEnd (reason : String) : Reader α := throw ⟨reason, 0, false⟩

def tokenName (s : List Char) : String :=
  let operator := ["&&", "||", ";;"].find? fun op => op.toList.isPrefixOf s
  match operator, s with
  | some op, _ => s!"\"{op}\""
  | none, [] => "end of file"
  | none, '\n' :: _ => "newline"
  | none, '<' :: _ | none, '>' :: _ => "redirection"
  | none, c :: _ =>
    if isMeta c then s!"\"{c}\""
    else if reserved.contains (bareWord s) then s!"\"{bareWord s}\""
    else "word"

def refuse (expected : String) : Reader α := do
  let s ← get
  let reason := s!"{tokenName s} unexpected{expected}"
  if tokenName s = "word" then throw ⟨reason, s.length, true⟩ else fail reason

def unexpectedFor (expected : String) : Reader α := refuse s!" (expecting {expected})"

def unexpected (expected : Option String) : Reader α :=
  match expected with
  | none => refuse ""
  | some e => unexpectedFor s!"\"{e}\""

def required : Reader Unit := do
  blanks
  if (← get).isEmpty then unexpected none

def keyword? (w : String) : Reader Bool := do
  blanks
  let s ← get
  if bareWord s = w then
    set (s.drop w.length)
    return true
  else return false

def keyword (w : String) : Reader Unit := do
  unless ← keyword? w do unexpected (some w)

def symbol (c : Char) : Reader Unit := do
  blanks
  match ← get with
  | d :: r => if d = c then set r else unexpected (some c.toString)
  | [] => unexpected (some c.toString)

def atClose (s : List Char) : Bool :=
  match s with
  | [] | ')' :: _ | ';' :: ';' :: _ => true
  | s => closers.contains (bareWord s)

def joinTexts (w : Word) : Word :=
  w.foldr (fun seg w => match seg, w with
    | .text s q, .text t q' :: rest => if q = q' then .text (s ++ t) q :: rest else seg :: w
    | _, _ => seg :: w) []

def assignment? (w : Word) : Option (String × Word) :=
  match w with
  | .text s false :: rest =>
    match Text.splitOnce? ['='] s with
    | some (name, value) =>
      if isName name then
        some (String.ofList name, if value.isEmpty then rest else .text value false :: rest)
      else none
    | none => none
  | _ => none

inductive Sign
  | file (access : Access)
  | descriptor
  | here (dropTabs : Bool)

def redirectSign? (s : List Char) : Option (Nat × Sign × List Char) :=
  let digit? := s.head?.filter Char.isDigit
  let fd (default : Nat) : Nat := (digit?.map (·.toNat - 48)).getD default
  match if digit?.isSome then s.drop 1 else s with
  | '<' :: '<' :: '-' :: r => some (fd 0, .here true, r)
  | '<' :: '<' :: r => some (fd 0, .here false, r)
  | '<' :: '&' :: r => some (fd 0, .descriptor, r)
  | '<' :: '>' :: r => some (fd 0, .file .readWrite, r)
  | '<' :: r => some (fd 0, .file .read, r)
  | '>' :: '&' :: r => some (fd 1, .descriptor, r)
  | '>' :: '>' :: r => some (fd 1, .file .append, r)
  | '>' :: '|' :: r => some (fd 1, .file .write, r)
  | '>' :: r => some (fd 1, .file .write, r)
  | _ => none

def hereLines (dropTabs : Bool) (close : List Char) : (fuel : Nat) → List Char →
    List Char × List Char
  | 0, s => ([], s)
  | _, [] => ([], [])
  | n + 1, s =>
    let line := s.takeWhile (· ≠ '\n')
    let rest := s.drop line.length
    let line := if dropTabs then line.dropWhile (· = '\t') else line
    if line = close then ([], rest.drop 1)
    else
      let (more, after) := hereLines dropTabs close n (rest.drop 1)
      (line ++ rest.take 1 ++ more, after)

def delimiter (w : Word) : List Char × Bool :=
  w.foldr (fun seg (s, q) => match seg with
    | .text t quoted => (t ++ s, quoted || q)
    | _ => (s, q)) ([], false)

/-- In place of the character that closes a quoted text, where the text ends with the source. -/
def noClose : Char := '\x00'

def backquoted (inQuotes : Bool) : List Char → Option (List Char × List Char)
  | [] => none
  | '\x60' :: r => some ([], r)
  | '\\' :: c :: r =>
    let escapes := c = '\x60' ∨ c = '\\' ∨ c = '$' ∨ (c = '"' ∧ inQuotes)
    (backquoted inQuotes r).map fun (s, rest) =>
      (if escapes then c :: s else '\\' :: c :: s, rest)
  | c :: r => (backquoted inQuotes r).map fun (s, rest) => (c :: s, rest)

/-- The line on which what is left of a source starts; the source itself starts on the line
`first`. -/
def lineOf (first : Nat) (source : List Char) (left : Nat) : Nat :=
  first + (source.take (source.length - left)).count '\n'

section
variable (first : Nat) (source : List Char)

mutual

def segments : (fuel : Nat) → (stops : Char → Bool) → Reader Word
  | 0, _ => fail "out of space"
  | n + 1, stops => do
    match ← get with
    | [] => return []
    | '\\' :: '\n' :: r =>
      set r
      segments n stops
    | '\\' :: c :: r =>
      set r
      return .text [c] true :: (← segments n stops)
    | '\'' :: r =>
      match r.dropWhile (· ≠ '\'') with
      | [] => failAtEnd "Unterminated quoted string"
      | _ :: rest =>
        set rest
        return .text (r.takeWhile (· ≠ '\'')) true :: (← segments n stops)
    | '"' :: r =>
      set r
      let inside ← quoted n '"'
      let inside := if inside.isEmpty then [.text [] true] else inside
      return inside ++ (← segments n stops)
    | c :: r =>
      if stops c then return []
      else if c = '$' ∨ c = '\x60' then
        let seg ← substitution n false
        return seg :: (← segments n stops)
      else
        set r
        return .text [c] false :: (← segments n stops)

def quoted : (fuel : Nat) → (close : Char) → Reader Word
  | 0, _ => fail "out of space"
  | n + 1, close => do
    match ← get with
    | [] => if close = noClose then return [] else fail "Unterminated quoted string"
    | '\\' :: '\n' :: r =>
      set r
      quoted n close
    | '\\' :: c :: r =>
      set r
      let escapes := c = '$' ∨ c = '\x60' ∨ c = '\\' ∨ (c = '"' ∧ close ≠ noClose) ∨
        (c = '}' ∧ close = c)
      return .text (if escapes then [c] else ['\\', c]) true :: (← quoted n close)
    | c :: r =>
      if c = close then
        set r
        return []
      else if c = '"' ∧ close ≠ noClose then
        set r
        let inside ← quoted n '"'
        return inside ++ (← quoted n close)
      else if c = '$' ∨ c = '\x60' then
        let seg ← substitution n true
        return seg :: (← quoted n close)
      else
        set r
        return .text [c] true :: (← quoted n close)

def arithmetic : (fuel : Nat) → (depth : Nat) → Reader Word
  | 0, _ => fail "out of space"
  | n + 1, depth => do
    match ← get with
    | [] => fail "Missing '))'"
    | '(' :: r =>
      set r
      return .text ['('] true :: (← arithmetic n (depth + 1))
    | ')' :: r =>
      match depth, r with
      | 0, ')' :: r =>
        set r
        return []
      | depth + 1, r =>
        set r
        return .text [')'] true :: (← arithmetic n depth)
      | 0, _ => fail "Missing '))'"
    | c :: r =>
      if c = '$' ∨ c = '\x60' then
        let seg ← substitution n true
        return seg :: (← arithmetic n depth)
      else
        set r
        return .text [c] true :: (← arithmetic n depth)

def substitution : (fuel : Nat) → (inQuotes : Bool) → Reader Segment
  | 0, _ => fail "out of space"
  | n + 1, inQuotes => do
    match ← get with
    | '\x60' :: r =>
      match backquoted inQuotes r with
      | none => failAtEnd "EOF in backquote substitution"
      | some (s, rest) =>
        set s
        let commands : Reader Unit := do
          lineEnds
          unless atClose (← get) do discard (list n true)
        tryCatch commands fun f => throw ⟨f.reason, rest.length, false⟩
        let left := (← get).length
        set rest
        return .command 1 (s.take (s.length - left)) inQuotes
    | '$' :: '(' :: '(' :: r =>
      set r
      return .arith (joinTexts (← arithmetic n 0)) inQuotes
    | '$' :: '(' :: r =>
      set (skipSpace true false r)
      unless (← get).head? = some ')' do
        discard (list n true)
      lineEnds
      let left := (← get).length
      symbol ')'
      return .command (lineOf first source r.length) (r.take (r.length - left)) inQuotes
    | '$' :: '{' :: r =>
      set r
      braced n inQuotes
    | '$' :: c :: r =>
      if isNameStart c then
        set (r.dropWhile isNameChar)
        return .param (String.ofList (c :: r.takeWhile isNameChar)) .value inQuotes
      else if c.isDigit || isSpecial c then
        set r
        return .param c.toString .value inQuotes
      else
        set (c :: r)
        return .text ['$'] inQuotes
    | s =>
      set (s.drop 1)
      return .text (s.take 1) inQuotes

def braced : (fuel : Nat) → (inQuotes : Bool) → Reader Segment
  | 0, _ => fail "out of space"
  | n + 1, inQuotes => do
    let s ← get
    let (measured, s) := match s with
      | '#' :: c :: r =>
        if c = '}' ∨ (isSpecial c ∧ r.head? ≠ some '}') then (false, s) else (true, c :: r)
      | s => (false, s)
    let name := match s with
      | c :: r =>
        if isNameStart c then c :: r.takeWhile isNameChar
        else if c.isDigit then c :: r.takeWhile Char.isDigit
        else if isSpecial c then [c]
        else []
      | [] => []
    let s := s.drop name.length
    let bad : Reader Segment := do
      discard (operand n inQuotes s)
      return .param "" .invalid inQuotes
    if name.isEmpty then return (← bad)
    let use (u : Use) : Segment := .param (String.ofList name) u inQuotes
    match measured, s with
    | true, '}' :: r =>
      set r
      return use .length
    | false, '}' :: r =>
      set r
      return use .value
    | false, '#' :: '#' :: r => return use (.trim false true (← operand n false r))
    | false, '#' :: r => return use (.trim false false (← operand n false r))
    | false, '%' :: '%' :: r => return use (.trim true true (← operand n false r))
    | false, '%' :: r => return use (.trim true false (← operand n false r))
    | false, ':' :: '-' :: r => return use (.orElse true (← operand n inQuotes r))
    | false, '-' :: r => return use (.orElse false (← operand n inQuotes r))
    | false, ':' :: '=' :: r => return use (.orAssign true (← operand n inQuotes r))
    | false, '=' :: r => return use (.orAssign false (← operand n inQuotes r))
    | false, ':' :: '?' :: r => return use (.orFail true (← operand n inQuotes r))
    | false, '?' :: r => return use (.orFail false (← operand n inQuotes r))
    | false, ':' :: '+' :: r => return use (.ifSet true (← operand n inQuotes r))
    | false, '+' :: r => return use (.ifSet false (← operand n inQuotes r))
    | _, _ => bad

def operand : (fuel : Nat) → (inQuotes : Bool) → List Char → Reader Word
  | 0, _, _ => fail "out of space"
  | n + 1, inQuotes, s => do
    set s
    if inQuotes then return joinTexts (← quoted n '}')
    else
      let w ← segments n (· == '}')
      match ← get with
      | _ :: r => set r
      | [] => fail "Missing '\x7d'"
      return joinTexts w

def word : (fuel : Nat) → Reader Word
  | 0 => fail "out of space"
  | n + 1 => do
    blanks
    match ← get with
    | [] => unexpected none
    | c :: _ =>
      if isMeta c then unexpected none
      return joinTexts (← segments n isMeta)

def words : (fuel : Nat) → Reader (List Word)
  | 0 => fail "out of space"
  | n + 1 => do
    blanks
    match ← get with
    | [] => return []
    | c :: _ => if isMeta c then return [] else return (← word n) :: (← words n)

def redirects : (fuel : Nat) → Reader (List Redirect)
  | 0 => fail "out of space"
  | n + 1 => do
    blanks
    match redirectSign? (← get) with
    | none => return []
    | some (fd, sign, rest) =>
      set rest
      let target ← word n
      let source ← match sign with
        | .file a => pure (Source.file a target)
        | .descriptor => pure (Source.descriptor target)
        | .here dropTabs => Source.here <$> hereText n dropTabs target
      return ⟨fd, source⟩ :: (← redirects n)

/-- The text that a word at the start of the next lines asks for; its lines are taken away. -/
def hereText : (fuel : Nat) → (dropTabs : Bool) → Word → Reader Word
  | 0, _, _ => fail "out of space"
  | n + 1, dropTabs, target => do
    let s ← get
    let line := s.takeWhile (· ≠ '\n')
    let (close, literal) := delimiter target
    let below := s.drop (line.length + 1)
    let (text, after) := hereLines dropTabs close (below.length + 1) below
    let w ← if literal then pure [.text text true]
      else do
        set text
        quoted n noClose
    set (if s.length = line.length then line else line ++ '\n' :: after)
    return joinTexts w

def simple : (fuel : Nat) → (line : Nat) → List (String × Word) → List Word → List Redirect →
    Reader Cmd
  | 0, _, _, _, _ => fail "out of space"
  | n + 1, line, assigns, ws, rs => do
    blanks
    let s ← get
    if (redirectSign? s).isSome then
      simple n line assigns ws (rs ++ (← redirects n))
    else
      match s with
      | [] => return .simple line assigns ws rs
      | c :: r =>
        if c = '(' ∧ assigns.isEmpty ∧ ws.length = 1 ∧ rs.isEmpty then
          set r
          define n (ws.headD [])
        else if isMeta c then
          if assigns.isEmpty && ws.isEmpty && rs.isEmpty then unexpected none
          return .simple line assigns ws rs
        else
          let w ← word n
          let left := (← get).length
          let isFirst := assigns.isEmpty && ws.isEmpty && rs.isEmpty
          let line := if isFirst then lineOf first source left else line
          match assignment? w, ws with
          | some a, [] => simple n line (assigns ++ [a]) [] rs
          | _, _ => simple n line assigns (ws ++ [w]) rs

def define : (fuel : Nat) → Word → Reader Cmd
  | 0, _ => fail "out of space"
  | n + 1, w => do
    symbol ')'
    match functionName? w with
    | none => throw ⟨"Bad function name", (← get).length, false⟩
    | some name =>
      lineEnds
      required
      return .define name (← command n)

def branches : (fuel : Nat) → Reader Cmd
  | 0 => fail "out of space"
  | n + 1 => do
    let cond ← list n true
    keyword "then"
    let yes ← list n true
    if ← keyword? "elif" then
      return .ifThen cond yes (← branches n)
    else if ← keyword? "else" then
      let no ← list n true
      keyword "fi"
      return .ifThen cond yes no
    else
      keyword "fi"
      return .ifThen cond yes .nothing

def patterns : (fuel : Nat) → Reader (List Word)
  | 0 => fail "out of space"
  | n + 1 => do
    let w ← word n
    blanks
    match ← get with
    | '|' :: r =>
      set r
      return w :: (← patterns n)
    | _ =>
      symbol ')'
      return [w]

def arms : (fuel : Nat) → Reader (List (List Word × Cmd))
  | 0 => fail "out of space"
  | n + 1 => do
    lineEnds
    if ← keyword? "esac" then return []
    match ← get with
    | '(' :: r => set r
    | _ => pure ()
    let ps ← patterns n
    lineEnds
    let body ← if atClose (← get) then pure Cmd.nothing else list n true
    lineEnds
    match ← get with
    | ';' :: ';' :: r =>
      set r
      return (ps, body) :: (← arms n)
    | _ =>
      unless ← keyword? "esac" do unexpected (some ";;")
      return [(ps, body)]

def doGroup : (fuel : Nat) → Reader Cmd
  | 0 => fail "out of space"
  | n + 1 => do
    lineEnds
    keyword "do"
    let body ← list n true
    keyword "done"
    return body

def forLoop : (fuel : Nat) → Reader Cmd
  | 0 => fail "out of space"
  | n + 1 => do
    blanks
    let name := bareWord (← get)
    unless isName name.toList do fail "Bad for loop variable"
    modify (·.drop name.length)
    lineEnds
    let ws ← if ← keyword? "in" then some <$> words n else pure none
    blanks
    match ← get, ws with
    | ';' :: r, _ => set r
    | '\n' :: _, _ | _, none => pure ()
    | _, some _ => unexpected none
    return .forEach name ws (← doGroup n)

def compound : (fuel : Nat) → (line : Nat) → (c : Cmd) → Reader Cmd
  | 0, _, _ => fail "out of space"
  | n + 1, line, c => do
    let rs ← redirects n
    return if rs.isEmpty then c else .redirected line c rs

def command : (fuel : Nat) → Reader Cmd
  | 0 => fail "out of space"
  | n + 1 => do
    blanks
    let s ← get
    let line := lineOf first source s.length
    let w := bareWord s
    match s with
    | '(' :: r =>
      set r
      let c ← list n true
      lineEnds
      symbol ')'
      compound n line (.subshell c)
    | _ =>
      if ← keyword? "\x7b" then
        let c ← list n true
        keyword "\x7d"
        compound n line c
      else if ← keyword? "if" then
        compound n line (← branches n)
      else if ← keyword? "while" then
        let cond ← list n true
        compound n line (.loop false cond (← doGroup n))
      else if ← keyword? "until" then
        let cond ← list n true
        compound n line (.loop true cond (← doGroup n))
      else if ← keyword? "for" then
        compound n line (← forLoop n)
      else if ← keyword? "case" then
        blanks
        if ((← get).head?.map isMeta).getD true then unexpectedFor "word"
        let subject ← word n
        lineEnds
        keyword "in"
        compound n line (.caseOf subject (← arms n))
      else if closers.contains w ∨ w = "in" then unexpected none
      else simple n line [] [] []

def piped : (fuel : Nat) → Reader (List Cmd)
  | 0 => fail "out of space"
  | n + 1 => do
    let c ← command n
    blanks
    match ← get with
    | '|' :: '|' :: _ => return [c]
    | '|' :: r =>
      set r
      lineEnds
      required
      return c :: (← piped n)
    | _ => return [c]

def pipeline : (fuel : Nat) → Reader Cmd
  | 0 => fail "out of space"
  | n + 1 => do
    let inverted ← keyword? "!"
    if inverted then required
    let c := match ← piped n with
      | [c] => c
      | cs => .pipeline cs
    return if inverted then .invert c else c

def andOr : (fuel : Nat) → (c : Cmd) → Reader Cmd
  | 0, _ => fail "out of space"
  | n + 1, c => do
    blanks
    match ← get with
    | '&' :: '&' :: r =>
      set r
      lineEnds
      required
      andOr n (.andThen c (← pipeline n))
    | '|' :: '|' :: r =>
      set r
      lineEnds
      required
      andOr n (.orElse c (← pipeline n))
    | _ => return c

def list : (fuel : Nat) → (lines : Bool) → Reader Cmd
  | 0, _ => fail "out of space"
  | n + 1, lines => do
    modify (skipSpace lines false)
    let c ← andOr n (← pipeline n)
    blanks
    let (c, more) ← match ← get with
      | '&' :: r => do
        set r
        pure (Cmd.background c, true)
      | ';' :: ';' :: _ => pure (c, false)
      | ';' :: r => do
        set r
        pure (c, true)
      | '\n' :: _ => pure (c, lines)
      | _ => pure (c, false)
    modify (skipSpace lines false)
    let s ← get
    if more && !atClose s && s.head? != some '\n' then return .seq c (← list n lines)
    else return c

end

end

/-- No reader goes deeper than this for one character. -/
def depthPerChar : Nat := 12

/-- What is to be said of a fault, and on which line: a word is read to its end before it is
refused. -/
def faultCommand (first : Nat) (source : List Char) (f : Fault) : Cmd :=
  let f :=
    if !f.atWord then f
    else
      let rest := source.drop (source.length - f.left)
      match (segments first source (depthPerChar * (rest.length + 4)) isMeta).run rest with
      | .ok (_, rest) => { f with left := rest.length }
      | .error f => f
  .invalid (lineOf first source f.left) f.reason

def commandsFrom (first : Nat) (source : List Char) : (fuel : Nat) → List Char → List Cmd
  | 0, _ => []
  | n + 1, s =>
    match skipSpace true false s with
    | [] => []
    | s =>
      match (list first source (depthPerChar * (s.length + 4)) false).run s with
      | .error f => [faultCommand first source f]
      | .ok (c, '\n' :: rest) => c :: commandsFrom first source n rest
      | .ok (c, []) => [c]
      | .ok (_, rest) =>
        match (unexpected none : Reader Unit).run rest with
        | .error f => [faultCommand first source f]
        | .ok _ => []

end Script

def parseFrom (first : Nat) (source : List Char) : List Cmd :=
  Script.commandsFrom first source (source.length + 1) source

def parse (source : List Char) : List Cmd := parseFrom 1 source

end Triage.Shell
