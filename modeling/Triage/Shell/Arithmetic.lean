import Triage.Shell.Script

namespace Triage.Shell

inductive Arithmetic
  | number (n : Int)
  | var (name : String)
  | unary (op : Char) (a : Arithmetic)
  | binary (op : String) (a b : Arithmetic)
  | choose (cond yes no : Arithmetic)
  | assign (name : String) (op : String) (value : Arithmetic)
  deriving Repr

namespace Arithmetic

inductive Fault
  | noOperand
  | noEnd
  | noClose
  | noColon
  | divisionByZero
  | badNumber (value : String)
  deriving DecidableEq, Repr

def Fault.message (text : String) (f : Fault) : String :=
  let said (reason : String) : String := s!"arithmetic expression: {reason}: \"{text}\""
  match f with
  | noOperand => said "expecting primary"
  | noEnd => said "expecting EOF"
  | noClose => said "expecting ')'"
  | noColon => said "expecting ':'"
  | divisionByZero => said "division by zero"
  | badNumber value => s!"Illegal number: {value}"

inductive Token
  | number (n : Int)
  | name (s : String)
  | symbol (s : String)
  | other (c : Char)
  deriving DecidableEq, Repr

def symbols : List String :=
  ["<<=", ">>=", "<<", ">>", "<=", ">=", "==", "!=", "&&", "||", "+=", "-=", "*=", "/=", "%=", "&=",
    "|=", "^=", "+", "-", "*", "/", "%", "<", ">", "=", "!", "~", "&", "|", "^", "?", ":", "(", ")",
    ","]

def digitValue (c : Char) : Nat :=
  if c.isDigit then c.toNat - 48
  else if 'a' ≤ c ∧ c ≤ 'z' then c.toNat - 87
  else if 'A' ≤ c ∧ c ≤ 'Z' then c.toNat - 55
  else 36

def digits (base : Nat) (s : List Char) : Int × List Char :=
  let ds := s.takeWhile (digitValue · < base)
  (ds.foldl (fun n c => base * n + digitValue c) 0, s.drop ds.length)

/-- The number at the front, in base 16 after `0x` and in base 8 after `0`, and what follows it. -/
def leadingNumber (s : List Char) : Int × List Char :=
  match s with
  | '0' :: x :: c :: r =>
    if (x = 'x' ∨ x = 'X') ∧ digitValue c < 16 then digits 16 (c :: r) else digits 8 s
  | '0' :: _ => digits 8 s
  | s => digits 10 s

def number? (s : List Char) : Option Int :=
  match s.head?.map Char.isDigit, leadingNumber s with
  | some true, (n, []) => some n
  | _, _ => none

def tokens : (fuel : Nat) → List Char → List Token
  | 0, _ => []
  | _, [] => []
  | fuel + 1, c :: s =>
    if " \t\n".toList.contains c then tokens fuel s
    else if c.isDigit then
      let (n, rest) := leadingNumber (c :: s)
      .number n :: tokens fuel rest
    else if Script.isNameStart c then
      let text := (c :: s).takeWhile Script.isNameChar
      .name (String.ofList text) :: tokens fuel ((c :: s).drop text.length)
    else match symbols.find? fun op => op.toList.isPrefixOf (c :: s) with
      | some op => .symbol op :: tokens fuel ((c :: s).drop op.length)
      | none => .other c :: tokens fuel s

def level? : String → Option Nat
  | "||" => some 1
  | "&&" => some 2
  | "|" => some 3
  | "^" => some 4
  | "&" => some 5
  | "==" | "!=" => some 6
  | "<" | ">" | "<=" | ">=" => some 7
  | "<<" | ">>" => some 8
  | "+" | "-" => some 9
  | "*" | "/" | "%" => some 10
  | _ => none

def assignOps : List String := ["=", "+=", "-=", "*=", "/=", "%=", "<<=", ">>=", "&=", "|=", "^="]

abbrev Read := Except Fault (Arithmetic × List Token)

mutual

def primary : (fuel : Nat) → List Token → Read
  | 0, _ => .error .noOperand
  | fuel + 1, ts =>
    match ts with
    | .number n :: r => .ok (.number n, r)
    | .name x :: r => .ok (.var x, r)
    | .symbol "(" :: r =>
      match whole fuel r with
      | .ok (e, .symbol ")" :: r) => .ok (e, r)
      | .ok _ => .error .noClose
      | .error f => .error f
    | .symbol "+" :: r => primary fuel r
    | .symbol "-" :: r => (primary fuel r).map fun (e, r) => (.unary '-' e, r)
    | .symbol "!" :: r => (primary fuel r).map fun (e, r) => (.unary '!' e, r)
    | .symbol "~" :: r => (primary fuel r).map fun (e, r) => (.unary '~' e, r)
    | _ => .error .noOperand

/-- Goes on with the operators behind `a` that bind at least as tightly as `low`. -/
def climb : (fuel : Nat) → (low : Nat) → (a : Arithmetic) → List Token → Read
  | 0, _, _, _ => .error .noEnd
  | fuel + 1, low, a, ts =>
    match ts with
    | .symbol op :: r =>
      match level? op with
      | none => .ok (a, ts)
      | some l =>
        if l < low then .ok (a, ts)
        else do
          let (b, r) ← primary fuel r
          let (b, r) ← climb fuel (l + 1) b r
          climb fuel low (.binary op a b) r
    | _ => .ok (a, ts)

def whole : (fuel : Nat) → List Token → Read
  | 0, _ => .error .noOperand
  | fuel + 1, ts =>
    match ts with
    | .name x :: .symbol op :: r =>
      if assignOps.contains op then
        (whole fuel r).map fun (e, r) => (.assign x (String.ofList (op.toList.dropLast)) e, r)
      else conditional fuel ts
    | ts => conditional fuel ts

def conditional : (fuel : Nat) → List Token → Read
  | 0, _ => .error .noOperand
  | fuel + 1, ts => do
    let (a, r) ← primary fuel ts
    let (a, r) ← climb fuel 1 a r
    match r with
    | .symbol "?" :: r =>
      match whole fuel r with
      | .ok (yes, .symbol ":" :: r) =>
        (conditional fuel r).map fun (no, r) => (.choose a yes no, r)
      | .ok _ => .error .noColon
      | .error f => .error f
    | r => .ok (a, r)

end

def ofText (s : List Char) : Except Fault Arithmetic :=
  match tokens (s.length + 1) s with
  | [] => .ok (.number 0)
  | ts =>
    match whole (8 * ts.length + 8) ts with
    | .ok (e, []) => .ok e
    | .ok _ => .error .noEnd
    | .error f => .error f

/-- The remainder that a word of 64 bits with a sign holds. -/
def wrap (n : Int) : Int := Int.bmod n UInt64.size

def ofBool (b : Bool) : Int := if b then 1 else 0

def bits (n : Int) : Nat := (n % UInt64.size).toNat

def apply (op : String) (a b : Int) : Except Fault Int :=
  match op with
  | "+" => .ok (wrap (a + b))
  | "-" => .ok (wrap (a - b))
  | "*" => .ok (wrap (a * b))
  | "/" => if b = 0 then .error .divisionByZero else .ok (wrap (a.tdiv b))
  | "%" => if b = 0 then .error .divisionByZero else .ok (wrap (a.tmod b))
  | "<<" => .ok (wrap (a * Nat.pow 2 (bits b % 64)))
  | ">>" => .ok (a >>> (bits b % 64))
  | "<" => .ok (ofBool (a < b))
  | ">" => .ok (ofBool (b < a))
  | "<=" => .ok (ofBool (a ≤ b))
  | ">=" => .ok (ofBool (b ≤ a))
  | "==" => .ok (ofBool (a == b))
  | "!=" => .ok (ofBool (a != b))
  | "&" => .ok (wrap (bits a &&& bits b))
  | "|" => .ok (wrap (bits a ||| bits b))
  | "^" => .ok (wrap (bits a ^^^ bits b))
  | _ => .ok b

abbrev Variables := List (String × String)

def valueOf (vars : Variables) (name : String) : Except Fault Int :=
  let text := ((vars.lookup name).getD "").toList.filter fun c => !" \t\n".toList.contains c
  let (negative, digits) := match text with
    | '-' :: r => (true, r)
    | '+' :: r => (false, r)
    | s => (false, s)
  if text.isEmpty then .ok 0
  else match number? digits with
    | some n => .ok (wrap (if negative then -n else n))
    | none => .error (.badNumber ((vars.lookup name).getD ""))

def eval (vars : Variables) : Arithmetic → Except Fault (Int × Variables)
  | number n => .ok (wrap n, vars)
  | var x => do return (← valueOf vars x, vars)
  | unary op a => do
    let (v, vars) ← eval vars a
    let v := if op = '-' then wrap (-v) else if op = '!' then ofBool (v == 0) else wrap (-v - 1)
    return (v, vars)
  | binary op a b => do
    let (v, vars) ← eval vars a
    if op = "&&" ∧ v = 0 then return (0, vars)
    if op = "||" ∧ v ≠ 0 then return (1, vars)
    let (w, vars) ← eval vars b
    if op = "&&" ∨ op = "||" then return (ofBool (w != 0), vars)
    return (← apply op v w, vars)
  | choose cond yes no => do
    let (v, vars) ← eval vars cond
    if v = 0 then eval vars no else eval vars yes
  | assign x op a => do
    let (w, vars) ← eval vars a
    let v ← if op.isEmpty then .ok w else apply op (← valueOf vars x) w
    return (v, (x, toString v) :: vars.filter (·.1 ≠ x))

end Arithmetic
end Triage.Shell
