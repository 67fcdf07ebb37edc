import Triage.Json.Quoted

namespace Triage.Json

def isSpace (c : Char) : Bool := c = ' ' || c = '\n' || c = '\t' || c = '\r'

def skipSpace (s : List Char) : List Char := s.dropWhile isSpace

def word : (w s : List Char) → Except Fault (List Char)
  | [], s => .ok s
  | _ :: _, [] => .error .truncated
  | a :: w, c :: s => if a = c then word w s else .error .malformed

def isDigit (c : Char) : Bool := '0' ≤ c && c ≤ '9'

def skipExponent (s : List Char) : Except Fault (List Char) :=
  let s := match s with
    | '+' :: r => r
    | '-' :: r => r
    | s => s
  if (s.takeWhile isDigit).isEmpty then .error .malformed else .ok (s.dropWhile isDigit)

def skipExponent? : List Char → Except Fault (List Char)
  | 'e' :: r => skipExponent r
  | 'E' :: r => skipExponent r
  | s => .ok s

def skipFraction? : List Char → Except Fault (List Char)
  | '.' :: r =>
    if (r.takeWhile isDigit).isEmpty then .error .malformed else skipExponent? (r.dropWhile isDigit)
  | s => skipExponent? s

def skipNumber (s : List Char) : Except Fault (List Char) :=
  match s.takeWhile isDigit with
  | [] => .error .malformed
  | '0' :: _ :: _ => .error .malformed
  | _ => skipFraction? (s.dropWhile isDigit)

mutual

/-- Passes over a value; `fuel` bounds the depth of the calls. -/
def skipValue (fuel : Nat) (s : List Char) : Except Fault (List Char) :=
  match fuel with
  | 0 => .error .malformed
  | fuel + 1 =>
    match skipSpace s with
    | [] => .error .truncated
    | 'n' :: r => word ['u', 'l', 'l'] r
    | 't' :: r => word ['r', 'u', 'e'] r
    | 'f' :: r => word ['a', 'l', 's', 'e'] r
    | '"' :: r => skipQuoted r
    | '-' :: r => skipNumber r
    | '[' :: r =>
      match skipSpace r with
      | [] => .error .truncated
      | ']' :: r => .ok r
      | r => skipItems fuel r
    | '{' :: r =>
      match skipSpace r with
      | [] => .error .truncated
      | '}' :: r => .ok r
      | r => skipMembers fuel r
    | c :: r => if isDigit c then skipNumber (c :: r) else .error .malformed

def skipItems (fuel : Nat) (s : List Char) : Except Fault (List Char) :=
  match fuel with
  | 0 => .error .malformed
  | fuel + 1 =>
    match skipValue fuel s with
    | .error f => .error f
    | .ok r =>
      match skipSpace r with
      | [] => .error .truncated
      | ',' :: r => skipItems fuel r
      | ']' :: r => .ok r
      | _ => .error .malformed

def skipMembers (fuel : Nat) (s : List Char) : Except Fault (List Char) :=
  match fuel with
  | 0 => .error .malformed
  | fuel + 1 =>
    match skipSpace s with
    | [] => .error .truncated
    | '"' :: r =>
      match skipQuoted r with
      | .error f => .error f
      | .ok r =>
        match skipSpace r with
        | [] => .error .truncated
        | ':' :: r =>
          match skipValue fuel r with
          | .error f => .error f
          | .ok r =>
            match skipSpace r with
            | [] => .error .truncated
            | ',' :: r => skipMembers fuel r
            | '}' :: r => .ok r
            | _ => .error .malformed
        | _ => .error .malformed
    | _ => .error .malformed

end

/-- Passes over the value at the start of `s`.  Of any two calls within one another, one has read a
character, so the fuel is enough. -/
def skip (s : List Char) : Except Fault (List Char) := skipValue (2 * s.length + 2) s

def digitsValue (ds : List Char) : Nat := ds.foldl (fun n c => 10 * n + (c.toNat - 48)) 0

/-- Whether a number with these digits rounds to no double: its magnitude is at least `2 ^ 1024`
less half a unit in the last place. -/
def tooLarge (whole fraction : List Char) (negative : Bool) (exponent : List Char) : Bool :=
  let digits := (whole ++ fraction).dropWhile (· = '0')
  let shift : Int := (if negative then -1 else 1) * digitsValue exponent
  let magnitude : Int := digits.length + shift - fraction.length
  if digits.isEmpty || magnitude < 300 then false
  else if 320 < magnitude then true
  else
    let scale : Int := shift - fraction.length
    Nat.pow 2 1024 - Nat.pow 2 970 ≤
      digitsValue digits * Nat.pow 10 scale.toNat / Nat.pow 10 (-scale).toNat

def wrongNumber (s : List Char) : Fault :=
  match s.takeWhile isDigit with
  | [] => if s.isEmpty then .truncated else .malformed
  | '0' :: _ :: _ => .malformed
  | whole =>
    let s := s.dropWhile isDigit
    let (fraction, s, bad) : List Char × List Char × Bool := match s with
      | '.' :: r => (r.takeWhile isDigit, r.dropWhile isDigit, (r.takeWhile isDigit).isEmpty)
      | s => ([], s, false)
    if bad then if s.isEmpty then .truncated else .malformed
    else match s with
      | [] => .mismatch
      | e :: r =>
        if e = 'e' ∨ e = 'E' then
          let (negative, r) : Bool × List Char := match r with
            | '+' :: r => (false, r)
            | '-' :: r => (true, r)
            | r => (false, r)
          match r.takeWhile isDigit with
          | [] => if r.isEmpty then .truncated else .malformed
          | exponent => if tooLarge whole fraction negative exponent then .malformed else .mismatch
        else if tooLarge whole fraction false [] then .malformed else .mismatch

def faultOf (read : Except Fault α) : Fault :=
  match read with
  | .error f => f
  | .ok _ => .mismatch

/-- The fault of a value that is not of the shape that is wanted: its own if it is no value. -/
def wrongShape (s : List Char) : Fault :=
  match s with
  | 'n' :: r => faultOf (word ['u', 'l', 'l'] r)
  | 't' :: r => faultOf (word ['r', 'u', 'e'] r)
  | 'f' :: r => faultOf (word ['a', 'l', 's', 'e'] r)
  | '"' :: r => faultOf (readQuoted r)
  | '-' :: r => wrongNumber r
  | '[' :: _ => .mismatch
  | '{' :: _ => .mismatch
  | c :: r => if isDigit c then wrongNumber (c :: r) else .malformed
  | [] => .truncated

def nextItem (first : Bool) (s : List Char) : Except Fault (Option (List Char)) :=
  match skipSpace s with
  | [] => .error .truncated
  | ']' :: _ => .ok none
  | c :: r =>
    if first then .ok (some (c :: r))
    else if c = ',' then
      match skipSpace r with
      | [] => .error .truncated
      | ']' :: _ => .error .malformed
      | r => .ok (some r)
    else .error .malformed

def nextKey (first : Bool) (s : List Char) : Except Fault (Option (List Char)) :=
  match skipSpace s with
  | [] => .error .truncated
  | '}' :: _ => .ok none
  | c :: r =>
    if first then if c = '"' then .ok (some r) else .error .malformed
    else if c = ',' then
      match skipSpace r with
      | [] => .error .truncated
      | '"' :: r => .ok (some r)
      | _ => .error .malformed
    else .error .malformed

def expect (c : Char) (s : List Char) : Except Fault (List Char) :=
  match skipSpace s with
  | [] => .error .truncated
  | d :: r => if c = d then .ok r else .error .malformed

def readText (s : List Char) : Except Fault (String × List Char) :=
  match skipSpace s with
  | '"' :: r => (readQuoted r).map fun (text, r) => (String.ofList text, r)
  | s => .error (wrongShape s)

def readText? (s : List Char) : Except Fault (Option String × List Char) :=
  match skipSpace s with
  | 'n' :: r => (word ['u', 'l', 'l'] r).map fun r => (none, r)
  | s => (readText s).map fun (text, r) => (some text, r)

def readWhole (read : List Char → Except Fault (α × List Char)) (s : String) : Except Fault α := do
  let (a, r) ← read s.toList
  if (skipSpace r).isEmpty then .ok a else .error .malformed

end Triage.Json
