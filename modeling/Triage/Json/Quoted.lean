import Triage.Text.Utf8

/-!
Texts between quotes.  Writing escapes the quote, the backslash and the control characters; reading
also takes every other escape, with characters beyond `U+FFFF` as two units.
-/

namespace Triage.Json

/-- Why a text cannot be read: it is no JSON, it ends too early, or it is well formed so far but not
of the shape that is wanted. -/
inductive Fault
  | malformed
  | truncated
  | mismatch
  deriving DecidableEq, Repr

def hexDigit (n : Nat) : Char := Char.ofNat (if n < 10 then 48 + n else 87 + n)

def hexValue? (c : Char) : Option Nat :=
  let n := c.toNat
  if 48 ≤ n ∧ n ≤ 57 then some (n - 48)
  else if 97 ≤ n ∧ n ≤ 102 then some (n - 87)
  else if 65 ≤ n ∧ n ≤ 70 then some (n - 55)
  else none

def shortEscape? (c : Char) : Option Char :=
  if c = '"' then some '"'
  else if c = '\\' then some '\\'
  else if c = '\x08' then some 'b'
  else if c = '\x0c' then some 'f'
  else if c = '\n' then some 'n'
  else if c = '\r' then some 'r'
  else if c = '\t' then some 't'
  else none

def escapeChar (c : Char) : List Char :=
  match shortEscape? c with
  | some e => ['\\', e]
  | none =>
    if c.toNat < 0x20 then ['\\', 'u', '0', '0', hexDigit (c.toNat / 16), hexDigit (c.toNat % 16)]
    else [c]

def quote (s : List Char) : List Char := '"' :: s.flatMap escapeChar ++ ['"']

/-- A piece of a quoted text: a character, or an escaped unit of sixteen bits. -/
inductive Piece
  | char (c : Char)
  | unit (n : Nat)
  deriving DecidableEq

def escaped? (c : Char) : Option Char :=
  match c with
  | '"' => some '"'
  | '\\' => some '\\'
  | '/' => some '/'
  | 'b' => some '\x08'
  | 'f' => some '\x0c'
  | 'n' => some '\n'
  | 'r' => some '\r'
  | 't' => some '\t'
  | _ => none

def unit? (a b c d : Char) : Option Nat := do
  return ((← hexValue? a) * 16 + (← hexValue? b)) * 256 + ((← hexValue? c) * 16 + (← hexValue? d))

def shortUnit (rest : List Char) : Fault :=
  if (Text.Utf8.encode rest).length < 4 then .truncated else .malformed

/-- Reads up to the closing quote: the pieces before the first fault or the quote, and the fault or
what follows the quote.  `read` holds the pieces so far, the last one first. -/
def piecesFrom (read : List Piece) : List Char → List Piece × Except Fault (List Char)
  | [] => (read.reverse, .error .truncated)
  | '"' :: r => (read.reverse, .ok r)
  | ['\\'] => (read.reverse, .error .truncated)
  | '\\' :: 'u' :: a :: b :: c :: d :: r =>
    match unit? a b c d with
    | some n => piecesFrom (.unit n :: read) r
    | none => (read.reverse, .error .malformed)
  | '\\' :: c :: r =>
    match escaped? c with
    | some e => piecesFrom (.char e :: read) r
    | none => (read.reverse, .error (if c = 'u' then shortUnit r else .malformed))
  | c :: r =>
    if c.toNat < 0x20 then (read.reverse, .error .malformed)
    else piecesFrom (.char c :: read) r

def pieces (s : List Char) : List Piece × Except Fault (List Char) := piecesFrom [] s

def isHighUnit (n : Nat) : Bool := 0xD800 ≤ n && n ≤ 0xDBFF

def isLowUnit (n : Nat) : Bool := 0xDC00 ≤ n && n ≤ 0xDFFF

/-- The text of the pieces, each high unit joined with the low unit that has to follow it.  `none`
when a high unit ends the pieces. -/
def joinFrom (read : List Char) : List Piece → Except Fault (Option (List Char))
  | [] => .ok (some read.reverse)
  | .char c :: ps => joinFrom (c :: read) ps
  | .unit n :: ps =>
    if isLowUnit n then .error .malformed
    else if isHighUnit n then
      match ps with
      | [] => .ok none
      | .char _ :: _ => .error .malformed
      | .unit m :: ps =>
        if isLowUnit m then
          joinFrom (Char.ofNat (0x10000 + (n - 0xD800) * 0x400 + (m - 0xDC00)) :: read) ps
        else .error .malformed
    else joinFrom (Char.ofNat n :: read) ps

def readQuoted (s : List Char) : Except Fault (List Char × List Char) :=
  let (ps, rest) := pieces s
  match joinFrom [] ps with
  | .error f => .error f
  | .ok text =>
    match rest with
    | .error f => .error f
    | .ok rest =>
      match text with
      | none => .error .malformed
      | some text => .ok (text, rest)

/-- Passes over a text whose opening quote has been read; its units need not form characters. -/
def skipQuoted (s : List Char) : Except Fault (List Char) := (pieces s).2

end Triage.Json
