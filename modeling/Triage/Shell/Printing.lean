import Triage.Shell.Arithmetic
import Triage.Text.Utf8

namespace Triage.Shell.Printing

def bytesOf (s : List Char) : Bytes := Text.Utf8.encode s

def escapes : List (Char × UInt8) :=
  [('\\', 92), ('a', 7), ('b', 8), ('e', 27), ('f', 12), ('n', 10), ('r', 13), ('t', 9), ('v', 11)]

def octal (limit : Nat) (s : List Char) : Nat × List Char :=
  let digits := (s.take limit).takeWhile fun c => '0' ≤ c && c ≤ '7'
  (digits.foldl (fun n c => 8 * n + (c.toNat - 48)) 0, s.drop digits.length)

/-- A text with its escapes replaced; with `zero`, an octal number may have a zero in front of its
three digits.  The flag says whether `\c` ended the text. -/
def unescape (zero : Bool) : (fuel : Nat) → List Char → Bytes × Bool
  | 0, _ | _, [] => ([], false)
  | fuel + 1, '\\' :: c :: s =>
    if c = 'c' && zero then ([], true)
    else if '0' ≤ c && c ≤ '7' then
      let (n, rest) := octal (if zero && c = '0' then 4 else 3) (c :: s)
      let (bs, stopped) := unescape zero fuel rest
      (n.toUInt8 :: bs, stopped)
    else match escapes.lookup c with
      | some b =>
        let (bs, stopped) := unescape zero fuel s
        (b :: bs, stopped)
      | none =>
        let (bs, stopped) := unescape zero fuel (c :: s)
        (92 :: bs, stopped)
  | fuel + 1, c :: s =>
    let (bs, stopped) := unescape zero fuel s
    (bytesOf [c] ++ bs, stopped)

def echo (args : List String) : Bytes :=
  let (newline, args) := match args with
    | "-n" :: rest => (false, rest)
    | args => (true, args)
  let text := (" ".intercalate args).toList
  let (bs, stopped) := unescape true text.length text
  if newline && !stopped then bs ++ [10] else bs

structure Directive where
  left : Bool := false
  plus : Bool := false
  space : Bool := false
  alternate : Bool := false
  zeros : Bool := false
  width : Nat := 0
  precision : Option Nat := none
  deriving Repr

def flags : Directive → List Char → Directive × List Char
  | d, '-' :: s => flags { d with left := true } s
  | d, '+' :: s => flags { d with plus := true } s
  | d, ' ' :: s => flags { d with space := true } s
  | d, '#' :: s => flags { d with alternate := true } s
  | d, '0' :: s => flags { d with zeros := true } s
  | d, s => (d, s)

def count (s : List Char) (args : List String) : Nat × List Char × List String :=
  match s with
  | '*' :: s => (((args.headD "").toNat?).getD 0, s, args.drop 1)
  | s =>
    let digits := s.takeWhile Char.isDigit
    (digits.foldl (fun n c => 10 * n + (c.toNat - 48)) 0, s.drop digits.length, args)

def pad (d : Directive) (bs : Bytes) : Bytes :=
  let fill := List.replicate (d.width - bs.length) 32
  if d.left then bs ++ fill else fill ++ bs

def cut (d : Directive) (bs : Bytes) : Bytes :=
  match d.precision with
  | some n => bs.take n
  | none => bs

def number (d : Directive) (mark : String) (digits : List Char) : Bytes :=
  let digits := List.replicate (d.precision.getD 1 - digits.length) '0' ++ digits
  let mark := mark.toList
  let zeros :=
    if d.zeros && !d.left && d.precision.isNone then d.width - (mark.length + digits.length) else 0
  pad d (bytesOf (mark ++ List.replicate zeros '0' ++ digits))

def integer (arg : String) : Int × Option String :=
  match arg.toList with
  | [] => (0, none)
  | '"' :: c :: _ | '\'' :: c :: _ => ((bytesOf [c]).headD 0 |>.toNat, none)
  | s =>
    let s := s.dropWhile (" \t\n".toList.contains ·)
    let (negative, s) := match s with
      | '-' :: r => (true, r)
      | '+' :: r => (false, r)
      | s => (false, s)
    if (s.head?.map Char.isDigit) != some true then (0, some "expected numeric value")
    else
      let (n, rest) := Arithmetic.leadingNumber s
      (if negative then -n else n, if rest.isEmpty then none else some "not completely converted")

structure Printed where
  bytes : Bytes := []
  complaints : List String := []
  status : Nat := 0
  stopped : Bool := false

namespace Printed

def add (p : Printed) (bs : Bytes) : Printed := { p with bytes := p.bytes ++ bs }

def complain (p : Printed) (text : String) : Printed :=
  { p with complaints := p.complaints ++ [text], status := 1 }

def fail (p : Printed) (text : String) : Printed :=
  { p with complaints := p.complaints ++ [text], status := 2, stopped := true }

end Printed

def limited (lowest highest : Int) (x : Int × Option String) : Int × Option String :=
  if lowest ≤ x.1 ∧ x.1 ≤ highest then x
  else (max lowest (min highest x.1), some "Numerical result out of range")

def convert (d : Directive) (c : Char) (arg : String) (p : Printed) : Printed :=
  let integral (render : Int → Bytes) : Printed :=
    let (lowest, highest) : Int × Int :=
      if c = 'd' ∨ c = 'i' then (Int64.minValue.toInt, Int64.maxValue.toInt)
      else (Int64.minValue.toInt, UInt64.size - 1)
    let (n, fault) := limited lowest highest (integer arg)
    let p := match fault with
      | some reason => p.complain s!"{arg}: {reason}"
      | none => p
    p.add (render n)
  let natural (n : Int) : Nat := (n % UInt64.size).toNat
  match c with
  | 's' => p.add (pad d (cut d (bytesOf arg.toList)))
  | 'b' =>
    let (bs, stopped) := unescape true arg.length arg.toList
    { p.add (pad d (cut d bs)) with stopped }
  | 'c' => p.add (pad d [((bytesOf arg.toList).head?).getD 0])
  | 'd' | 'i' =>
    integral fun n =>
      let mark := if n < 0 then "-" else if d.plus then "+" else if d.space then " " else ""
      number d mark (Nat.toDigits 10 n.natAbs)
  | 'u' => integral fun n => number d "" (Nat.toDigits 10 (natural n))
  | 'o' =>
    integral fun n =>
      let digits := Nat.toDigits 8 (natural n)
      number d "" (if d.alternate && digits.head? != some '0' then '0' :: digits else digits)
  | 'x' =>
    integral fun n =>
      number d (if d.alternate && n != 0 then "0x" else "") (Nat.toDigits 16 (natural n))
  | _ =>
    integral fun n =>
      number d (if d.alternate && n != 0 then "0X" else "")
        ((Nat.toDigits 16 (natural n)).map Char.toUpper)

def pass : (fuel : Nat) → List Char → List String → Printed → Printed × List String
  | 0, _, args, p | _, [], args, p => (p, args)
  | fuel + 1, '%' :: '%' :: s, args, p => pass fuel s args (p.add [37])
  | fuel + 1, '%' :: directive, args, p =>
    let (d, s) := flags {} directive
    let (width, s, args) := count s args
    let (precision, s, args) := match s with
      | '.' :: s =>
        let (n, s, args) := count s args
        (some n, s, args)
      | s => (none, s, args)
    match s with
    | [] => (p.fail "missing format character", args)
    | c :: s =>
      if "sbcdiuoxX".toList.contains c then
        let p := convert { d with width, precision } c (args.headD "") p
        if p.stopped then (p, []) else pass fuel s (args.drop 1) p
      else
        let text := String.ofList (directive.take (directive.length - s.length))
        (p.fail s!"%{text}: invalid directive", args)
  | fuel + 1, s, args, p =>
    let text := s.takeWhile (· ≠ '%')
    let (bs, _) := unescape false text.length text
    pass fuel (s.dropWhile (· ≠ '%')) args (p.add bs)

/-- Goes through a format until no argument is left; one that takes none is used once. -/
def passes (form : List Char) : (fuel : Nat) → List String → Printed → Printed
  | 0, _, p => p
  | fuel + 1, args, p =>
    let (p, rest) := pass (form.length + 1) form args p
    if rest.isEmpty || p.stopped || rest.length = args.length then p else passes form fuel rest p

def printf (form : String) (args : List String) : Printed :=
  passes form.toList (args.length + 1) args {}

end Triage.Shell.Printing
