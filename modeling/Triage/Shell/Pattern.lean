namespace Triage.Shell

/-- A character of an expanded word, and whether it was quoted. -/
abbrev Mark := Char × Bool

inductive Pattern.Item
  | lit (c : Char)
  | one
  | star
  | set (negated : Bool) (ranges : List (Char × Char))
  deriving DecidableEq, Repr

abbrev Pattern := List Pattern.Item

namespace Pattern

def named : List (String × List (Char × Char)) :=
  [("digit", [('0', '9')]), ("upper", [('A', 'Z')]), ("lower", [('a', 'z')]),
    ("alpha", [('A', 'Z'), ('a', 'z')]), ("alnum", [('0', '9'), ('A', 'Z'), ('a', 'z')]),
    ("space", [('\t', '\r'), (' ', ' ')]), ("blank", [('\t', '\t'), (' ', ' ')]),
    ("punct", [('!', '/'), (':', '@'), ('[', '\x60'), ('\x7b', '~')]),
    ("xdigit", [('0', '9'), ('A', 'F'), ('a', 'f')])]

def class? (s : List Mark) : Option (List (Char × Char) × List Mark) :=
  named.findSome? fun (name, ranges) =>
    let text := ("[:" ++ name ++ ":]").toList
    if (s.map (·.1)).take text.length = text then some (ranges, s.drop text.length) else none

/-- The ranges up to the closing bracket; `first` if none has been read, where a bracket does not
close.  `fuel` bounds their number. -/
def ranges? : (fuel : Nat) → (first : Bool) → List Mark →
    Option (List (Char × Char) × List Mark)
  | 0, _, _ => none
  | fuel + 1, first, s =>
    match class? s with
    | some (rs, rest) => (ranges? fuel false rest).map fun (more, rest) => (rs ++ more, rest)
    | none =>
      match s with
      | [] => none
      | (c, q) :: rest =>
        if c = ']' ∧ !q ∧ !first then some ([], rest)
        else match rest with
          | ('-', false) :: (d, q') :: rest' =>
            if d = ']' ∧ !q' then
              (ranges? fuel false rest).map fun (more, r) => ((c, c) :: more, r)
            else (ranges? fuel false rest').map fun (more, r) => ((c, d) :: more, r)
          | _ => (ranges? fuel false rest).map fun (more, r) => ((c, c) :: more, r)

def set? (s : List Mark) : Option (Item × List Mark) :=
  match s with
  | ('!', false) :: r | ('^', false) :: r =>
    (ranges? (r.length + 1) true r).map fun (rs, rest) => (.set true rs, rest)
  | s => (ranges? (s.length + 1) true s).map fun (rs, rest) => (.set false rs, rest)

def itemsOf : (fuel : Nat) → List Mark → Pattern
  | 0, _ | _, [] => []
  | fuel + 1, ('*', false) :: s => .star :: itemsOf fuel s
  | fuel + 1, ('?', false) :: s => .one :: itemsOf fuel s
  | fuel + 1, ('[', false) :: s =>
    match set? s with
    | some (item, rest) => item :: itemsOf fuel rest
    | none => .lit '[' :: itemsOf fuel s
  | fuel + 1, (c, _) :: s => .lit c :: itemsOf fuel s

def ofMarks (s : List Mark) : Pattern := itemsOf s.length s

def active (p : Pattern) : Bool :=
  p.any fun
    | .lit _ => false
    | _ => true

def Item.accepts (c : Char) : Item → Bool
  | .lit d => c == d
  | .one => true
  | .star => false
  | .set negated ranges => (ranges.any fun (lo, hi) => lo ≤ c && c ≤ hi) != negated

def accepts : Pattern → List Char → Bool
  | [], s => s.isEmpty
  | .star :: p, [] => accepts p []
  | .star :: p, c :: s => accepts p (c :: s) || accepts (.star :: p) s
  | _ :: _, [] => false
  | i :: p, c :: s => i.accepts c && accepts p s

/-- `s` without the start that the pattern accepts, the longest or the shortest. -/
def trimStart (longest : Bool) (p : Pattern) (s : List Char) : List Char :=
  let lengths := List.range (s.length + 1)
  let lengths := if longest then lengths.reverse else lengths
  match lengths.find? fun n => accepts p (s.take n) with
  | some n => s.drop n
  | none => s

def trimEnd (longest : Bool) (p : Pattern) (s : List Char) : List Char :=
  let starts := List.range (s.length + 1)
  let starts := if longest then starts else starts.reverse
  match starts.find? fun n => accepts p (s.drop n) with
  | some n => s.take n
  | none => s

end Pattern
end Triage.Shell
