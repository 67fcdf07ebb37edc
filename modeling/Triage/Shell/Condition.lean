import Triage.FileTree

namespace Triage.Shell.Condition

structure Fault where
  reason : String

def integer? (s : String) : Except Fault Int :=
  let text := s.trimAscii.toString
  match (if text.startsWith "+" then (text.drop 1).toString else text).toInt? with
  | some n => .ok n
  | none => .error ⟨s!"Illegal number: {s}"⟩

section
variable (t : FileTree) (here : Location)

def unary? (op : String) : Option (String → Bool) :=
  let entry (path : String) (p : Entry → Bool) : Bool :=
    match t.find here path with
    | .ok (_, e) => p e
    | .error _ => false
  match op with
  | "-n" => some (!·.isEmpty)
  | "-z" => some (·.isEmpty)
  | "-e" => some fun path => t.pathExists here path
  | "-f" => some fun path => entry path Entry.isFile
  | "-d" => some fun path => t.isDir here path
  | "-r" | "-w" => some fun path => t.pathExists here path
  | "-x" => some fun path => entry path fun
      | .program _ | .dir => true
      | _ => false
  | "-s" => some fun path => entry path fun
      | .file content => !content.isEmpty
      | _ => true
  | "-c" => some fun path => entry path fun
      | .device _ => true
      | _ => false
  | "-h" | "-L" => some fun path =>
      match t.find here path false with
      | .ok (_, .link _) => true
      | _ => false
  | "-b" | "-p" | "-S" | "-t" | "-u" | "-g" | "-k" => some fun _ => false
  | _ => none

def binary? (op : String) : Option (String → String → Except Fault Bool) :=
  let numbers (p : Int → Int → Bool) (a b : String) : Except Fault Bool := do
    return p (← integer? a) (← integer? b)
  match op with
  | "=" | "==" => some fun a b => .ok (a == b)
  | "!=" => some fun a b => .ok (a != b)
  | "<" => some fun a b => .ok (a < b)
  | ">" => some fun a b => .ok (b < a)
  | "-eq" => some (numbers (· == ·))
  | "-ne" => some (numbers (· != ·))
  | "-lt" => some (numbers fun a b => a < b)
  | "-le" => some (numbers fun a b => a ≤ b)
  | "-gt" => some (numbers fun a b => b < a)
  | "-ge" => some (numbers fun a b => b ≤ a)
  | "-nt" | "-ot" => some fun _ _ => .ok false
  | "-ef" => some fun a b =>
      match t.find here a, t.find here b with
      | .ok (l, _), .ok (l', _) => .ok (l == l')
      | _, _ => .ok false
  | _ => none

mutual

def primary : (fuel : Nat) → List String → Except Fault (Bool × List String)
  | 0, _ | _, [] => .ok (false, [])
  | fuel + 1, a :: rest =>
    match rest with
    | op :: b :: rest' =>
      match binary? t here op with
      | some p => do return (← p a b, rest')
      | none => single fuel a rest
    | _ => single fuel a rest

def single : (fuel : Nat) → String → List String → Except Fault (Bool × List String)
  | 0, _, _ => .error ⟨"argument expected"⟩
  | fuel + 1, a, rest =>
    match rest with
    | [] => .ok (!a.isEmpty, [])
    | [op] =>
      if a ≠ "!" ∧ a ≠ "(" ∧ (unary? t here a).isNone ∧ (binary? t here op).isSome then
        .error ⟨s!"{op}: argument expected"⟩
      else withOperand fuel a op []
    | b :: rest' => withOperand fuel a b rest'

def withOperand : (fuel : Nat) → (a b : String) → List String → Except Fault (Bool × List String)
  | 0, _, _, _ => .error ⟨"argument expected"⟩
  | fuel + 1, a, b, rest' =>
    if a = "!" then (primary fuel (b :: rest')).map fun (v, r) => (!v, r)
    else if a = "(" then
      match disjunction fuel (b :: rest') with
      | .ok (v, ")" :: r) => .ok (v, r)
      | .ok _ => .error ⟨"closing paren expected"⟩
      | .error f => .error f
    else match unary? t here a with
      | some p => .ok (p b, rest')
      | none => .ok (!a.isEmpty, b :: rest')

def conjunction : (fuel : Nat) → List String → Except Fault (Bool × List String)
  | 0, _ => .error ⟨"argument expected"⟩
  | fuel + 1, args => do
    let (v, rest) ← primary fuel args
    match rest with
    | "-a" :: rest =>
      let (w, rest) ← conjunction fuel rest
      return (v && w, rest)
    | rest => return (v, rest)

def disjunction : (fuel : Nat) → List String → Except Fault (Bool × List String)
  | 0, _ => .error ⟨"argument expected"⟩
  | fuel + 1, args => do
    let (v, rest) ← conjunction fuel args
    match rest with
    | "-o" :: rest =>
      let (w, rest) ← disjunction fuel rest
      return (v || w, rest)
    | rest => return (v, rest)

end

/-- Whether the condition holds; none does not. -/
def holds (args : List String) : Except Fault Bool :=
  match args with
  | [] => .ok false
  | [a] => .ok (!a.isEmpty)
  | args => do
    let (v, rest) ← disjunction t here (5 * args.length + 5) args
    if rest.isEmpty then return v
    else
      let last := ((args.take (args.length - rest.length)).getLast?).getD ""
      throw ⟨if last.isEmpty then "unexpected operator" else s!"{last}: unexpected operator"⟩

end

end Triage.Shell.Condition
