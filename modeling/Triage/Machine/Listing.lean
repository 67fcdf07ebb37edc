import Triage.Machine.Image

/-!
Listings of the files of a machine.  An entry starts on a line of its own with its kind and its
path.  Below a file stand its lines, each behind a bar, or behind a plus sign if it has no end;
below a link stands its target, behind an arrowhead.
-/

namespace Triage.Listing

structure Fault where
  line : Nat
  deriving DecidableEq, Repr

def addLine (items : List (String × Entry)) (line : List Char) : Option (List (String × Entry)) :=
  match line, items with
  | [], _ => some items
  | '|' :: ' ' :: text, (path, .file content) :: items =>
    some ((path, .file (content ++ Text.Utf8.encode text ++ [10])) :: items)
  | '+' :: ' ' :: text, (path, .file content) :: items =>
    some ((path, .file (content ++ Text.Utf8.encode text)) :: items)
  | '>' :: ' ' :: target, (path, .link _) :: items =>
    some ((path, .link (String.ofList target)) :: items)
  | line, items =>
    let path := String.ofList (line.drop 5)
    if "file ".toList.isPrefixOf line then some ((path, .file []) :: items)
    else if "link ".toList.isPrefixOf line then some ((path, .link "") :: items)
    else if "dir ".toList.isPrefixOf line then some ((String.ofList (line.drop 4), .dir) :: items)
    else none

def items (known : List (String × Entry)) : (n : Nat) → List (List Char) →
    Except Fault (List (String × Entry))
  | _, [] => .ok known.reverse
  | n, line :: lines =>
    match addLine known line with
    | some known => items known (n + 1) lines
    | none => .error ⟨n⟩

/-- The tree that a listing describes, with the programs that every machine has. -/
def tree (here : Location) (text : String) : Except Fault FileTree := do
  let entries ← items [] 1 (Text.splitAt '\n' text.toList)
  return entries.foldl (fun t (path, e) => t.put here path e) (FileTree.image.set here .dir)

end Triage.Listing
