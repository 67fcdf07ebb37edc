import Triage.FileTree
import Triage.Shell.Pattern

namespace Triage.Shell

def plainText (field : List Mark) : String := String.ofList (field.map (·.1))

def fieldParts (field : List Mark) : List (List Mark) :=
  field.foldr (fun x parts => match parts with
    | [] => [[x]]
    | p :: ps => if x.1 = '/' then [] :: p :: ps else (x :: p) :: ps) [[]]

def pathsMatching (t : FileTree) (here : Location) (start : String) : List (List Mark) → List String
  | [] => [start]
  | part :: rest =>
    let p := Pattern.ofMarks part
    let onward (name : String) : List String :=
      pathsMatching t here (if rest.isEmpty then start ++ name else start ++ name ++ "/") rest
    if p.active then
      match t.dirAt? here (if start.isEmpty then "." else start) with
      | none => []
      | some dir =>
        let hidden := part.head? = some ('.', false) ∨ part.head? = some ('.', true)
        let names := (if hidden then [".", ".."] else []) ++ t.names dir
        let names := names.filter fun name =>
          p.accepts name.toList && (hidden || name.toList.head? != some '.')
        (names.mergeSort fun a b => decide (a ≤ b)).flatMap onward
    else onward (plainText part)

/-- The file names that a field matches; a field that matches none stands for itself. -/
def fileNames (t : FileTree) (here : Location) (field : List Mark) : List String :=
  if (Pattern.ofMarks field).active then
    match (pathsMatching t here "" (fieldParts field)).filter fun path =>
        (t.find here path false).toBool with
    | [] => [plainText field]
    | names => names
  else [plainText field]

/-- An absolute path without `.`, and without `..` where a name stands before it. -/
def tidy (path : String) : String :=
  let names := (FileTree.parts path).foldl (fun names part =>
    if part = "." then names
    else if part = ".." then names.dropLast
    else names ++ [part]) []
  "/" ++ Path.joinNames names

/-- The words of a line for `count` variables; the last one gets all that is left. -/
def readWords (separators : List Char) : (count : Nat) → List Mark → List String
  | 0, _ => []
  | count + 1, line =>
    let isSep (x : Mark) : Bool := separators.contains x.1 && !x.2
    let isWhite (x : Mark) : Bool := isSep x && " \t\n".toList.contains x.1
    let line := line.dropWhile isWhite
    if count = 0 then [plainText (line.reverse.dropWhile isWhite).reverse]
    else
      let word := line.takeWhile (!isSep ·)
      let rest := (line.drop word.length).dropWhile isWhite
      let rest := if (rest.head?.map isSep).getD false then rest.drop 1 else rest
      plainText word :: readWords separators count rest

end Triage.Shell
