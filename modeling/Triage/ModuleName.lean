import Triage.Path
import Triage.Text.Letters

namespace Triage.ModuleName
open Text

/-- The name of the file that stands for the directory that it lies in. -/
def packageFile : String := "__init__"

/-- A letter or an underscore, then letters, digits and underscores. -/
def isIdentifier (s : String) : Bool :=
  match s.toList with
  | [] => false
  | c :: cs => (isAlphabetic c || c == '_') && cs.all fun c => isAlphanumeric c || c == '_'

def stem? (extension fileName : String) : Option String :=
  (stripSuffix? ('.' :: extension.toList) fileName.toList).map String.ofList

/-- The parts of the name of the file with the components `below` under the root. -/
def parts? (below : List Component) (extension : String) : Option (List String) := do
  let texts := below.map Component.text
  let stem ← stem? extension (← texts.getLast?)
  return if stem = packageFile then texts.dropLast else texts.dropLast ++ [stem]

/-- The name of `path` as a module of the project at `root`. -/
def ofPath? (root path extension : String) : Option String := do
  let parts ← parts? (← Path.below? root path) extension
  if parts.isEmpty || !parts.all isIdentifier then none else some (".".intercalate parts)

end Triage.ModuleName
