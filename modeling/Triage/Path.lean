import Triage.Text.Blank

/-!
Paths as texts, and the components that they are made of.  Repeated slashes do not count, and
neither does a component `.` unless a relative path starts with it.
-/

namespace Triage

inductive Component
  | root
  | here
  | up
  | name (s : String)
  deriving DecidableEq, Repr

namespace Component

def text : Component → String
  | root => "/"
  | here => "."
  | up => ".."
  | name s => s

/-- The component that a part between slashes stands for, if it counts. -/
def ofPart? (part : List Char) : Option Component :=
  if part = [] ∨ part = ['.'] then none
  else if part = ['.', '.'] then some up
  else some (name (String.ofList part))

/-- The text of a component that stays when a path is made absolute. -/
def kept? : Component → Option String
  | name s => some s
  | up => some ".."
  | _ => none

def order : Component → Nat
  | root => 0
  | here => 1
  | up => 2
  | name _ => 3

instance : Ord Component where
  compare a b := match a, b with
    | name s, name t => compare s t
    | a, b => compare a.order b.order

end Component

namespace Path

def isAbsolute (p : String) : Bool := p.toList.head? = some '/'

def components (p : String) : List Component :=
  let parts := Text.splitAt '/' p.toList
  let start :=
    if isAbsolute p then [Component.root]
    else if parts.head? = some ['.'] then [Component.here]
    else []
  start ++ parts.filterMap Component.ofPart?

def joinNames (names : List String) : String := "/".intercalate names

def ofComponents : List Component → String
  | .root :: cs => "/" ++ joinNames (cs.map Component.text)
  | cs => joinNames (cs.map Component.text)

def join (dir name : String) : String :=
  if dir.isEmpty || dir.toList.getLast? = some '/' then dir ++ name else dir ++ "/" ++ name

def parent? (p : String) : Option String :=
  let cs := components p
  match cs.getLast? with
  | none | some .root => none
  | some _ => some (ofComponents cs.dropLast)

def fileName? (p : String) : Option String :=
  match (components p).getLast? with
  | some (.name s) => some s
  | _ => none

/-- What follows the last dot of a file name, unless only the first character is a dot. -/
def extensionOfName? (name : String) : Option String :=
  match Text.splitLast? ['.'] name.toList with
  | some (_ :: _, e) => some (String.ofList e)
  | _ => none

/-- The components of `p` below those of `root`. -/
def below? (root p : String) : Option (List Component) :=
  let r := components root
  let c := components p
  if r.isPrefixOf c then some (c.drop r.length) else none

/-- What an absolute path starts with: two slashes are kept, more are not. -/
def startOf : List Char → String
  | '/' :: '/' :: '/' :: _ => "/"
  | '/' :: '/' :: _ => "//"
  | _ => "/"

/-- `p` seen from the directory `dir`, without `.` and repeated slashes.  A slash at the end stays,
and so do two slashes at the start; the empty path has no such form. -/
def absolute? (dir p : String) : Option String :=
  if p.isEmpty then none
  else
    let start := if isAbsolute p then startOf p.toList else dir
    let names := (components p).filterMap Component.kept?
    let whole := names.foldl join start
    some (if p.toList.getLast? = some '/' then join whole "" else whole)

def le (p q : String) : Bool := (compare (components p) (components q)).isLE

end Path
end Triage
