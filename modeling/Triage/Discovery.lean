import Triage.FileTree
import Triage.Settings

/-!
Finding the scripts below a directory.  Links are followed, except one to a directory that the way
to it already leads through; directories with an excluded name are left out.  A directory is opened
and a link is followed by the whole path that leads there.
-/

namespace Triage.Discovery

inductive Kind
  | script
  | dir
  | other
  deriving DecidableEq, Repr

/-- What `name` is in the last directory of `way`, to which `path` leads; `way` holds the directories
passed, the last one first. -/
def kind (t : FileTree) (s : Settings) (here : Location) (way : List Location) (dir : Location)
    (path name : String) : Kind :=
  match t.get? (dir ++ [name]) with
  | some .dir => enter
  | some (.link _) =>
    match t.find here (Path.join path name) with
    | .ok (l, .dir) => if way.contains l then .other else enter
    | .ok (_, e) => plain e
    | .error _ => .other
  | some e => plain e
  | none => .other
where
  enter : Kind := if s.isExcludedDir name then .other else .dir
  plain (e : Entry) : Kind :=
    if e.isFile && Path.extensionOfName? name = some s.extension then .script else .other

/-- The scripts below the directory that `path` leads to; `fuel` bounds the depth. -/
def scripts (t : FileTree) (s : Settings) (here : Location) :
    (fuel : Nat) → (way : List Location) → (path : String) → List String
  | 0, _, _ => []
  | fuel + 1, way, path =>
    match t.dirAt? here path with
    | none => []
    | some dir =>
      (t.names dir).flatMap fun name =>
        match kind t s here (dir :: way) dir path name with
        | .script => [Path.join path name]
        | .dir => scripts t s here fuel (dir :: way) (Path.join path name)
        | .other => []

/-- No way is longer: between two links it only goes down, and no link leads back to it. -/
def depthLimit (t : FileTree) : Nat := (t.entries.length + 2) * (t.entries.length + 2)

def collect (t : FileTree) (here : Location) (s : Settings) : List String :=
  (scripts t s here (depthLimit t) [] s.root).mergeSort Path.le

end Triage.Discovery
