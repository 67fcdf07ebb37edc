import Triage.FileTree
import Triage.Settings

namespace Triage

inductive SetupFault
  | rootMissing (path : String)
  | rootNotDirectory (path : String)
  | searchPathMissing (path : String)
  | rootUnresolvable (path reason : String)
  deriving DecidableEq, Repr

def SetupFault.message : SetupFault → String
  | rootMissing p => s!"project root does not exist: {p}"
  | rootNotDirectory p => s!"project root is not a directory: {p}"
  | searchPathMissing p => s!"search path directory does not exist: {p}"
  | rootUnresolvable p reason => s!"cannot resolve project root {p}: {reason}"

def Location.path (l : Location) : String := "/" ++ Path.joinNames l

def emptyPathReason : String := "cannot make an empty path absolute"

namespace Settings

/-- Checks the root, then the search path, and makes the root absolute. -/
def validate (s : Settings) (t : FileTree) (here : Location) : Except SetupFault Settings :=
  if !t.pathExists here s.root then .error (.rootMissing s.root)
  else if !t.isDir here s.root then .error (.rootNotDirectory s.root)
  else match Path.absolute? here.path s.root with
    | none => .error (.rootUnresolvable s.root emptyPathReason)
    | some root =>
      match s.searchPath with
      | none => .ok { s with root }
      | some dir =>
        if t.isDir here dir then .ok { s with root } else .error (.searchPathMissing dir)

theorem validate_eq_ok {s checked : Settings} {t : FileTree} {here : Location} :
    s.validate t here = .ok checked ↔
      t.pathExists here s.root = true ∧ t.isDir here s.root = true ∧
      (∀ dir, s.searchPath = some dir → t.isDir here dir = true) ∧
      ∃ root, Path.absolute? here.path s.root = some root ∧ checked = { s with root } := by
  unfold validate
  cases t.pathExists here s.root with
  | false => simp
  | true =>
    cases t.isDir here s.root with
    | false => simp
    | true =>
      cases Path.absolute? here.path s.root with
      | none => simp
      | some root =>
        cases s.searchPath with
        | none => simp [@eq_comm _ checked]
        | some dir => cases hd : t.isDir here dir <;> simp [hd, @eq_comm _ checked]

end Settings
end Triage
