import Triage.Text.Blank

namespace Triage.SearchPath

def separator : Char := ':'

inductive Fault
  | separatorInside
  deriving DecidableEq, Repr

def Fault.message : Fault → String
  | separatorInside =>
    "search path entry contains the path separator: path segment contains separator `:`"

def entries (value : String) : List String :=
  (Text.splitAt separator value.toList).map String.ofList

/-- `dirs` in front of the entries of an existing value; empty entries of that value are dropped. -/
def prepend (dirs : List String) (existing : Option String) : Except Fault String :=
  let inherited := ((existing.map entries).getD []).filter (!·.isEmpty)
  let all := dirs ++ inherited
  if all.any (·.toList.contains separator) then .error .separatorInside
  else .ok (":".intercalate all)

end Triage.SearchPath
