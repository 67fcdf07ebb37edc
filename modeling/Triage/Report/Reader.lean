import Triage.Report.Summary

/-!
Reading a summary line by line.  Behind the statistics, a line that starts with the name of a status
and an opening bracket is a heading, and one that starts with two spaces and a slash is a file; all
other lines say nothing.
-/

namespace Triage.Report
open Text

inductive Mark
  | heading (status : Status) (count : Nat)
  | file (name : String)
  deriving DecidableEq, Repr

namespace Mark

def headingOf? (line : List Char) (s : Status) : Option Mark :=
  (stripPrefix? (s.name.toList ++ [' ', '(']) line).map fun rest =>
    heading s (Nat.ofDigitChars 10 (rest.takeWhile Char.isDigit) 0)

def ofLine? (line : List Char) : Option Mark :=
  match stripPrefix? [' ', ' ', '/'] line with
  | some name => some (file (String.ofList ('/' :: name)))
  | none => Status.all.findSome? (headingOf? line)

def ofText (text : List Char) : List Mark := (splitAt '\n' text).filterMap ofLine?

end Mark

def behindEmpty (ls : List (List Char)) : List (List Char) := (ls.dropWhile (!·.isEmpty)).tail

/-- The headings and files of a summary.  The first empty line follows the title, and the second one
the statistics. -/
def read (text : String) : List Mark :=
  (behindEmpty (behindEmpty (splitAt '\n' text.toList))).filterMap Mark.ofLine?

end Triage.Report
