import Triage.Text.Utf8

namespace Triage.Text

inductive Measure
  | lines
  | bytes
  deriving DecidableEq, Repr

structure Tail where
  measure : Measure := .lines
  count : Nat := 10
  /-- The count is that of the first line or byte, and not how many there are. -/
  fromStart : Bool := false
  deriving DecidableEq, Repr

namespace Tail

def lines : Bytes → List Bytes
  | [] => []
  | b :: bs =>
    if b = 10 then [b] :: lines bs
    else match lines bs with
      | [] => [[b]]
      | line :: rest => (b :: line) :: rest

def keep (t : Tail) (units : List α) : List α :=
  if t.fromStart then units.drop (t.count - 1) else units.drop (units.length - t.count)

def of (t : Tail) (bs : Bytes) : Bytes :=
  match t.measure with
  | .lines => (t.keep (lines bs)).flatten
  | .bytes => t.keep bs

end Tail
end Triage.Text
