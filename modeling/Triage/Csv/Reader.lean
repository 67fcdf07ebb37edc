import Triage.Csv

/-!
Reading comma-separated values, one character after the other.  A field stands between quotes, and a
quote inside it is written twice; or it is bare, with no quote, comma or line feed in it.  A comma
separates fields, and a line feed ends a record, but for the last one, which may lack it.
-/

namespace Triage.Csv

inductive Spot
  | record
  | field
  | bare
  | quoted
  /-- Behind a quote in a quoted field: it ends the field, unless another quote follows. -/
  | closed
  deriving DecidableEq, Repr

/-- What has been read: the field that the reader is in, the fields in front of it and the records
in front of those, each with the last one first. -/
structure Reader where
  spot : Spot := .record
  chars : List Char := []
  fields : List String := []
  records : List (List String) := []
  deriving DecidableEq, Repr

namespace Reader

def add (r : Reader) (spot : Spot) (c : Char) : Reader := { r with spot, chars := c :: r.chars }

def endField (r : Reader) : Reader :=
  { r with spot := .field, chars := [], fields := String.ofList r.chars.reverse :: r.fields }

def endRecord (r : Reader) : Reader :=
  { records := r.endField.fields.reverse :: r.records }

/-- Reads one character; none if it cannot stand where it does.  An empty line is no record. -/
def step (r : Reader) (c : Char) : Option Reader :=
  match r.spot, c with
  | .quoted, '"' => some { r with spot := .closed }
  | .quoted, c => some (r.add .quoted c)
  | .closed, '"' => some (r.add .quoted '"')
  | .bare, '"' => none
  | _, '"' => some { r with spot := .quoted }
  | _, ',' => some r.endField
  | .record, '\n' => some r
  | _, '\n' => some r.endRecord
  | .closed, _ => none
  | _, c => some (r.add .bare c)

def finish (r : Reader) : Option (List (List String)) :=
  match r.spot with
  | .quoted => none
  | .record => some r.records.reverse
  | _ => some r.endRecord.records.reverse

end Reader

def read (text : String) : Option (List (List String)) :=
  (text.toList.foldlM Reader.step {}).bind Reader.finish

end Triage.Csv
