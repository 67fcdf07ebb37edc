import Triage.Json.Quoted

namespace Triage.Json

/-- What stands between the parts of a text: before each part at a depth of nesting, and between a
key and its value. -/
structure Layout where
  lineBreak : Nat → List Char
  afterColon : List Char

namespace Layout

def compact : Layout := ⟨fun _ => [], []⟩

def indented : Layout := ⟨fun depth => '\n' :: List.replicate (2 * depth) ' ', [' ']⟩

def bracket (l : Layout) (opening closing : Char) (depth : Nat) (parts : List (List Char)) :
    List Char :=
  if parts.isEmpty then [opening, closing]
  else
    opening :: List.intercalate [','] (parts.map (l.lineBreak (depth + 1) ++ ·)) ++
      l.lineBreak depth ++ [closing]

def field (l : Layout) (key value : String) : List Char :=
  quote key.toList ++ ':' :: l.afterColon ++ quote value.toList

def record (l : Layout) (depth : Nat) (fields : List (String × String)) : List Char :=
  l.bracket '{' '}' depth (fields.map fun (key, value) => l.field key value)

def records (l : Layout) (rs : List (List (String × String))) : List Char :=
  l.bracket '[' ']' 0 (rs.map (l.record 1))

end Layout
end Triage.Json
