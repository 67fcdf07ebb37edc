import Triage.Json.Value

set_option autoImplicit true

namespace Triage.Json

def White (w : List Char) : Prop := ∀ c ∈ w, isSpace c = true

theorem White.nil : White [] := nofun

/-- What may stand between two quotes, and the pieces it consists of. -/
inductive Body : List Char → List Piece → Prop
  | nil : Body [] []
  | plain (hq : c ≠ '"') (hb : c ≠ '\\') (hc : 0x20 ≤ c.toNat) (h : Body b ps) :
      Body (c :: b) (.char c :: ps)
  | short (he : escaped? e = some c) (h : Body b ps) : Body ('\\' :: e :: b) (.char c :: ps)
  | unit (hu : unit? x₁ x₂ x₃ x₄ = some n) (h : Body b ps) :
      Body ('\\' :: 'u' :: x₁ :: x₂ :: x₃ :: x₄ :: b) (.unit n :: ps)

/-- The pieces form a text: its characters stand for themselves or are given by their units in
UTF-16.  Not all pieces form one. -/
inductive Forms : List Piece → List Char → Prop
  | nil : Forms [] []
  | char (h : Forms ps s) : Forms (.char c :: ps) (c :: s)
  | unit (hc : c.toNat < 0x10000) (h : Forms ps s) : Forms (.unit c.toNat :: ps) (c :: s)
  | pair (hc : 0x10000 ≤ c.toNat) (h : Forms ps s) :
      Forms (.unit (0xD800 + (c.toNat - 0x10000) / 0x400) ::
        .unit (0xDC00 + (c.toNat - 0x10000) % 0x400) :: ps) (c :: s)

def Spells (b : List Char) (s : String) : Prop := ∃ ps, Body b ps ∧ Forms ps s.toList

def Digits (ds : List Char) : Prop := ds ≠ [] ∧ ∀ c ∈ ds, isDigit c = true

inductive Whole : List Char → Prop
  | zero : Whole ['0']
  | digits (hc : c ≠ '0') (h : Digits (c :: ds)) : Whole (c :: ds)

inductive Fraction : List Char → Prop
  | none : Fraction []
  | digits (h : Digits ds) : Fraction ('.' :: ds)

inductive Exponent : List Char → Prop
  | none : Exponent []
  | unsigned (he : e = 'e' ∨ e = 'E') (h : Digits ds) : Exponent (e :: ds)
  | signed (he : e = 'e' ∨ e = 'E') (hs : s = '+' ∨ s = '-') (h : Digits ds) :
      Exponent (e :: s :: ds)

inductive Magnitude : List Char → Prop
  | mk (hw : Whole w) (hf : Fraction f) (he : Exponent e) : Magnitude (w ++ (f ++ e))

structure Item where
  lead : List Char
  core : List Char
  trail : List Char

namespace Item

def chars (i : Item) : List Char := i.lead ++ (i.core ++ i.trail)

structure Spaced (i : Item) : Prop where
  lead : White i.lead
  trail : White i.trail

end Item

/-- A member of an object; the key is given by what stands between its quotes. -/
structure Member where
  lead : List Char
  key : List Char
  gap : List Char
  ahead : List Char
  value : List Char
  trail : List Char

namespace Member

def item (m : Member) : Item where
  lead := m.lead
  core := '"' :: (m.key ++ '"' :: (m.gap ++ ':' :: (m.ahead ++ m.value)))
  trail := m.trail

theorem item_append (m : Member) (s : List Char) :
    m.item.lead ++ (m.item.core ++ (m.item.trail ++ s)) = m.lead ++
      '"' :: (m.key ++ '"' :: (m.gap ++ ':' :: (m.ahead ++ (m.value ++ (m.trail ++ s))))) := by
  simp only [item, List.cons_append, List.append_assoc]

structure Spaced (m : Member) : Prop where
  lead : White m.lead
  key : ∃ ps, Body m.key ps
  gap : White m.gap
  ahead : White m.ahead
  trail : White m.trail

end Member

def bracketed (opening closing : Char) (w : List Char) (is : List Item) : List Char :=
  opening :: ((if is.isEmpty then w else [','].intercalate (is.map Item.chars)) ++ [closing])

inductive WellFormed : List Char → Prop
  | null : WellFormed ['n', 'u', 'l', 'l']
  | isTrue : WellFormed ['t', 'r', 'u', 'e']
  | isFalse : WellFormed ['f', 'a', 'l', 's', 'e']
  | positive (h : Magnitude m) : WellFormed m
  | negative (h : Magnitude m) : WellFormed ('-' :: m)
  | text (h : Body b ps) : WellFormed ('"' :: (b ++ ['"']))
  | list (hw : White w) {is : List Item} (hs : ∀ i ∈ is, i.Spaced)
      (hv : ∀ i ∈ is, WellFormed i.core) : WellFormed (bracketed '[' ']' w is)
  | object (hw : White w) {ms : List Member} (hs : ∀ m ∈ ms, m.Spaced)
      (hv : ∀ m ∈ ms, WellFormed m.value) : WellFormed (bracketed '{' '}' w (ms.map Member.item))

structure Object where
  gap : List Char
  members : List Member
  white : White gap
  spaced : ∀ m ∈ members, m.Spaced
  wellFormed : ∀ m ∈ members, WellFormed m.value

def Object.chars (o : Object) : List Char := bracketed '{' '}' o.gap (o.members.map Member.item)

structure Listing where
  gap : List Char
  items : List Item
  white : White gap
  spaced : ∀ i ∈ items, i.Spaced
  wellFormed : ∀ i ∈ items, WellFormed i.core

def Listing.chars (l : Listing) : List Char := bracketed '[' ']' l.gap l.items

def Listing.values (l : Listing) : List (List Char) := l.items.map Item.core

/-- The text is the value with white space around it. -/
def Holds (s : String) (v : List Char) : Prop :=
  ∃ a b, White a ∧ White b ∧ s.toList = a ++ (v ++ b)

end Triage.Json
