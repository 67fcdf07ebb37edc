/-!
UTF-8.  Reading never fails: every longest run of bytes that could have started a character, but is
not one, is read as a single replacement character.
-/

namespace Triage

abbrev Bytes := List UInt8

namespace Text.Utf8

def encodeChar (c : Char) : Bytes :=
  let n := c.toNat
  if n < 0x80 then [n.toUInt8]
  else if n < 0x800 then [(0xC0 + n / 0x40).toUInt8, (0x80 + n % 0x40).toUInt8]
  else if n < 0x10000 then
    [(0xE0 + n / 0x1000).toUInt8, (0x80 + n / 0x40 % 0x40).toUInt8, (0x80 + n % 0x40).toUInt8]
  else
    [(0xF0 + n / 0x40000).toUInt8, (0x80 + n / 0x1000 % 0x40).toUInt8,
      (0x80 + n / 0x40 % 0x40).toUInt8, (0x80 + n % 0x40).toUInt8]

def encode (s : List Char) : Bytes := s.flatMap encodeChar

/-- What a byte at the start of a character asks of the bytes after it: the value of its own bits,
how many bytes follow, and the range of the first of them. -/
structure Lead where
  bits : Nat
  more : Nat
  low : Nat
  high : Nat

def lead? (b : UInt8) : Option Lead :=
  let n := b.toNat
  if 0xC2 ≤ n && n ≤ 0xDF then some ⟨n - 0xC0, 1, 0x80, 0xBF⟩
  else if n == 0xE0 then some ⟨0, 2, 0xA0, 0xBF⟩
  else if n == 0xED then some ⟨0xD, 2, 0x80, 0x9F⟩
  else if 0xE1 ≤ n && n ≤ 0xEF then some ⟨n - 0xE0, 2, 0x80, 0xBF⟩
  else if n == 0xF0 then some ⟨0, 3, 0x90, 0xBF⟩
  else if 0xF1 ≤ n && n ≤ 0xF3 then some ⟨n - 0xF0, 3, 0x80, 0xBF⟩
  else if n == 0xF4 then some ⟨4, 3, 0x80, 0x8F⟩
  else none

def replacement : Char := '\uFFFD'

/-- A character under way: the value so far, how many bytes it lacks, and the range of the next. -/
inductive Pending
  | none
  | lacking (value more low high : Nat)

structure Reader where
  read : List Char := []
  pending : Pending := .none

namespace Reader

def start (r : Reader) (b : UInt8) : Reader :=
  if b.toNat < 0x80 then ⟨Char.ofNat b.toNat :: r.read, .none⟩
  else match lead? b with
    | some l => ⟨r.read, .lacking l.bits l.more l.low l.high⟩
    | none => ⟨replacement :: r.read, .none⟩

def push (r : Reader) (b : UInt8) : Reader :=
  match r.pending with
  | .none => r.start b
  | .lacking value more low high =>
    if low ≤ b.toNat ∧ b.toNat ≤ high then
      let value := value * 0x40 + b.toNat % 0x40
      if more ≤ 1 then ⟨Char.ofNat value :: r.read, .none⟩
      else ⟨r.read, .lacking value (more - 1) 0x80 0xBF⟩
    else start ⟨replacement :: r.read, .none⟩ b

def finish (r : Reader) : List Char :=
  match r.pending with
  | .none => r.read.reverse
  | .lacking .. => (replacement :: r.read).reverse

end Reader

def decode (bs : Bytes) : List Char := (bs.foldl Reader.push {}).finish

end Text.Utf8
end Triage
