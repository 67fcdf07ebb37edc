namespace Triage.Text

def clipMark : List Char := "...(truncated)".toList

/-- The first `limit` characters of `s`, marked if anything was cut. -/
def clip (limit : Nat) (s : List Char) : List Char :=
  if s.length ≤ limit then s else s.take limit ++ clipMark

theorem clip_of_length_le {limit : Nat} {s : List Char} (h : s.length ≤ limit) :
    clip limit s = s := if_pos h

theorem clip_of_lt_length {limit : Nat} {s : List Char} (h : limit < s.length) :
    clip limit s = s.take limit ++ clipMark := if_neg (Nat.not_le.2 h)

end Triage.Text
