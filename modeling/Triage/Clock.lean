namespace Triage

/-- Nanoseconds. -/
abbrev Duration := Nat

abbrev Time := Nat

namespace Clock

def micros (n : Nat) : Duration := 1000 * n

def millis (n : Nat) : Duration := 1000000 * n

def seconds (n : Nat) : Duration := 1000000000 * n

/-- The first second that a clock cannot hold. -/
def limit : Nat := Nat.pow 2 63

/-- The moment that lies `d` after `now`, if the clock can hold it. -/
def deadline? (now : Time) (d : Duration) : Option Time :=
  let t := now + d
  if t / 1000000000 < limit then some t else none

theorem deadline?_eq_some {now t : Time} {d : Duration} :
    deadline? now d = some t ↔ t = now + d ∧ (now + d) / 1000000000 < Nat.pow 2 63 := by
  simp only [deadline?, Option.ite_none_right_eq_some, Option.some.injEq]
  rw [and_comm, eq_comm (a := t)]
  rfl

end Clock
end Triage
