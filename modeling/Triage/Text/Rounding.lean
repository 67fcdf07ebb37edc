/-!
Ratios as they are computed and printed: rounded to 53 binary digits after each operation, and
written with a fixed number of decimal places.  In both a tie goes to the even neighbour.
-/

namespace Triage.Text

/-- The integer nearest `num / den`; a tie goes to the even one. -/
def roundDiv (num den : Nat) : Nat :=
  let q := num / den
  let r := num % den
  if den < 2 * r then q + 1
  else if 2 * r = den then q + q % 2
  else q

structure Ratio where
  num : Nat
  den : Nat

namespace Ratio

def ofNat (n : Nat) : Ratio := ⟨n, 1⟩

/-- The nearest number with at most 53 binary digits. -/
def toDouble (x : Ratio) : Ratio :=
  if x.num = 0 ∨ x.den = 0 then ⟨0, 1⟩
  else
    let up := x.den.log2 + 54 - x.num.log2
    let scaled := x.num * Nat.pow 2 up
    let drop := (scaled / x.den).log2 - 52
    ⟨roundDiv scaled (x.den * Nat.pow 2 drop) * Nat.pow 2 drop, Nat.pow 2 up⟩

def mul (x y : Ratio) : Ratio := toDouble ⟨x.num * y.num, x.den * y.den⟩

def div (x y : Ratio) : Ratio := toDouble ⟨x.num * y.den, x.den * y.num⟩

def add (x y : Ratio) : Ratio := toDouble ⟨x.num * y.den + y.num * x.den, x.den * y.den⟩

/-- `x` with `places` decimals. -/
def fixed (places : Nat) (x : Ratio) : String :=
  let n := roundDiv (x.num * Nat.pow 10 places) x.den
  let whole := toString (n / Nat.pow 10 places)
  let part := toString (n % Nat.pow 10 places)
  if places = 0 then whole
  else whole ++ "." ++ String.ofList (List.replicate (places - part.length) '0') ++ part

end Ratio

example : (Ratio.mk 1 4).fixed 1 = "0.2" := by decide +kernel
example : (Ratio.toDouble ⟨35, 100⟩).fixed 1 = "0.3" := by decide +kernel
example : (Ratio.mul (Ratio.div (.ofNat 2) (.ofNat 3)) (.ofNat 100)).fixed 2 = "66.67" := by
  decide +kernel

end Triage.Text
