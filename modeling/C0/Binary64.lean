namespace C0.Binary64

/-- The bits of positive infinity. -/
def infinity : Nat :=
  0x7ff0000000000000

/-- The quotient of two numbers, rounded to the nearest integer. A half goes to the even one. -/
def roundDiv (n d : Nat) : Nat :=
  let q := n / d
  let twice := 2 * (n % d)
  if twice < d then q else if d < twice then q + 1 else q + q % 2

/-- The exponent of the largest power of two that is not above the quotient of two numbers. -/
def binade (n d : Nat) : Int :=
  let k := (n.log2 : Int) - d.log2
  if d * Nat.pow 2 k.toNat ≤ n * Nat.pow 2 (-k).toNat then k else k - 1

/-- The bits of the number closest to the quotient of two positive numbers. The quotient is
measured in units of the last place of its binade, or of the lowest binade if it lies below. A
rounding carry then runs on into the exponent, and what is too large becomes infinity. -/
def ofRatio (n d : Nat) : UInt64 :=
  let unit := max (binade n d - 52) (-1074)
  let significand := roundDiv (n * Nat.pow 2 (-unit).toNat) (d * Nat.pow 2 unit.toNat)
  UInt64.ofNat (min ((unit + 1074).toNat * Nat.pow 2 52 + significand) infinity)

/-- The bits of the number closest to `mantissa * 10 ^ exponent`. A power of ten has at least three
bits per digit, so a far exponent is settled without computing the power. -/
def ofDecimal (mantissa : Nat) (exponent : Int) : UInt64 :=
  if mantissa = 0 then 0
  else match exponent with
    | .ofNat k => if 342 ≤ k then UInt64.ofNat infinity else ofRatio (mantissa * Nat.pow 10 k) 1
    | .negSucc k =>
      if mantissa.log2 + 1077 ≤ 3 * (k + 1) then 0 else ofRatio mantissa (Nat.pow 10 (k + 1))

end C0.Binary64
