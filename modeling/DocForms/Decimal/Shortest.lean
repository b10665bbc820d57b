import DocForms.Decimal.Binary64

/-! The fewest decimal digits that read back as the same binary number, and a number rounded to a
fixed count of significant digits. Both work on exact fractions. -/
namespace DocForms.Decimal

/-- The significant digits of a positive number and the power of ten of the first of them. -/
structure Significant where
  digits : List Char
  power : Int
deriving DecidableEq, Repr

/-- The fraction `m * 2 ^ e`. -/
def fractionOf (m : Nat) (e : Int) : Nat × Nat :=
  if 0 ≤ e then (m * 2 ^ e.toNat, 1) else (m, 2 ^ (-e).toNat)

/-- The power of ten of the leading digit of the positive fraction `n / d`. -/
def leadingPower (n d : Nat) : Int :=
  if d ≤ n then ((Nat.toDigits 10 (n / d)).length : Int) - 1
  else
    let j := (Nat.toDigits 10 (d / n)).length - 1
    if d ≤ n * 10 ^ j then -(j : Int) else -(j : Int) - 1

/-- `n / d` times a power of ten, as a fraction. -/
def shiftTen (n d : Nat) (p : Int) : Nat × Nat :=
  if 0 ≤ p then (n * 10 ^ p.toNat, d) else (n, d * 10 ^ (-p).toNat)

/-- Digits without the zeros at the end. -/
def dropZeros (ds : List Char) : List Char := (ds.reverse.dropWhile (· == '0')).reverse

/-- The significant digits of the integer `c` that stands at the power of ten `p` of its last
digit. -/
def Significant.ofInteger (c : Nat) (p : Int) : Significant :=
  let ds := Nat.toDigits 10 c
  ⟨dropZeros ds, p + ds.length - 1⟩

/-- The best decimal of `count` digits among the two neighbours of `n / d`: one that `reads`
accepts, the nearer of two, the even one of two equally near. -/
def candidate? (reads : Nat → Int → Bool) (n d : Nat) (power : Int) (count : Nat) :
    Option Significant :=
  let last := power - count + 1
  let (a, b) := shiftTen n d (-last)
  let low := a / b
  let rest := a % b
  let lowReads := reads low last
  let highReads := rest != 0 && reads (low + 1) last
  let high :=
    if lowReads && highReads then
      if 2 * rest < b then false else if b < 2 * rest then true else low % 2 == 1
    else highReads
  if high then some (.ofInteger (low + 1) last)
  else if lowReads then some (.ofInteger low last)
  else none

/-- The fewest digits that read back as the positive number `m * 2 ^ e`, and of those the
nearest. Seventeen digits are always enough. -/
def shortest (m : Nat) (e : Int) : Significant :=
  let (n, d) := fractionOf m e
  let power := leadingPower n d
  let reads (c : Nat) (p : Int) := Binary64.ofDecimal false c p == .finite false m e
  match (List.range 17).findSome? fun i => candidate? reads n d power (i + 1) with
  | some s => s
  | none => .ofInteger (Binary64.roundHalfEven n d) 0

/-- The positive number `m * 2 ^ e` rounded to `count` significant digits, a half going to the
even neighbour. -/
def rounded (m : Nat) (e : Int) (count : Nat) : Significant :=
  let (n, d) := fractionOf m e
  let last := leadingPower n d - count + 1
  let (a, b) := shiftTen n d (-last)
  .ofInteger (Binary64.roundHalfEven a b) last

end DocForms.Decimal
