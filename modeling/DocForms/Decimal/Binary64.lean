import DocForms.Natural

/-! Double precision numbers as exact data. A finite number is a sign, a mantissa below `2 ^ 53`
and a power of two, so that it can be compared, read and written without rounding. -/
namespace DocForms

/-- A binary number with 53 significant bits, an infinity, or the value that is no number. -/
inductive Binary64 where
  | nan
  | infinite (negative : Bool)
  | finite (negative : Bool) (mantissa : Nat) (exponent : Int)
deriving DecidableEq, Repr, Inhabited

namespace Binary64

/-- The least exponent of a finite number. -/
def minExponent : Int := -1074

/-- The greatest exponent of a finite number. -/
def maxExponent : Int := 971

/-- Zero with a sign. -/
def zero (negative : Bool) : Binary64 := .finite negative 0 minExponent

/-- `n / d` scaled by `2 ^ -e`, as a fraction. -/
def scaleBy (n d : Nat) (e : Int) : Nat × Nat :=
  if 0 ≤ e then (n, d * 2 ^ e.toNat) else (n * 2 ^ (-e).toNat, d)

/-- The exponent at which the mantissa of the positive fraction `n / d` has 53 bits, or the least
exponent for a smaller fraction. -/
def exponentOf (n d : Nat) : Int :=
  let k : Int := (Nat.log2 n : Int) - Nat.log2 d
  let atLeast := scaleBy n d k
  let e := if atLeast.2 ≤ atLeast.1 then k - 52 else k - 53
  max e minExponent

/-- The quotient rounded to the nearest integer, a half going to the even neighbour. -/
def roundHalfEven (n d : Nat) : Nat :=
  let q := n / d
  let r := n % d
  if 2 * r < d then q else if d < 2 * r then q + 1 else q + q % 2

/-- The number nearest to `± n / d`, ties going to the even mantissa. -/
def ofFraction (negative : Bool) (n d : Nat) : Binary64 :=
  if n = 0 || d = 0 then zero negative
  else
    let e := exponentOf n d
    let scaled := scaleBy n d e
    let m := roundHalfEven scaled.1 scaled.2
    let (m, e) := if m = 2 ^ 53 then (2 ^ 52, e + 1) else (m, e)
    if maxExponent < e then .infinite negative else .finite negative m e

/-- The number nearest to `± digits * 10 ^ power`. -/
def ofDecimal (negative : Bool) (digits : Nat) (power : Int) : Binary64 :=
  if digits = 0 then zero negative
  else
    let top : Int := (Nat.toDigits 10 digits).length + power
    if 310 < top then .infinite negative
    else if top < -326 then zero negative
    else if 0 ≤ power then ofFraction negative (digits * 10 ^ power.toNat) 1
    else ofFraction negative digits (10 ^ (-power).toNat)

/-- The number nearest to an integer; none if it lies beyond the finite numbers. -/
def ofInt? (n : Int) : Option Binary64 :=
  match ofFraction (n < 0) n.natAbs 1 with
  | .infinite _ => none
  | x => some x

/-- Whether the number is finite and has no fractional part. -/
def isInteger : Binary64 → Bool
  | .finite _ m e => decide (0 ≤ e) || m % 2 ^ (-e).toNat == 0
  | _ => false

/-- The integer part, cut toward zero; none for the numbers that are not finite. -/
def truncate? : Binary64 → Option Int
  | .finite neg m e =>
    let n : Nat := if 0 ≤ e then m * 2 ^ e.toNat else m / 2 ^ (-e).toNat
    some (if neg then -(n : Int) else n)
  | _ => none

/-- Whether the number equals zero. -/
def isZero : Binary64 → Bool
  | .finite _ m _ => m == 0
  | _ => false

end Binary64

/-- A number that a document can hold: an integer of any size or a binary number. -/
inductive Number where
  | int (n : Int)
  | float (x : Binary64)
deriving DecidableEq, Repr, Inhabited

namespace Number

/-- A finite number as `c * 2 ^ e`; none for the numbers that are not finite. -/
def parts? : Number → Option (Int × Int)
  | .int n => some (n, 0)
  | .float (.finite neg m e) => some (if neg then -(m : Int) else m, e)
  | .float _ => none

/-- The order of two numbers of the form `c * 2 ^ e`. -/
def compareParts (a b : Int × Int) : Ordering :=
  let low := min a.2 b.2
  compare (a.1 * 2 ^ (a.2 - low).toNat) (b.1 * 2 ^ (b.2 - low).toNat)

/-- The place of a number against every finite number: below, among, or above them. -/
def tier? : Number → Option Int
  | .int _ => some 0
  | .float .nan => none
  | .float (.infinite neg) => some (if neg then -1 else 1)
  | .float (.finite ..) => some 0

/-- The exact order of two numbers; none when one of them is no number. -/
def compare? (a b : Number) : Option Ordering :=
  match a.tier?, b.tier? with
  | some s, some t =>
    match a.parts?, b.parts? with
    | some p, some q => some (compareParts p q)
    | _, _ => some (compare s t)
  | _, _ => none

/-- Whether `a` is less than `b`. -/
def lt (a b : Number) : Bool := a.compare? b == some .lt

/-- Whether the two numbers are equal. -/
def eq (a b : Number) : Bool := a.compare? b == some .eq

/-- Whether the number is a finite one without fractional part. -/
def isInteger : Number → Bool
  | .int _ => true
  | .float x => x.isInteger

end Number
end DocForms
