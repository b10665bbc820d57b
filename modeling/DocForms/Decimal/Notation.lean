import DocForms.Decimal.Shortest

/-! Decimal texts of numbers. One record says how a style of text is laid out; the two styles used
are the full text, which reads back as the same number, and the text of bounds in messages. -/
namespace DocForms.Decimal

/-- How the digits of a binary number are laid out. -/
structure Layout where
  /-- The least power of ten of the leading digit that is written positionally. -/
  leastPositional : Int := -4
  /-- The least power of ten above that which is written with an exponent. -/
  leastExponential : Int
  /-- Whether an integral number written positionally ends in a point and a zero. -/
  keepPoint : Bool

/-- Full texts are positional below ten to the sixteenth and always show a point. -/
def fullLayout : Layout := ⟨-4, 16, true⟩

/-- Bounds in messages have six digits and are positional below a million. -/
def boundLayout : Layout := ⟨-4, 6, false⟩

/-- The count of significant digits that a bound in a message shows. -/
def boundDigits : Nat := 6

/-- An exponent with its sign and at least two digits. -/
def exponentText (p : Int) : List Char :=
  let ds := Nat.toDigits 10 p.natAbs
  'e' :: (if p < 0 then '-' else '+') :: (List.replicate (2 - ds.length) '0' ++ ds)

/-- Digits with the point after the first `whole` of them, filled with zeros up to the point. -/
def pointText (keepPoint : Bool) (ds : List Char) (whole : Nat) : List Char :=
  let before := ds.take whole ++ List.replicate (whole - ds.length) '0'
  match ds.drop whole with
  | [] => if keepPoint then before ++ ['.', '0'] else before
  | after => before ++ '.' :: after

/-- The digits laid out. -/
def Layout.write (l : Layout) (s : Significant) : List Char :=
  if s.power < l.leastPositional || l.leastExponential ≤ s.power then
    match s.digits with
    | [] => []
    | [d] => d :: exponentText s.power
    | d :: ds => d :: '.' :: ds ++ exponentText s.power
  else if s.power < 0 then
    '0' :: '.' :: (List.replicate ((-s.power).toNat - 1) '0' ++ s.digits)
  else pointText l.keepPoint s.digits (s.power.toNat + 1)

/-- The texts of the numbers that are not finite and of zero; other numbers get their sign before
the text of `digits`. -/
def writeWith (l : Layout) (digits : Nat → Int → Significant) : Binary64 → List Char
  | .nan => ['n', 'a', 'n']
  | .infinite neg => if neg then ['-', 'i', 'n', 'f'] else ['i', 'n', 'f']
  | .finite neg m e =>
    let body := if m = 0 then pointText l.keepPoint ['0'] 1 else l.write (digits m e)
    if neg then '-' :: body else body

/-- The shortest text that reads back as the same number. -/
def text (x : Binary64) : String := String.ofList (writeWith fullLayout shortest x)

/-- The text of a binary number in a message about a bound. -/
def boundText (x : Binary64) : String :=
  String.ofList (writeWith boundLayout (fun m e => rounded m e boundDigits) x)

end DocForms.Decimal
