import DocForms.Decimal.Binary64
import DocForms.Text.Class

/-! Numbers written by people: decimal digits of any script, with white space around them, an
optional sign, and single underscores between digits. -/
namespace DocForms.Decimal
open Text

/-- The longest integer text that is read or written. -/
def maxIntegerDigits : Nat := 4300

/-- The leading run of digits, where one underscore may stand between two digits: the values of
its digits and the rest. -/
def digitRun : List Char → List Nat × List Char
  | [] => ([], [])
  | [c] => match digitValue? c with
    | some d => ([d], [])
    | none => ([], [c])
  | c :: n :: rest =>
    match digitValue? c with
    | none => ([], c :: n :: rest)
    | some d =>
      if n == '_' then
        match digitRun rest with
        | ([], _) => ([d], n :: rest)
        | (ds, tail) => (d :: ds, tail)
      else
        let (ds, tail) := digitRun (n :: rest)
        (d :: ds, tail)

/-- The number that decimal digits stand for. -/
def ofDigits (ds : List Nat) : Nat := ds.foldl (fun n d => n * 10 + d) 0

/-- A leading sign, true for minus, and the rest. -/
def takeSign : List Char → Bool × List Char
  | '-' :: cs => (true, cs)
  | '+' :: cs => (false, cs)
  | cs => (false, cs)

/-- White space that may stand around a number. The four control characters that separate files,
groups, records and units are white space to trimming only. -/
def isPadding (c : Char) : Bool :=
  isBlank c && !(decide (0x1c ≤ c.toNat) && decide (c.toNat ≤ 0x1f))

/-- The integer that a text stands for. -/
def readInt? (s : String) : Option Int :=
  let (neg, cs) := takeSign (trimEnds isPadding s.toList)
  match digitRun cs with
  | ([], _) => none
  | (ds, []) =>
    if maxIntegerDigits < ds.length then none
    else some (if neg then -(ofDigits ds : Int) else ofDigits ds)
  | _ => none

/-- The exponent part of a decimal text, zero when there is none; none for anything else. -/
def readExponent? : List Char → Option Int
  | [] => some 0
  | c :: cs =>
    if c == 'e' || c == 'E' then
      let (neg, cs) := takeSign cs
      match digitRun cs with
      | ([], _) => none
      | (ds, []) => some (if neg then -(ofDigits ds : Int) else ofDigits ds)
      | _ => none
    else none

/-- A decimal without sign: digits, an optional fraction, an optional exponent. -/
def readUnsigned? (neg : Bool) (cs : List Char) : Option Binary64 :=
  let (whole, rest) := digitRun cs
  let (fraction, rest) := match rest with
    | '.' :: rest => digitRun rest
    | rest => ([], rest)
  if whole.isEmpty && fraction.isEmpty then none
  else (readExponent? rest).map fun e =>
    Binary64.ofDecimal neg (ofDigits (whole ++ fraction)) (e - fraction.length)

/-- The names of the numbers that are not finite. -/
def readName? (neg : Bool) (cs : List Char) : Option Binary64 :=
  match String.ofList (cs.map Char.toLower) with
  | "nan" => some .nan
  | "inf" => some (.infinite neg)
  | "infinity" => some (.infinite neg)
  | _ => none

/-- The binary number nearest to the decimal that a text stands for. -/
def readFloat? (s : String) : Option Binary64 :=
  let (neg, cs) := takeSign (trimEnds isPadding s.toList)
  (readName? neg cs).orElse fun _ => readUnsigned? neg cs

end DocForms.Decimal
