import DocForms.Calendar.Moment
import DocForms.Decimal.Reader
import DocForms.Value.Basic
import DocForms.Yaml.Cursor
import DocForms.Yaml.Tag

/-! The scalars that texts stand for under the tags of YAML. -/
namespace DocForms.Yaml

/-- A text is not what it is marked to be. -/
def unreadable {α : Type} (m : Misuse) : Except Defect α := .error (.misuse m)

/-- The text without underscores. -/
def withoutUnderscores (s : String) : List Char := s.toList.filter (· != '_')

/-- The pieces of a text between colons. -/
def parts (cs : List Char) : List String := (String.ofList cs).splitOn ":"

/-! ### Integers -/

/-- The value of digits in a base; none if there is no digit or one that the base has not. -/
def inBase? (base : Nat) (cs : List Char) : Option Nat :=
  let digits := cs.map Json.hexValue?
  if cs.isEmpty then none
  else digits.foldlM (fun n d => d.bind fun d => if d < base then some (n * base + d) else none) 0

/-- An integer without sign: in base 2, 16, 8 or 10, or of parts in base 60. -/
def magnitude (cs : List Char) : Except Defect Int :=
  let ofBase (base : Nat) (cs : List Char) : Except Defect Int :=
    match inBase? base cs with
    | some n => .ok n
    | none => unreadable .content
  match cs with
  | [] => unreadable .index
  | ['0'] => .ok 0
  | '0' :: 'b' :: cs => ofBase 2 cs
  | '0' :: 'x' :: cs => ofBase 16 cs
  | '0' :: cs => ofBase 8 ('0' :: cs)
  | cs =>
    match (parts cs).mapM Decimal.readInt? with
    | some ns => .ok (ns.foldl (fun n m => n * 60 + m) 0)
    | none => unreadable .content

/-- The integer that a text stands for. -/
def readInt (s : String) : Except Defect Int :=
  match withoutUnderscores s with
  | [] => unreadable .index
  | '-' :: cs => (magnitude cs).map (-·)
  | '+' :: cs => magnitude cs
  | cs => magnitude cs

/-! ### Numbers with a point -/

/-- The sum of two finite numbers. -/
def plus (a b : Binary64) : Binary64 :=
  match a, b with
  | .finite p m e, .finite q n f =>
    let low := min e f
    let at_ (neg : Bool) (m : Nat) (e : Int) : Int :=
      (if neg then -1 else 1) * ((m * 2 ^ (e - low).toNat : Nat) : Int)
    let sum := at_ p m e + at_ q n f
    let (num, den) := Binary64.scaleBy sum.natAbs 1 (-low)
    Binary64.ofFraction (sum < 0) num den
  | .finite .., b => b
  | a, _ => a

/-- A number times an integer. -/
def times (a : Binary64) (n : Nat) : Binary64 :=
  match a with
  | .finite p m e =>
    let (num, den) := Binary64.scaleBy (m * n) 1 (-e)
    Binary64.ofFraction p num den
  | a => a

/-- The negative of a number. -/
def negated : Binary64 → Binary64
  | .nan => .nan
  | .infinite p => .infinite !p
  | .finite p m e => .finite (!p) m e

/-- A number without sign, of parts in base 60 if it has more than one; the last part counts
first. -/
def floatMagnitude (cs : List Char) : Except Defect Binary64 :=
  match (parts cs).mapM Decimal.readFloat? with
  | none => unreadable .content
  | some [x] => .ok x
  | some xs =>
    .ok (xs.reverse.zipIdx.foldl (fun sum x => plus sum (times x.1 (60 ^ x.2))) (.zero false))

/-- The number that a text stands for. -/
def readFloat (s : String) : Except Defect Binary64 :=
  let read (cs : List Char) : Except Defect Binary64 :=
    match String.ofList cs with
    | ".inf" => .ok (.infinite false)
    | ".nan" => .ok .nan
    | _ => floatMagnitude cs
  match (withoutUnderscores s).map Char.toLower with
  | [] => unreadable .index
  | '-' :: cs => (read cs).map negated
  | '+' :: cs => read cs
  | cs => read cs

/-! ### Days and moments -/

/-- One or two leading digits, or more if `most` allows, and the rest. -/
def digitsUpTo (least most : Nat) (cs : List Char) : Option (Nat × List Char) :=
  let ds := (cs.take most).takeWhile Char.isDigit
  if ds.length < least then none else some (Json.digitsValue ds, cs.drop ds.length)

/-- The rest of a text after a character. -/
def expect (c : Char) : List Char → Option (List Char)
  | d :: cs => if d == c then some cs else none
  | [] => none

/-- A fraction of a second in microseconds, cut after six digits, and the rest. -/
def fraction (cs : List Char) : Nat × List Char :=
  match cs with
  | '.' :: cs =>
    let (ds, rest) := cs.span Char.isDigit
    let ds := ds.take 6
    (Json.digitsValue ds * 10 ^ (6 - ds.length), rest)
  | cs => (0, cs)

/-- An offset from universal time in minutes, none if nothing is written. -/
def offsetMinutes? (cs : List Char) : Option (Option Int) :=
  match cs with
  | [] => some none
  | cs =>
    match cs.dropWhile isBlank with
    | ['Z'] => some (some 0)
    | sign :: cs =>
      if sign == '+' || sign == '-' then do
        let (hours, cs) ← digitsUpTo 1 2 cs
        let minutes ← (match cs with
          | [] => some 0
          | ':' :: cs => match digitsUpTo 2 2 cs with
            | some (m, []) => some m
            | _ => none
          | _ => none : Option Nat)
        let n : Int := hours * 60 + minutes
        return some (if sign == '-' then -n else n)
      else none
    | [] => none

/-- The numbers of a day and, perhaps, of a time with its offset. -/
structure Stamp where
  date : Nat × Nat × Nat
  time : Option (Nat × Nat × Nat × Nat × Option Int) := none

/-- The numbers that a text gives, if it has the notation of days and moments. -/
def Stamp.ofChars? (cs : List Char) : Option Stamp := do
  let (year, cs) ← digitsUpTo 4 4 cs
  let (month, cs) ← digitsUpTo 1 2 (← expect '-' cs)
  let (day, cs) ← digitsUpTo 1 2 (← expect '-' cs)
  let date := (year, month, day)
  match cs with
  | [] => return { date }
  | c :: rest =>
    let rest ← if c == 'T' || c == 't' then some rest
      else if isBlank c then some (rest.dropWhile isBlank) else none
    let (hour, cs) ← digitsUpTo 1 2 rest
    let (minute, cs) ← digitsUpTo 2 2 (← expect ':' cs)
    let (second, cs) ← digitsUpTo 2 2 (← expect ':' cs)
    let (micro, cs) := fraction cs
    return { date, time := some (hour, minute, second, micro, ← offsetMinutes? cs) }

/-- The day or moment with the given numbers. -/
def Stamp.toAtom (s : Stamp) : Except Defect Atom :=
  let (year, month, day) := s.date
  match Date.ofNumbers? year month day, s.time with
  | none, _ => unreadable .content
  | some d, none => .ok (.date d)
  | some d, some (hour, minute, second, micro, minutes) =>
    match TimeOfDay.ofNumbers? hour minute second micro,
        minutes.mapM fun n => Offset.ofMicros? (n * 60000000) with
    | some t, some o => .ok (.moment ⟨d, t, o⟩)
    | _, _ => unreadable .content

/-! ### Scalars -/

/-- The truth value that a text stands for. -/
def readBool (s : String) : Except Defect Bool :=
  match String.ofList (s.toList.map Char.toLower) with
  | "yes" => .ok true
  | "true" => .ok true
  | "on" => .ok true
  | "no" => .ok false
  | "false" => .ok false
  | "off" => .ok false
  | _ => unreadable .key

/-- The scalar that a text stands for under a tag. -/
def readAtom (tag : Tag) (s : String) : Except Defect Atom :=
  match tag with
  | .null => .ok .null
  | .bool => (readBool s).map .bool
  | .int => (readInt s).map .int
  | .float => (readFloat s).map .float
  | .timestamp =>
    match Stamp.ofChars? s.toList with
    | some t => t.toAtom
    | none => unreadable .member
  | .text => .ok (.text s)
  | _ => malformed

end DocForms.Yaml
