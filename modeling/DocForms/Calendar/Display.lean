import DocForms.Calendar.Iso
import DocForms.Text.Class

/-! Days and moments as people read them, and the numeric forms of a day that are read for display,
whose fields may lack their leading zeros. -/
namespace DocForms.Display
open Text

/-- A day as day, month and year; the year is written without leading zeros. -/
def dateChars (d : Date) : List Char :=
  Iso.padded 2 d.day ++ '/' :: Iso.padded 2 d.month ++ '/' :: Nat.toDigits 10 d.year

/-- A day as day, month and year. -/
def dateText (d : Date) : String := String.ofList (dateChars d)

/-- A moment as day, month, year, hour and minute. -/
def momentText (m : Moment) : String :=
  String.ofList (dateChars m.date ++
    ' ' :: Iso.padded 2 m.time.hour ++ ':' :: Iso.padded 2 m.time.minute)

/-- The spellings of a numeric field, in the order in which they are tried: each gives the class
of every character. -/
abbrev Field := List (List (Char → Bool))

/-- The characters from `a` to `b`. -/
def between (a b : Char) (c : Char) : Bool := decide (a ≤ c) && decide (c ≤ b)

/-- The year, in four digits. -/
def yearField : Field := [[isDigit, isDigit, isDigit, isDigit]]

/-- The month, from 1 to 12. -/
def monthField : Field :=
  [[(· == '1'), between '0' '2'], [(· == '0'), between '1' '9'], [between '1' '9']]

/-- The day of the month, from 1 to 31. -/
def dayField : Field :=
  [[(· == '3'), between '0' '1'], [between '1' '2', isDigit], [(· == '0'), between '1' '9'],
   [between '1' '9'], [(· == ' '), between '1' '9']]

/-- The hour, from 0 to 23. -/
def hourField : Field := [[(· == '2'), between '0' '3'], [between '0' '1', isDigit], [isDigit]]

/-- The minute, from 0 to 59. -/
def minuteField : Field := [[between '0' '5', isDigit], [isDigit]]

/-- The second, from 0 to 61. -/
def secondField : Field :=
  [[(· == '6'), between '0' '1'], [between '0' '5', isDigit], [isDigit]]

/-- The text split after a spelling, if the spelling begins it. -/
def spell? : List (Char → Bool) → List Char → Option (List Char × List Char)
  | [], cs => some ([], cs)
  | _ :: _, [] => none
  | p :: ps, c :: cs => if p c then (spell? ps cs).map fun r => (c :: r.1, r.2) else none

/-- The number in the first spelling of the field that begins the text, and the rest. -/
def Field.read? (f : Field) (cs : List Char) : Option (Nat × List Char) :=
  (f.findSome? fun spelling => spell? spelling cs).map fun r =>
    (r.1.foldl (fun n c => match digitValue? c with | some d => n * 10 + d | none => n) 0, r.2)

/-- The rest after an expected separator. -/
def after? (c : Char) : List Char → Option (List Char)
  | d :: rest => if d == c || d == c.toLower then some rest else none
  | [] => none

/-- The fields of a numeric form, each after its separator, that make up the whole text. -/
def readFields? : List (Char × Field) → List Char → Option (List Nat)
  | [], [] => some []
  | [], _ :: _ => none
  | (separator, field) :: more, cs => do
    let cs ← after? separator cs
    let (n, cs) ← field.read? cs
    let ns ← readFields? more cs
    some (n :: ns)

/-- The forms of a day for display: alone, with hour and minute, or with seconds as well. -/
def forms : List (List (Char × Field)) :=
  let day := [('-', monthField), ('-', dayField)]
  let minute := day ++ [('T', hourField), (':', minuteField)]
  [day, minute, minute ++ [(':', secondField)]]

/-- The day of a text in one of the forms; the numbers have to name a day and a time. -/
def readForm? (cs : List Char) (form : List (Char × Field)) : Option Date := do
  let (year, cs) ← yearField.read? cs
  let ns ← readFields? form cs
  let _ ← TimeOfDay.ofNumbers? (ns.getD 2 0) (ns.getD 3 0) (ns.getD 4 0) 0
  Date.ofNumbers? year (ns.getD 0 0) (ns.getD 1 0)

/-- The day that the first nineteen characters of a trimmed text show. -/
def readDate? (s : String) : Option Date :=
  let cs := (trimChars s.toList).take 19
  forms.findSome? (readForm? cs)

end DocForms.Display
