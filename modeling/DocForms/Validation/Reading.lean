import DocForms.Calendar.Iso
import DocForms.Decimal.Reader
import DocForms.Text.Class
import DocForms.Value.Basic

/-! What a stored value means to validation: a ticked box, a blank, a number, a day, a moment. -/
namespace DocForms.Value

/-- Whether a checkbox value counts as ticked. -/
def isChecked : Value → Bool
  | .bool b => b
  | .text s => s == "true"
  | v => match v.number? with
    | some n => n.eq (.int 1)
    | none => false

/-- Missing values and texts of white space. -/
def isBlank : Value → Bool
  | .null => true
  | .text s => Text.isBlankText s
  | _ => false

/-- The number that a value is or that its trimmed text stands for. -/
def readNumber? : Value → Option Number
  | .text s => (Decimal.readFloat? (Text.trim s)).map .float
  | v => v.number?

/-- The day that a value is or that the first ten characters of its text name; a moment stands for
itself. -/
def readDate? : Value → Option Atom
  | .date d => some (.date d)
  | .moment m => some (.moment m)
  | .text s =>
    (Iso.readDate? (String.ofList ((Text.trimChars s.toList).take 10))).map .date
  | _ => none

/-- A trimmed text whose final `Z` is written as an offset. -/
def momentText (s : String) : String :=
  let cs := Text.trimChars s.toList
  match cs.reverse with
  | 'Z' :: rest => String.ofList (rest.reverse ++ "+00:00".toList)
  | _ => String.ofList cs

/-- The moment that a value is or that its text stands for. -/
def readMoment? : Value → Option Moment
  | .moment m => some m
  | .text s => Iso.readMoment? (momentText s)
  | _ => none

end DocForms.Value
