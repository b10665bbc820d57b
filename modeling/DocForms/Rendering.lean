import DocForms.Calendar.Display
import DocForms.Schema.Record
import DocForms.Validation.Reading
import DocForms.Value.LinkReader
import DocForms.Value.Written

/-! How stored values are displayed in documents. A field shows its value by its kind; without a
field the value is shown by what it is. A very long integer has no text, so that a value that would
be shown with it cannot be displayed. -/
namespace DocForms

/-- How the values of a kind are displayed. -/
abbrev Renderer := Value → Option Field → Except Fault String

namespace Rendering

/-- The text of a kept value. -/
def shown (v : Value) : Except Fault String := v.written .kept

/-- Texts show as they are, and a missing value shows nothing. -/
def text (v : Value) : Except Fault String := if v.isNull then .ok "" else shown v

/-- The text of a binary number; an integral one has no fractional part. -/
def floatText (x : Binary64) : String :=
  match x.isInteger, x.truncate? with
  | true, some n => integerText n
  | _, _ => Decimal.text x

/-- A text that may be that of a number. -/
def numeral (s : String) : String :=
  if s = "" then ""
  else match Decimal.readFloat? (Text.trim s) with
    | some x => floatText x
    | none => s

/-- Numbers show without a needless fraction, also when they are stored as texts. -/
def number (v : Value) : Except Fault String :=
  match v with
  | .null => .ok ""
  | .text s => .ok (numeral s)
  | .float x => .ok (floatText x)
  | v => shown v

/-- A text that may be that of a day. -/
def dayText (s : String) : String :=
  if Text.isBlankText s then ""
  else match Display.readDate? s with
    | some d => Display.dateText d
    | none => s

/-- Days show as day, month and year. -/
def date (v : Value) : Except Fault String :=
  match v with
  | .null => .ok ""
  | .date d => .ok (Display.dateText d)
  | .moment m => .ok (Display.dateText m.date)
  | .text s => .ok (dayText s)
  | v => shown v

/-- A text that may be that of a moment. -/
def momentText (s : String) : String :=
  if Text.isBlankText s then ""
  else match (Value.text s).readMoment? with
    | some m => Display.momentText m
    | none => s

/-- Moments show as day, month, year, hour and minute. -/
def moment (v : Value) : Except Fault String :=
  match v with
  | .null => .ok ""
  | .moment m => .ok (Display.momentText m)
  | .text s => .ok (momentText s)
  | v => shown v

/-- A choice shows its label, if the field has one for it. -/
def select (v : Value) (field : Option Field) : Except Fault String :=
  if v.isNull then .ok ""
  else do
    let s ← shown v
    match (field.bind Field.choices?).bind (labelFor? · s) with
    | some label => return label
    | none => return s

/-- A box shows whether it is ticked. -/
def checkbox (v : Value) : String :=
  match v with
  | .null => ""
  | .text "" => ""
  | v => if v.isChecked then "Yes" else "No"

/-- What a file is shown as: its name, or else where it is. -/
def filePart : Value → Value
  | .record es => (Entries.get es "name").orElse ((Entries.get es "url").orElse (.text ""))
  | v => v

/-- A file shows its name, or else where it is. -/
def file (v : Value) : Except Fault String := if v.isNull then .ok "" else shown (filePart v)

/-- A reference shows the number of the document. -/
def link (v : Value) : Except Fault String :=
  if v.isNull then .ok ""
  else match LinkValue.ofValue? v with
    | some l => .ok l.documentNumber
    | none => shown v

/-- A value without a field shows as what it is. -/
def bare (v : Value) : Except Fault String :=
  match v with
  | .null => .ok ""
  | .bool _ => .ok (checkbox v)
  | .int _ => number v
  | .float _ => number v
  | .moment _ => moment v
  | .date _ => date v
  | v => link v

end Rendering

/-- The renderer of every kind. -/
abbrev Renderers := FieldKind → Renderer

namespace Renderers

/-- The renderers that hold unless another one is registered. -/
def standard : Renderers
  | .text => fun v _ => Rendering.text v
  | .textarea => fun v _ => Rendering.text v
  | .number => fun v _ => Rendering.number v
  | .date => fun v _ => Rendering.date v
  | .datetime => fun v _ => Rendering.moment v
  | .select => Rendering.select
  | .checkbox => fun v _ => .ok (Rendering.checkbox v)
  | .file => fun v _ => Rendering.file v
  | .documentLink => fun v _ => Rendering.link v

/-- The renderers with that of a kind replaced. -/
def register (rs : Renderers) (kind : FieldKind) (r : Renderer) : Renderers :=
  fun k => if k = kind then r else rs k

/-- The display of a value in a field, or on its own; a missing value shows nothing. -/
def render (rs : Renderers) (v : Value) (field : Option Field) : Except Fault String :=
  if v.isNull then .ok ""
  else match field with
    | some f => rs f.kind v (some f)
    | none => Rendering.bare v

end Renderers
end DocForms
