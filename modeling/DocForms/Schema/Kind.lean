import DocForms.Fault
import DocForms.Value.Display

/-! The kinds of value that a field can hold. -/
namespace DocForms

/-- The kind of a field. -/
inductive FieldKind where
  | text | number | date | datetime | select | checkbox | textarea | file | documentLink
deriving DecidableEq, Repr, Inhabited

namespace FieldKind

/-- Every kind, in the order in which messages list them. -/
def all : List FieldKind :=
  [.text, .number, .date, .datetime, .select, .checkbox, .textarea, .file, .documentLink]

/-- The written name of a kind. -/
def name : FieldKind → String
  | .text => "text"
  | .number => "number"
  | .date => "date"
  | .datetime => "datetime"
  | .select => "select"
  | .checkbox => "checkbox"
  | .textarea => "textarea"
  | .file => "file"
  | .documentLink => "document_link"

/-- The kind with a written name. -/
def ofName? (s : String) : Option FieldKind := all.find? (·.name == s)

theorem ofName?_name (k : FieldKind) : ofName? k.name = some k := by cases k <;> decide

/-- The kind that a payload names. -/
def ofValue (v : Value) (field : Option String) : Except Fault FieldKind :=
  let unknown := refuse (.unknownKind (v.display .loose) field
    (Value.quoted .loose (.list (all.map fun k => .text k.name))))
  match v with
  | .text s =>
    match ofName? s with
    | some k => .ok k
    | none => unknown
  | _ => unknown

end FieldKind
end DocForms
