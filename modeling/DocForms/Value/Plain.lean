import DocForms.Calendar.Iso
import DocForms.Value.Basic

/-! The plain form of a value, as it is stored and sent: days and moments become ISO texts and
references become records. -/
namespace DocForms

/-- A reference as a record. -/
def LinkValue.toValue (l : LinkValue) : Value :=
  .named [("documentNumber", .text l.documentNumber), ("documentTypeId", .text l.documentTypeId),
    ("linkType", .text l.linkType.name)]

/-- A scalar in plain form. -/
def Atom.plain : Atom → Atom
  | .date d => .text (Iso.dateText d)
  | .moment m => .text (Iso.momentText m)
  | a => a

namespace Value

mutual

/-- The plain form of a value. -/
def plain : Value → Value
  | .atom a => .atom a.plain
  | .link l => l.toValue
  | .list items => .list (plainItems items)
  | .record entries => .record (plainEntries entries)

/-- The plain forms of the items of a list. -/
def plainItems : List Value → List Value
  | [] => []
  | v :: vs => plain v :: plainItems vs

/-- The plain forms of the values of a record; keys stay as they are. -/
def plainEntries : List (Atom × Value) → List (Atom × Value)
  | [] => []
  | (k, v) :: es => (k, plain v) :: plainEntries es

end

end Value
end DocForms
