import DocForms.Calendar.Iso
import DocForms.Decimal.Notation
import DocForms.Text.Quoted
import DocForms.Value.Basic

/-! The text of a value in messages and in displayed documents. Values of a kept snapshot are shown
in their read-only form: its lists stand in round brackets and its inner records are marked. -/
namespace DocForms

/-- Whether a value belongs to a kept snapshot or is a plain payload. -/
inductive Custody where
  | kept | loose
deriving DecidableEq, Repr

/-- Texts joined by a comma and a space. -/
def commaList (parts : List String) : String := ", ".intercalate parts

/-- The text of an integer. -/
def integerText (n : Int) : String := toString n

/-- The truth values as they are shown. -/
def truthText (b : Bool) : String := if b then "True" else "False"

namespace Moment

/-- The quoted form of an offset. -/
def quotedOffset (o : Offset) : String :=
  if o.micros = 0 then "datetime.timezone.utc"
  else
    let days := o.micros.fdiv 86400000000
    let rest := o.micros.fmod 86400000000
    let seconds := rest / 1000000
    let micros := rest % 1000000
    let parts := (if days = 0 then [] else ["days=" ++ integerText days]) ++
      (if seconds = 0 then [] else ["seconds=" ++ integerText seconds]) ++
      (if micros = 0 then [] else ["microseconds=" ++ integerText micros])
    "datetime.timezone(datetime.timedelta(" ++ commaList parts ++ "))"

/-- The quoted form of a moment; seconds and microseconds are left out when they are zero. -/
def quoted (m : Moment) : String :=
  let t := m.time
  let numbers := [m.date.year, m.date.month, m.date.day, t.hour, t.minute] ++
    (if t.second = 0 && t.micro = 0 then [] else [t.second]) ++
    (if t.micro = 0 then [] else [t.micro])
  let offset := match m.offset with
    | none => []
    | some o => ["tzinfo=" ++ quotedOffset o]
  "datetime.datetime(" ++ commaList (numbers.map toString ++ offset) ++ ")"

end Moment

namespace Atom

/-- A scalar inside a list or record: texts are quoted and dates are marked as such. -/
def quoted : Atom → String
  | .null => "None"
  | .bool b => truthText b
  | .int n => integerText n
  | .float x => Decimal.text x
  | .text s => Text.quoted s
  | .date d => "datetime.date(" ++ commaList ([d.year, d.month, d.day].map toString) ++ ")"
  | .moment m => m.quoted

/-- A scalar on its own. -/
def display : Atom → String
  | .text s => s
  | .date d => Iso.dateText d
  | .moment m => String.ofList (Iso.writeMoment ' ' m)
  | a => a.quoted

end Atom

/-- The quoted form of a reference. -/
def LinkValue.quoted (l : LinkValue) : String :=
  "DocumentLinkValue(document_number=" ++ Text.quoted l.documentNumber ++
    ", document_type_id=" ++ Text.quoted l.documentTypeId ++
    ", link_type=<LinkType." ++ l.linkType.name.toUpper ++ ": " ++
    Text.quoted l.linkType.name ++ ">)"

/-- Items between brackets; a kept list with a single item ends in a comma. -/
def bracketed (c : Custody) (items : List String) : String :=
  match c, items with
  | .loose, items => "[" ++ commaList items ++ "]"
  | .kept, [item] => "(" ++ item ++ ",)"
  | .kept, items => "(" ++ commaList items ++ ")"

/-- Entries between braces. -/
def braced (entries : List String) : String := "\x7b" ++ commaList entries ++ "\x7d"

namespace Value

mutual

/-- A value inside another one. -/
def quoted (c : Custody) : Value → String
  | .atom a => a.quoted
  | .link l => l.quoted
  | .list items => bracketed c (quotedItems c items)
  | .record entries =>
    match c with
    | .kept => "mappingproxy(" ++ braced (quotedEntries c entries) ++ ")"
    | .loose => braced (quotedEntries c entries)

/-- The items of a list. -/
def quotedItems (c : Custody) : List Value → List String
  | [] => []
  | v :: vs => quoted c v :: quotedItems c vs

/-- The entries of a record, each as key and value. -/
def quotedEntries (c : Custody) : List (Atom × Value) → List String
  | [] => []
  | (k, v) :: es => (k.quoted ++ ": " ++ quoted c v) :: quotedEntries c es

end

/-- A value on its own. -/
def display (c : Custody) : Value → String
  | .atom a => a.display
  | .link l => l.quoted
  | .list items => bracketed c (quotedItems c items)
  | .record entries => braced (quotedEntries c entries)

end Value
end DocForms
