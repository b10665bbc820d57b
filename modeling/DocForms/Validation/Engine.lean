import DocForms.Schema.Address
import DocForms.Snapshot
import DocForms.Validation.Validator

/-! Validation of a snapshot against its form. All problems are collected into one map from keys to
messages. A key keeps its first message, unless the shape or the row count of a group is reported
under it. -/
namespace DocForms

/-- Messages by key, in the order in which the keys were first reported. -/
abbrev ErrorMap := List (String × String)

namespace ErrorMap

/-- Reports a message unless the key has one already. -/
def report (key message : String) (es : ErrorMap) : ErrorMap :=
  if es.any (·.1 == key) then es else es ++ [(key, message)]

/-- Reports a message in place of one that the key may have. -/
def overwrite (key message : String) (es : ErrorMap) : ErrorMap :=
  if es.any (·.1 == key) then es.map fun e => if e.1 == key then (key, message) else e
  else es ++ [(key, message)]

/-- The message for a key. -/
def message? (es : ErrorMap) (key : String) : Option String := es.lookup key

end ErrorMap

namespace Validation

/-- The message if a required field lacks a usable value. A required box has to be ticked. -/
def missing? (f : Field) (v : Value) : Option String :=
  if !f.required then none
  else if f.kind = .checkbox then
    if v.isChecked then none else some (f.label ++ " must be checked")
  else if v.isBlank then some (f.label ++ " is required")
  else none

/-- The message of a value at a key, if the value is not acceptable. A field with defective
constraints accepts nothing; otherwise a blank value only fails if it is required. -/
def fieldProblem? (vs : Validators) (f : Field) (v : Value) (key : String)
    (links : ResolvedLinks) : Except Fault (Option String) :=
  match f.problems with
  | p :: _ => .ok (some ("Configuration error: " ++ p))
  | [] =>
    match missing? f v with
    | some m => .ok (some m)
    | none => if v.isBlank then .ok none else vs f.kind f v key links

/-- Checks a value and reports its problem. -/
def checkField (vs : Validators) (links : ResolvedLinks) (f : Field) (v : Value) (key : String)
    (es : ErrorMap) : Except Fault ErrorMap := do
  match ← fieldProblem? vs f v key links with
  | some m => return es.report key m
  | none => return es

/-- The message that a group has too few or too many rows, as `verb` says. -/
def countMessage (g : FieldGroup) (verb : String) (bound : Int) (count : Nat) :
    Except Fault (Option String) := do
  let bound ← (Value.int bound).written .loose
  return some (g.label ++ verb ++ bound ++ " row(s), got " ++ (← (Value.nat count).written .loose))

/-- The message about the number of rows, if it is out of bounds. -/
def countProblem? (g : FieldGroup) (count : Nat) : Except Fault (Option String) :=
  let (low, high) := g.rowBounds
  if (count : Int) < low then countMessage g " requires at least " low count
  else match high with
    | some h => if h < count then countMessage g " allows at most " h count else accept
    | none => accept

/-- The entries of a row; what is no record counts as an empty row. -/
def rowEntries : Value → Entries
  | .record es => es
  | _ => []

/-- The key under which a wrong number of rows is reported. -/
def countKey (g : FieldGroup) : String := g.name ++ "_count"

/-- Checks the fields of one row. -/
def checkRow (vs : Validators) (links : ResolvedLinks) (g : FieldGroup) (address : String → Address)
    (row : Entries) (es : ErrorMap) : Except Fault ErrorMap :=
  g.fields.foldlM (fun es f =>
    checkField vs links f (Entries.get row f.name) (address f.name).key es) es

/-- Checks the rows of a repeatable group. -/
def checkRows (vs : Validators) (links : ResolvedLinks) (g : FieldGroup) (rows : List Value)
    (es : ErrorMap) : Except Fault ErrorMap := do
  let es := match ← countProblem? g rows.length with
    | some m => es.overwrite (countKey g) m
    | none => es
  rows.zipIdx.foldlM (fun es (row, i) =>
    checkRow vs links g (.cell g.name i) (rowEntries row) es) es

/-- Checks the value of a group. A value of the wrong shape is reported under the group's name, and
none of its fields is checked. -/
def checkGroup (vs : Validators) (links : ResolvedLinks) (g : FieldGroup) (v : Value)
    (es : ErrorMap) : Except Fault ErrorMap :=
  match g.repeatable, v with
  | true, .null => checkRows vs links g [] es
  | true, .list rows => checkRows vs links g rows es
  | true, _ => .ok (es.overwrite g.name (g.label ++ " must be a list of rows"))
  | false, .null => checkRow vs links g (.member g.name) [] es
  | false, .record row => checkRow vs links g (.member g.name) row es
  | false, _ => .ok (es.overwrite g.name (g.label ++ " must be a single row"))

/-- The problems of a snapshot: ungrouped fields first, then group by group. -/
def problems (vs : Validators) (form : Form) (s : Snapshot) (links : ResolvedLinks) :
    Except Fault ErrorMap := do
  let es ← form.fields.foldlM (fun es f => do
    let v ← s.simple.field f.name
    checkField vs links f v (Address.top f.name).key es) []
  form.groups.foldlM (fun es g => do
    let v ← s.groups.field g.name
    checkGroup vs links g v es) es

end Validation
end DocForms
