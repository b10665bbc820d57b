import DocForms.Schema.Record
import DocForms.Snapshot
import DocForms.Value.Written

/-! The value store: the values of a document that is being authored, in the shape that its form
asks for. An ungrouped field holds one value, a simple group one row, and a repeatable group a list
of rows; only fields of the form hold values. -/
namespace DocForms

/-- Values by field name, in the order in which they were first set. -/
abbrev Row := List (String × Value)

namespace Row

/-- The value of a field, the missing value if it is not set. -/
def get (r : Row) (name : String) : Value := (r.lookup name).getD .null

/-- Sets a field: in its place if it is set already, else at the end. -/
def set (name : String) (v : Value) : Row → Row
  | [] => [(name, v)]
  | (n, w) :: r => if n == name then (n, v) :: r else (n, w) :: set name v r

/-- The row as a value. -/
def toValue (r : Row) : Value := .named r

end Row

/-- The values of a group. -/
inductive GroupValues where
  | row (r : Row)
  | rows (rs : List Row)
deriving DecidableEq

namespace GroupValues

/-- What a group holds at first: one empty row. -/
def initial (g : FieldGroup) : GroupValues := if g.repeatable then .rows [[]] else .row []

/-- The rows of a group; a simple group has one. -/
def toRows : GroupValues → List Row
  | .row r => [r]
  | .rows rs => rs

/-- The values as a value. -/
def toValue : GroupValues → Value
  | .row r => r.toValue
  | .rows rs => .list (rs.map Row.toValue)

end GroupValues

/-- The values collected for a form. -/
structure Store where
  form : Form
  simple : Row
  groups : List (String × GroupValues)
deriving DecidableEq

namespace Store

/-- The store of a form before anything is entered. -/
def empty (form : Form) : Store :=
  ⟨form, [], form.groups.map fun g => (g.name, .initial g)⟩

/-- The values of a group. -/
def groupValues (s : Store) (name : String) : GroupValues := (s.groups.lookup name).getD (.row [])

/-- Replaces the values of a group. -/
def setGroup (s : Store) (name : String) (v : GroupValues) : Store :=
  { s with groups := s.groups.map fun g => if g.1 == name then (name, v) else g }

/-- The group with a name, which has to be repeatable or not, as asked for. -/
def requireGroup (s : Store) (name : String) (repeatable : Bool) : Except Fault FieldGroup :=
  match s.form.group? name with
  | none => refuse (.noSuchGroup name)
  | some g => if g.repeatable = repeatable then .ok g else refuse (.groupShape name g.repeatable)

/-- Refuses a name that no field of the group has. -/
def requireMember (g : FieldGroup) (field : String) : Except Fault Unit :=
  if (g.field? field).isSome then .ok () else refuse (.notMember field g.name)

/-- The position of an existing row. Only an integer names a row. -/
def requireRow (group : String) (count : Nat) (index : Value) : Except Fault Nat :=
  match index with
  | .int n =>
    if 0 ≤ n ∧ n < count then .ok n.toNat
    else do refuse (.noSuchRow group (← index.written .loose) count)
  | _ => do refuse (.noSuchRow group (← index.written .loose) count)

/-- Sets the value of an ungrouped field. -/
def setSimple (s : Store) (field : String) (v : Value) : Except Fault Store :=
  if (s.form.field? field).isSome then .ok { s with simple := s.simple.set field v }
  else refuse (.notUngrouped field)

/-- Sets a value in the row of a simple group. -/
def setMember (s : Store) (group field : String) (v : Value) : Except Fault Store := do
  let g ← s.requireGroup group false
  requireMember g field
  match s.groupValues group with
  | .row r => return s.setGroup group (.row (r.set field v))
  | .rows _ => return s

/-- Sets a value in an existing row of a repeatable group. -/
def setCell (s : Store) (group : String) (row : Value) (field : String) (v : Value) :
    Except Fault Store := do
  let g ← s.requireGroup group true
  requireMember g field
  let rs := (s.groupValues group).toRows
  let i ← requireRow group rs.length row
  return s.setGroup group (.rows (rs.modify i (·.set field v)))

/-- Appends an empty row to a repeatable group and gives its position. -/
def addRow (s : Store) (group : String) : Except Fault (Store × Nat) := do
  let _ ← s.requireGroup group true
  let rs := (s.groupValues group).toRows
  return (s.setGroup group (.rows (rs ++ [[]])), rs.length)

/-- Removes a row; the rows after it move up. -/
def removeRow (s : Store) (group : String) (row : Value) : Except Fault Store := do
  let _ ← s.requireGroup group true
  let rs := (s.groupValues group).toRows
  let i ← requireRow group rs.length row
  return s.setGroup group (.rows (rs.eraseIdx i))

/-! ### Loading -/

/-- The entries of a record whose names are fields of the group. -/
def knownRow (g : FieldGroup) (es : Entries) : Row :=
  es.filterMap fun
    | (.text name, v) => if (g.field? name).isSome then some (name, v) else none
    | _ => none

/-- The rows that a list of records holds, if it is one. -/
def rowList? (g : FieldGroup) : List Value → Option (List Row)
  | [] => some []
  | .record es :: vs => (rowList? g vs).map (knownRow g es :: ·)
  | _ :: _ => none

/-- The values of a group from authored ones. -/
def groupOf (g : FieldGroup) (v : Value) : Except Fault GroupValues :=
  if g.repeatable then
    match v with
    | .list vs =>
      match rowList? g vs with
      | some rs => .ok (.rows rs)
      | none => refuse (.rowsExpected g.name)
    | _ => refuse (.rowsExpected g.name)
  else
    match v with
    | .record es => .ok (.row (knownRow g es))
    | _ => refuse (.rowExpected g.name)

/-- Takes over one authored entry. Names that the form does not know are dropped, and a missing
value leaves a group as it is. -/
def loadEntry (s : Store) (key : Atom) (v : Value) : Except Fault Store :=
  match key with
  | .text name =>
    match s.form.group? name with
    | none =>
      if (s.form.field? name).isSome then .ok { s with simple := s.simple.set name v } else .ok s
    | some g =>
      if v.isNull then .ok s
      else do return s.setGroup name (← groupOf g v)
  | _ => .ok s

/-- Takes over entries up to the first that has the wrong shape; what came before it stays. -/
def loadEntries (s : Store) : Entries → Store × Option Fault
  | [] => (s, none)
  | (k, v) :: es =>
    match s.loadEntry k v with
    | .ok s => loadEntries s es
    | .error e => (s, some e)

/-- Replaces the content of the store by authored values. -/
def load (s : Store) (values : Value) : Store × Option Fault :=
  match values with
  | .record es => (empty s.form).loadEntries es
  | _ => (empty s.form, some (.misuse .member))

/-! ### Reading -/

/-- The value at an address, the missing value if it is not set. -/
def get (s : Store) (field : String) (group : Option String) (row : Value) : Except Fault Value :=
  match group with
  | none => .ok (s.simple.get field)
  | some name =>
    match s.form.group? name with
    | none => refuse (.noSuchGroup name)
    | some g =>
      let rs := (s.groupValues name).toRows
      if g.repeatable then do
        let i ← requireRow name rs.length row
        return (rs.getD i []).get field
      else .ok ((rs.headD []).get field)

/-- The number of rows of a repeatable group. -/
def rowCount (s : Store) (group : String) : Except Fault Nat := do
  let _ ← s.requireGroup group true
  return (s.groupValues group).toRows.length

/-- The current values. -/
def snapshot (s : Store) : Snapshot :=
  ⟨s.simple.toValue, .named (s.groups.map fun g => (g.1, g.2.toValue))⟩

end Store
end DocForms
