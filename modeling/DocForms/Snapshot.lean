import DocForms.Value.Access
import DocForms.Value.Equality
import DocForms.Value.Plain
import DocForms.Value.Same

/-! Snapshots: the values of a document at one time. Ungrouped fields are named directly; a group
holds one row of named values, or a list of such rows. -/
namespace DocForms

/-- The values of a document. Both parts are records when they come from a form. -/
structure Snapshot where
  simple : Value := .record []
  groups : Value := .record []
deriving DecidableEq

namespace Snapshot

/-- A snapshot of the given parts; a part that says nothing is empty. -/
def create (simple groups : Value) : Snapshot :=
  ⟨simple.orElse (.record []), groups.orElse (.record [])⟩

/-- The snapshot that a payload with both parts describes. -/
def ofValue (data : Value) : Except Fault Snapshot := do
  return create (← data.field "simple") (← data.field "groups")

/-- The value under a key in a record. -/
def lookup (v key : Value) : Except Fault Value := do
  let es ← v.entries
  match ← key.key? with
  | some a => return (Entries.lookup? a es).getD .null
  | none => return .null

/-- The row that an index names in a list of `count` rows; indices outside of it name none. -/
def rowAt? (count : Nat) (index : Value) : Except Fault (Option Nat) :=
  let inside (n : Int) : Option Nat := if 0 ≤ n ∧ n < count then some n.toNat else none
  match index with
  | .null => .ok none
  | .int n => .ok (inside n)
  | .bool b => .ok (inside (if b then 1 else 0))
  | .float x =>
    let within := !(Number.float x).lt (.int 0) && (Number.float x).lt (.int count) && x != .nan
    if within then misuse .operand else .ok none
  | _ => misuse .operand

/-- The value at an address: a field, perhaps of a group, perhaps of one of its rows; the missing
value if there is none. -/
def get (s : Snapshot) (field group row : Value) : Except Fault Value := do
  if group.isNull then lookup s.simple field
  else
    match ← lookup s.groups group with
    | .list rows =>
      match ← rowAt? rows.length row with
      | none => return .null
      | some i => lookup (rows.getD i .null) field
    | .record es => lookup (.record es) field
    | _ => return .null

/-- The snapshot as a payload. -/
def toValue (s : Snapshot) : Value :=
  .named [("simple", s.simple.plain), ("groups", s.groups.plain)]

/-- The values as they are authored: fields by name beside groups by name. -/
def toValues (s : Snapshot) : Except Fault Value := do
  let es ← s.simple.plain.entries
  let more ← s.groups.plain.changes
  return .record (Entries.merge es more)

/-- Whether two snapshots hold the same values. -/
def same (a b : Snapshot) : Bool := a.simple.same b.simple && a.groups.same b.groups

end Snapshot
end DocForms
