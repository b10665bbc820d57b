import DocForms.Decimal.Reader
import DocForms.Fault
import DocForms.Text.Class
import DocForms.Value.Basic

/-! Reading payloads of unknown shape: the parts of a value, and the failures when it has none. -/
namespace DocForms.Value

/-- The entries of a record; other values have none. -/
def entries : Value → Except Fault Entries
  | .record es => .ok es
  | _ => misuse .member

/-- The value under a name in a record. -/
def field (v : Value) (name : String) : Except Fault Value := do
  let es ← v.entries
  return Entries.get es name

/-- A text without the white space around it; a value that says nothing counts as empty. -/
def trimmed (v : Value) : Except Fault String :=
  match v.orElse (.text "") with
  | .text s => .ok (Text.trim s)
  | _ => misuse .member

/-- The integer that a value stands for: numbers are cut toward zero and texts are read. -/
def toInteger : Value → Except Fault Int
  | .int n => .ok n
  | .bool b => .ok (if b then 1 else 0)
  | .float x =>
    match x with
    | .nan => misuse .content
    | .infinite _ => misuse .magnitude
    | x => .ok (x.truncate?.getD 0)
  | .text s =>
    match Decimal.readInt? s with
    | some n => .ok n
    | none => misuse .content
  | _ => misuse .operand

/-- The binary number that a value stands for: integers are rounded and texts are read. -/
def toFloat : Value → Except Fault Binary64
  | .int n =>
    match Binary64.ofInt? n with
    | some x => .ok x
    | none => misuse .magnitude
  | .bool b => .ok (Binary64.ofFraction false (if b then 1 else 0) 1)
  | .float x => .ok x
  | .text s =>
    match Decimal.readFloat? s with
    | some x => .ok x
    | none => misuse .content
  | _ => misuse .operand

/-- The key of a record that a value can be; lists and records are no keys, and no record is
keyed by references. -/
def key? : Value → Except Fault (Option Atom)
  | .atom a => .ok (some a)
  | .link _ => .ok none
  | _ => misuse .operand

/-- The values that a value consists of when it is gone through. -/
def elements : Value → Except Fault (List Value)
  | .list vs => .ok vs
  | .text s => .ok (s.toList.map fun c => .text (String.singleton c))
  | .record es => .ok (es.map fun e => .atom e.1)
  | _ => misuse .operand

/-- The entry that a two-element value stands for. -/
def pair (v : Value) : Except Fault (Atom × Value) := do
  match ← v.elements with
  | [k, w] =>
    match ← k.key? with
    | some a => return (a, w)
    | none => misuse .operand
  | _ => misuse .content

/-- The entries that changes to a record consist of: those of a record, or the pairs of a list. -/
def changes : Value → Except Fault Entries
  | .record es => .ok es
  | v => do (← v.elements).mapM pair

end DocForms.Value
