import DocForms.Schema.Constraint

/-! What the body of an answer can carry. It is written as JSON when the action has been carried out:
keys are put in order and become texts, and days and moments are told in universal time. References,
keys that cannot be compared and very long integers cannot be written. -/
namespace DocForms

/-- Whether a moment can be told in universal time, which goes from year 1 to year 9999. -/
def Moment.isUniversal (m : Moment) : Bool :=
  match m.offset with
  | none => true
  | some o =>
    let instant := m.clockMicros - o.micros
    decide (86400000000 ≤ instant) && decide (instant < 3652060 * 86400000000)

/-- Whether a scalar can be written in a body. -/
def Atom.isWritable : Atom → Bool
  | .moment m => m.isUniversal
  | a => a.hasText

/-- Whether a scalar can be written as a key. -/
def Atom.isWritableKey (k : Atom) : Bool := k.jsonKey?.isSome && k.hasText

namespace Value

mutual

/-- Whether a value can be written in a body. -/
def isWritable : Value → Bool
  | .atom a => a.isWritable
  | .link _ => false
  | .list items => itemsWritable items
  | .record entries => (Entries.sorted? entries).isSome && entriesWritable entries

/-- Whether the items of a list can be written. -/
def itemsWritable : List Value → Bool
  | [] => true
  | v :: vs => isWritable v && itemsWritable vs

/-- Whether the keys and the values of a record can be written. -/
def entriesWritable : List (Atom × Value) → Bool
  | [] => true
  | (k, v) :: es => k.isWritableKey && isWritable v && entriesWritable es

end

end Value
end DocForms
