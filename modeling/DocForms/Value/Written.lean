import DocForms.Decimal.Reader
import DocForms.Fault
import DocForms.Value.Display

/-! Very long integers have no text, and neither have values that hold one. -/
namespace DocForms

/-- Whether a scalar has a text. -/
def Atom.hasText : Atom → Bool
  | .int n => decide (n.natAbs < 10 ^ Decimal.maxIntegerDigits)
  | _ => true

namespace Value

mutual

/-- Whether a value has a text. -/
def hasText : Value → Bool
  | .atom a => a.hasText
  | .link _ => true
  | .list items => itemsHaveText items
  | .record entries => entriesHaveText entries

/-- Whether the items of a list have texts. -/
def itemsHaveText : List Value → Bool
  | [] => true
  | v :: vs => hasText v && itemsHaveText vs

/-- Whether the keys and the values of a record have texts. -/
def entriesHaveText : List (Atom × Value) → Bool
  | [] => true
  | (k, v) :: es => k.hasText && hasText v && entriesHaveText es

end

/-- The text of a value on its own, if it has one. -/
def written (c : Custody) (v : Value) : Except Fault String :=
  if v.hasText then .ok (v.display c) else misuse .content

/-- The text of a value inside another one, if it has one. -/
def writtenQuoted (c : Custody) (v : Value) : Except Fault String :=
  if v.hasText then .ok (v.quoted c) else misuse .content

end Value
end DocForms
