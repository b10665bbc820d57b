import DocForms.Value.Display
import DocForms.Value.Plain

/-! Values together with their custody. Each list and each record is kept, so that nobody can change
it, or loose. What is frozen is copied into kept lists and records throughout; what is thawed is
copied into loose ones, in plain form. -/
namespace DocForms

/-- A value each of whose lists and records is kept or loose. -/
inductive Held where
  | atom (a : Atom)
  | link (l : LinkValue)
  | list (c : Custody) (items : List Held)
  | record (c : Custody) (entries : List (Atom × Held))

namespace Value

mutual

/-- The value with all its lists and records in one custody. -/
def held (c : Custody) : Value → Held
  | .atom a => .atom a
  | .link l => .link l
  | .list items => .list c (heldItems c items)
  | .record entries => .record c (heldEntries c entries)

/-- The items of a list in one custody. -/
def heldItems (c : Custody) : List Value → List Held
  | [] => []
  | v :: vs => held c v :: heldItems c vs

/-- The values of a record in one custody. -/
def heldEntries (c : Custody) : List (Atom × Value) → List (Atom × Held)
  | [] => []
  | (k, v) :: es => (k, held c v) :: heldEntries c es

end

end Value

namespace Held

mutual

/-- The value alone. -/
def value : Held → Value
  | .atom a => .atom a
  | .link l => .link l
  | .list _ items => .list (valueItems items)
  | .record _ entries => .record (valueEntries entries)

/-- The items of a list as values. -/
def valueItems : List Held → List Value
  | [] => []
  | h :: hs => value h :: valueItems hs

/-- The entries of a record as values. -/
def valueEntries : List (Atom × Held) → List (Atom × Value)
  | [] => []
  | (k, h) :: es => (k, value h) :: valueEntries es

end

mutual

/-- A copy that is kept throughout. -/
def freeze : Held → Held
  | .atom a => .atom a
  | .link l => .link l
  | .list _ items => .list .kept (freezeItems items)
  | .record _ entries => .record .kept (freezeEntries entries)

/-- Kept copies of the items of a list. -/
def freezeItems : List Held → List Held
  | [] => []
  | h :: hs => freeze h :: freezeItems hs

/-- Kept copies of the values of a record. -/
def freezeEntries : List (Atom × Held) → List (Atom × Held)
  | [] => []
  | (k, h) :: es => (k, freeze h) :: freezeEntries es

end

mutual

/-- A copy in plain form that is loose throughout. -/
def thaw : Held → Held
  | .atom a => .atom a.plain
  | .link l => l.toValue.held .loose
  | .list _ items => .list .loose (thawItems items)
  | .record _ entries => .record .loose (thawEntries entries)

/-- Loose copies of the items of a list. -/
def thawItems : List Held → List Held
  | [] => []
  | h :: hs => thaw h :: thawItems hs

/-- Loose copies of the values of a record. -/
def thawEntries : List (Atom × Held) → List (Atom × Held)
  | [] => []
  | (k, h) :: es => (k, thaw h) :: thawEntries es

end

end Held
end DocForms
