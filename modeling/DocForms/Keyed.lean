/-! Values under names, in the order in which the names were first used. -/
namespace DocForms

/-- Values under names. -/
abbrev Keyed (α : Type) := List (String × α)

namespace Keyed
variable {α : Type}

/-- The value under a name. -/
def get? (m : Keyed α) (name : String) : Option α := m.lookup name

/-- Puts a value under a name: in its place if the name is in use, else at the end. -/
def put (m : Keyed α) (name : String) (a : α) : Keyed α :=
  match m with
  | [] => [(name, a)]
  | (n, b) :: m => if n == name then (n, a) :: m else (n, b) :: put m name a

/-- Takes a name out of use. -/
def erase (m : Keyed α) (name : String) : Keyed α := m.filter (·.1 != name)

/-- The names in use. -/
def names (m : Keyed α) : List String := m.map (·.1)

end Keyed
end DocForms
