import DocForms.Registry.Fields
import DocForms.Registry.Groups
import DocForms.Registry.Types

/-! New identifiers. Records get the identifier given for the operation, or else the next numbered
one. A type asks for its identifier at once, a field and a group when their type has been found. -/
namespace DocForms

/-- The supply of identifiers. -/
structure Ids where
  /-- The identifier for the next record, if one was given. -/
  given : Option String := none
  /-- How many numbered identifiers have been handed out. -/
  count : Nat := 0
deriving DecidableEq, Repr

namespace Ids

/-- The next identifier. -/
def take (s : Ids) : String × Ids :=
  match s.given with
  | some id => (id, { s with given := none })
  | none => ("id-" ++ toString (s.count + 1), { s with count := s.count + 1 })

end Ids

/-- An operation that may ask for identifiers; those handed out stay so when it fails. -/
abbrev Minting := ExceptT Fault (StateM Ids)

namespace Minting

/-- Asks for an identifier. -/
def newId : Minting String := ExceptT.lift (modifyGet Ids.take)

/-- An operation that asks for none. -/
def plain {α : Type} (e : Except Fault α) : Minting α := ExceptT.mk (pure e)

end Minting

namespace Registry

/-- Adds a type. -/
def defineType (r : Registry) (spec : Value) : Minting (Registry × DocumentType) := do
  let id ← Minting.newId
  Minting.plain (r.addType id spec)

/-- Adds a field to a type. -/
def defineField (r : Registry) (typeId : String) (spec : Value) (strict : Bool) :
    Minting (Registry × Field) := do
  let _ ← Minting.plain (r.requireType typeId)
  let id ← Minting.newId
  Minting.plain (r.addField typeId id spec strict)

/-- Adds a group to a type. -/
def defineGroup (r : Registry) (typeId : String) (spec : Value) : Minting (Registry × Group) := do
  let _ ← Minting.plain (r.requireType typeId)
  let id ← Minting.newId
  Minting.plain (r.addGroup typeId id spec)

end Registry
end DocForms
