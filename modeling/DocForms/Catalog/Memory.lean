import DocForms.Catalog.Document
import DocForms.Value.Same

/-! A catalog that holds its documents itself: at most one for every type and number. -/
namespace DocForms

/-- The documents of a catalog. -/
abbrev Shelf := List Document

namespace Shelf

/-- Puts a document in the place of the one with its type and number. A number that is a list or a
record cannot be looked up. -/
def add (s : Shelf) (d : Document) : Except Fault Shelf := do
  let _ ← d.number.key?
  return s.filter (fun e => !(e.typeId == d.typeId && e.number.same d.number)) ++ [d]

/-- The document of a type with a number. -/
def find? (s : Shelf) (typeId number : String) : Option Document :=
  List.find? (fun d => d.typeId == typeId && d.number == .text number) s

end Shelf
end DocForms
