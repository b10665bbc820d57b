import DocForms.Value.Access
import DocForms.Value.Display
import DocForms.Value.Equality

/-! Documents as a catalog describes them. -/
namespace DocForms

/-- An existing document. Its number is kept as the catalog gave it. -/
structure Document where
  number : Value
  typeId : String
  status : Value := .null
  id : Option String := none
  /-- What else is known of it, in the order given. -/
  extra : Entries := []
deriving DecidableEq

namespace Document

/-- The names with a meaning of their own. -/
def known : List String := ["documentNumber", "documentTypeId", "status", "id"]

/-- A document from its description, which has to give a number and a type. -/
def ofValue (v : Value) : Except Fault Document :=
  match v with
  | .record es =>
    match Entries.get? es "documentNumber", Entries.get? es "documentTypeId" with
    | some number, some typeId =>
      let id := Entries.get es "id"
      .ok {
        number
        typeId := typeId.display .loose
        status := Entries.get es "status"
        id := if id.isNull then none else some (id.display .loose)
        extra := es.filter fun e => !known.any fun n => e.1.same (.text n) }
    | _, _ => misuse .key
  | _ => misuse .operand

/-- The description of a document. -/
def toValue (d : Document) : Value :=
  .record (Entries.merge d.extra (Entries.ofNames
    [("id", .text? d.id), ("documentNumber", d.number), ("documentTypeId", .text d.typeId),
      ("status", d.status)]))

end Document
end DocForms
