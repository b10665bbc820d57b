import DocForms.Value.Basic

/-! References found in values. -/
namespace DocForms.LinkValue

/-- The relation that a record names; a value that says nothing means a plain reference. -/
def relation? (v : Value) : Option LinkType :=
  match v.orElse (.text LinkType.reference.name) with
  | .text s => LinkType.ofName? s
  | _ => none

/-- The reference that a value is: one already, or a record with number, type and relation. -/
def ofValue? : Value → Option LinkValue
  | .link l => some l
  | .record es =>
    match Entries.get es "documentNumber", Entries.get es "documentTypeId" with
    | .text number, .text typeId =>
      (relation? (Entries.get es "linkType")).map fun r => ⟨number, typeId, r⟩
    | _, _ => none
  | _ => none

end DocForms.LinkValue
