import DocForms.Schema.Constraint
import DocForms.Schema.Name

/-! The records that describe document types, their fields and their groups of fields, and the
form of a type, which lists them in order. -/
namespace DocForms

/-- Whether documents of a type can be authored. -/
inductive TypeStatus where
  | active | inactive
deriving DecidableEq, Repr, Inhabited

namespace TypeStatus

/-- The written name. -/
def name : TypeStatus → String
  | .active => "active"
  | .inactive => "inactive"

/-- The status that a payload names; a value that says nothing means active. -/
def ofValue? (v : Value) : Option TypeStatus :=
  match v.orElse (.text "active") with
  | .text s => [TypeStatus.active, .inactive].find? (·.name == s)
  | _ => none

end TypeStatus

/-- A type of documents. -/
structure DocumentType where
  id : String
  name : String
  code : String
  description : Value := .null
  category : Value := .null
  status : TypeStatus := .active
deriving DecidableEq

/-- A named slot for values of one kind. -/
structure Field where
  id : String
  typeId : String
  name : String
  label : String
  kind : FieldKind
  required : Bool := false
  /-- The group that the field belongs to, if any. -/
  groupId : Option String := none
  options : Option Options := none
  rules : Option Rules := none
  order : Int := 0
  /-- The defects of constraint payloads that were recorded instead of refused. -/
  problems : List String := []
deriving DecidableEq

/-- A named collection of fields: one row of them, or any number of rows. -/
structure Group where
  id : String
  typeId : String
  name : String
  label : String
  description : Value := .null
  repeatable : Bool := false
  minRows : Option Int := none
  maxRows : Option Int := none
  order : Int := 0
deriving DecidableEq

/-- A group with its fields in order. -/
structure FieldGroup extends Group where
  fields : List Field := []
deriving DecidableEq

/-- The form of a document type: its ungrouped fields and its groups, each in order. -/
structure Form where
  type : DocumentType
  fields : List Field := []
  groups : List FieldGroup := []
deriving DecidableEq

/-- An integer that may be missing. -/
def Value.int? (n : Option Int) : Value := (n.map Value.int).getD .null

namespace DocumentType

/-- Whether documents of the type can be authored. -/
def isActive (t : DocumentType) : Bool := t.status == .active

/-- The entries of the type's payload. -/
def entries (t : DocumentType) : List (String × Value) :=
  [("id", .text t.id), ("name", .text t.name), ("code", .text t.code),
    ("description", t.description), ("categoryId", t.category),
    ("status", .text t.status.name)]

/-- The type as a payload. -/
def toValue (t : DocumentType) : Value := .named t.entries

end DocumentType

namespace Field

/-- Whether the field belongs to a group. -/
def isGrouped (f : Field) : Bool := f.groupId.isSome

/-- The choices of a select field, if it has any options. -/
def choices? (f : Field) : Option (List Choice) := Options.choices? f.options

/-- The restrictions on the links of the field. -/
def linkOptions (f : Field) : LinkOptions := Options.linkOptions f.options

/-- The field as a payload. -/
def toValue (f : Field) : Value :=
  .named [("id", .text f.id), ("documentTypeId", .text f.typeId),
    ("documentFieldGroupId", .text? f.groupId), ("name", .text f.name),
    ("label", .text f.label), ("type", .text f.kind.name), ("required", .bool f.required),
    ("options", (f.options.map Options.toValue).getD .null),
    ("validationRules", (f.rules.map Rules.toValue).getD .null), ("order", .int f.order)]

end Field

namespace Group

/-- The fewest and the most rows allowed; no upper bound means any number. -/
def rowBounds (g : Group) : Int × Option Int := (g.minRows.getD 0, g.maxRows)

end Group

namespace FieldGroup

/-- The field with a name. -/
def field? (g : FieldGroup) (name : String) : Option Field := g.fields.find? (·.name == name)

/-- The group as a payload with its fields. -/
def toValue (g : FieldGroup) : Value :=
  .named [("id", .text g.id), ("documentTypeId", .text g.typeId), ("name", .text g.name),
    ("label", .text g.label), ("description", g.description),
    ("isRepeatable", .bool g.repeatable), ("minRepeats", .int? g.minRows),
    ("maxRepeats", .int? g.maxRows), ("order", .int g.order),
    ("fields", .list (g.fields.map Field.toValue))]

end FieldGroup

namespace Form

/-- The ungrouped field with a name. -/
def field? (f : Form) (name : String) : Option Field := f.fields.find? (·.name == name)

/-- The group with a name. -/
def group? (f : Form) (name : String) : Option FieldGroup := f.groups.find? (·.name == name)

/-- Every field with its group, the ungrouped ones first. -/
def allFields (f : Form) : List (Option FieldGroup × Field) :=
  f.fields.map (none, ·) ++ f.groups.flatMap fun g => g.fields.map (some g, ·)

/-- The names of all fields. -/
def fieldNames (f : Form) : List String := f.allFields.map (·.2.name)

/-- The form as a payload. -/
def toValue (f : Form) : Value :=
  .named (f.type.entries ++ [("fields", .list (f.fields.map Field.toValue)),
    ("fieldGroups", .list (f.groups.map FieldGroup.toValue))])

end Form
end DocForms
