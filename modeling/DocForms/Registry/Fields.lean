import DocForms.Registry.Basic

/-! Defining, changing, moving, ordering and deleting fields. All field names of a type differ, and
no ungrouped field has the name of a group. -/
namespace DocForms.Registry

/-- The group that a specification places a field in; a value that says nothing means none. -/
def groupIdOf (spec : Entries) : Except Fault (Option String) :=
  let v := Entries.get spec "documentFieldGroupId"
  if v.isTruthy then do return some (← v.idText) else .ok none

/-- Refuses a group that the type does not have. -/
def checkGroup (r : Registry) (typeId : String) (group : Option String) : Except Fault Unit :=
  match group with
  | none => .ok ()
  | some g => do let _ ← r.requireGroupOf g typeId

/-- Refuses a field name that is taken. -/
def checkFieldName (r : Registry) (typeId id name : String) (group : Option String) :
    Except Fault Unit := do
  if (r.fieldsOf typeId).any fun f => f.id != id && f.name == name then
    refuse (.fieldNameTaken name)
  if group.isNone && (r.groupsOf typeId).any (·.name == name) then
    refuse (.groupNameTaken name)

/-- The order that a specification gives a field; by default the number of other fields in its
scope. -/
def fieldOrder (r : Registry) (typeId id : String) (group : Option String) (order : Value) :
    Except Fault Int :=
  if order.isNull then
    .ok ((r.scope typeId group).filter (·.id != id)).length
  else order.toInteger

/-- The field that a specification describes, under an identifier. -/
def buildField (r : Registry) (typeId id : String) (spec : Entries) (strict : Bool) :
    Except Fault Field := do
  let name ← (Entries.get spec "name").trimmed
  let label ← (Entries.get spec "label").trimmed
  if !isName name then refuse (.badFieldName name)
  if label = "" then refuse .fieldLabelMissing
  let group ← groupIdOf spec
  r.checkGroup typeId group
  r.checkFieldName typeId id name group
  let kind ← FieldKind.ofValue ((Entries.get spec "type").orElse (.text "text")) (some name)
  let constraints ← Constraints.parse strict kind (Entries.get spec "options")
    (Entries.get spec "validationRules") (some name)
  let order ← r.fieldOrder typeId id group (Entries.get spec "order")
  return {
    id, typeId, name, label, kind, order
    required := (Entries.get spec "required").isTruthy
    groupId := group
    options := constraints.options
    rules := constraints.rules
    problems := constraints.problems }

/-- Adds a field to a type under a new identifier. -/
def addField (r : Registry) (typeId id : String) (spec : Value) (strict : Bool) :
    Except Fault (Registry × Field) := do
  let _ ← r.requireType typeId
  let f ← r.buildField typeId id (← spec.entries) strict
  return ({ r with fields := upsert Field.id f r.fields }, f)

/-- Changes a field; what the changes do not name stays. -/
def updateField (r : Registry) (id : String) (changes : Value) :
    Except Fault (Registry × Field) := do
  let current ← r.requireField id
  let merged := Entries.merge (← current.toValue.entries) (← changes.changes)
  let f ← r.buildField current.typeId id merged true
  return ({ r with fields := upsert Field.id f r.fields }, f)

/-- Deletes a field. -/
def deleteField (r : Registry) (id : String) : Except Fault Registry := do
  let _ ← r.requireField id
  return { r with fields := r.fields.filter (·.id != id) }

/-- Puts the fields of one scope into a new order. -/
def reorderFields (r : Registry) (typeId : String) (ids : Value) (group : Option String) :
    Except Fault (Registry × List Field) := do
  let _ ← r.requireType typeId
  r.checkGroup typeId group
  let names ← completeOrder ((r.scope typeId group).map (·.id)) ids .fieldOrderIncomplete
  let fields := r.fields.map fun f =>
    if names.contains f.id then { f with order := positionIn names f.id } else f
  let r := { r with fields }
  return (r, sortFields (r.scope typeId group))

end DocForms.Registry
