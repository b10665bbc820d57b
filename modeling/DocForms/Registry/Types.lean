import DocForms.Registry.Basic

/-! Defining, changing and deleting document types. -/
namespace DocForms.Registry

/-- The type that a specification describes, under an identifier. Codes are unique. -/
def buildType (r : Registry) (id : String) (spec : Entries) : Except Fault DocumentType := do
  let name ← (Entries.get spec "name").trimmed
  let code ← (Entries.get spec "code").trimmed
  if name = "" then refuse .typeNameMissing
  if !isCode code then refuse (.badCode code)
  if r.types.any fun t => t.code == code && t.id != id then refuse (.codeTaken code)
  match TypeStatus.ofValue? (Entries.get spec "status") with
  | none => refuse (.badStatus ((Entries.get spec "status").display .loose))
  | some status =>
    return {
      id, name, code, status
      description := (Entries.get spec "description").orNull
      category := (Entries.get spec "categoryId").orNull }

/-- Adds a type under a new identifier. -/
def addType (r : Registry) (id : String) (spec : Value) :
    Except Fault (Registry × DocumentType) := do
  let t ← r.buildType id (← spec.entries)
  return ({ r with types := upsert DocumentType.id t r.types }, t)

/-- Changes a type; what the changes do not name stays. -/
def updateType (r : Registry) (id : String) (changes : Value) :
    Except Fault (Registry × DocumentType) := do
  let current ← r.requireType id
  let merged := Entries.merge (Entries.ofNames current.entries) (← changes.changes)
  let t ← r.buildType id merged
  return ({ r with types := upsert DocumentType.id t r.types }, t)

/-- Deletes a type with its groups, its fields and its template. -/
def deleteType (r : Registry) (id : String) : Except Fault Registry := do
  let _ ← r.requireType id
  return {
    types := r.types.filter (·.id != id)
    groups := r.groups.filter (·.typeId != id)
    fields := r.fields.filter (·.typeId != id)
    templates := r.templates.filter (·.1 != id) }

end DocForms.Registry
