import DocForms.Registry.Basic

/-! Defining, changing, ordering and deleting groups of fields. The group names of a type differ
from each other and from the names of its ungrouped fields. -/
namespace DocForms.Registry

/-- A bound on the rows of a group, which has to be an integer that is large enough. -/
def rowBound (b : RowBound) (v : Value) : Except Fault (Option Int) :=
  match v with
  | .null => .ok none
  | .int n => if n < b.lowest then refuse (.boundTooLow b) else .ok (some n)
  | _ => refuse (.boundNotInteger b)

/-- The bounds on the rows of a group; a group with a single row has none. -/
def rowBounds (repeatable : Bool) (spec : Entries) : Except Fault (Option Int × Option Int) := do
  if !repeatable then return (none, none)
  let low ← rowBound .least (Entries.get spec "minRepeats")
  let high ← rowBound .most (Entries.get spec "maxRepeats")
  match low, high with
  | some a, some b => if b < a then refuse (.boundsInverted a b) else return (low, high)
  | _, _ => return (low, high)

/-- The group that a specification describes, under an identifier. -/
def buildGroup (r : Registry) (typeId id : String) (spec : Entries) : Except Fault Group := do
  let name ← (Entries.get spec "name").trimmed
  let label ← (Entries.get spec "label").trimmed
  let repeatable := (Entries.get spec "isRepeatable").isTruthy
  if !isName name then refuse (.badGroupName name)
  if label = "" then refuse .groupLabelMissing
  if (r.groupsOf typeId).any fun g => g.name == name && g.id != id then
    refuse (.groupNameTaken name)
  if (r.scope typeId none).any (·.name == name) then refuse (.fieldNameTaken name)
  let (minRows, maxRows) ← rowBounds repeatable spec
  let order := Entries.get spec "order"
  let order ← if order.isNull then pure ((r.groupsOf typeId).length : Int) else order.toInteger
  return {
    id, typeId, name, label, repeatable, minRows, maxRows, order
    description := (Entries.get spec "description").orNull }

/-- Adds a group to a type under a new identifier. -/
def addGroup (r : Registry) (typeId id : String) (spec : Value) :
    Except Fault (Registry × Group) := do
  let _ ← r.requireType typeId
  let g ← r.buildGroup typeId id (← spec.entries)
  return ({ r with groups := upsert Group.id g r.groups }, g)

/-- Changes a group; what the changes do not name stays. -/
def updateGroup (r : Registry) (id : String) (changes : Value) :
    Except Fault (Registry × Group) := do
  let current ← r.requireGroup id
  let entries ← (FieldGroup.toValue { toGroup := current }).entries
  let g ← r.buildGroup current.typeId id (Entries.merge entries (← changes.changes))
  return ({ r with groups := upsert Group.id g r.groups }, g)

/-- Deletes a group with its fields. -/
def deleteGroup (r : Registry) (id : String) : Except Fault Registry := do
  let _ ← r.requireGroup id
  return { r with
    fields := r.fields.filter (·.groupId != some id)
    groups := r.groups.filter (·.id != id) }

/-- Puts the groups of a type into a new order. -/
def reorderGroups (r : Registry) (typeId : String) (ids : Value) :
    Except Fault (Registry × List FieldGroup) := do
  let _ ← r.requireType typeId
  let names ← completeOrder ((r.groupsOf typeId).map (·.id)) ids .groupOrderIncomplete
  let groups := r.groups.map fun g =>
    if names.contains g.id then { g with order := positionIn names g.id } else g
  let r := { r with groups }
  return (r, ← r.listGroups typeId)

end DocForms.Registry
