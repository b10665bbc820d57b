import DocForms.Schema.Record
import DocForms.Template.Layout

/-! The registry of document types with their fields, groups and templates. Records of a kind are
listed in the order in which they were defined; fields and groups are read in their own order. -/
namespace DocForms

/-- The content of a registry. -/
structure Registry where
  types : List DocumentType := []
  groups : List Group := []
  fields : List Field := []
  templates : List (String × Template) := []
deriving DecidableEq

/-- Puts a record in the place of the one with the same identifier, else at the end. -/
def upsert {α : Type} (id : α → String) (r : α) : List α → List α
  | [] => [r]
  | a :: as => if id a == id r then r :: as else a :: upsert id r as

/-- An identifier in a request. Lists and records cannot be looked up; other values that are no
texts are looked up by their text. -/
def Value.idText (v : Value) : Except Fault String := do
  let _ ← v.key?
  return v.display .loose

namespace Registry

/-- A registry without types. -/
def empty : Registry := {}

/-! ### Looking up -/

/-- The type with an identifier. -/
def type? (r : Registry) (id : String) : Option DocumentType := r.types.find? (·.id == id)

/-- The group with an identifier. -/
def group? (r : Registry) (id : String) : Option Group := r.groups.find? (·.id == id)

/-- The field with an identifier. -/
def field? (r : Registry) (id : String) : Option Field := r.fields.find? (·.id == id)

/-- The type with an identifier, which has to exist. -/
def requireType (r : Registry) (id : String) : Except Fault DocumentType :=
  match r.type? id with
  | some t => .ok t
  | none => refuse (.unknownType id)

/-- The field with an identifier, which has to exist. -/
def requireField (r : Registry) (id : String) : Except Fault Field :=
  match r.field? id with
  | some f => .ok f
  | none => refuse (.unknownField id)

/-- The group with an identifier, which has to exist. -/
def requireGroup (r : Registry) (id : String) : Except Fault Group :=
  match r.group? id with
  | some g => .ok g
  | none => refuse (.unknownGroup id)

/-- The group with an identifier, which has to exist on the given type. -/
def requireGroupOf (r : Registry) (id typeId : String) : Except Fault Group :=
  match r.group? id with
  | some g => if g.typeId = typeId then .ok g else refuse (.unknownGroup id)
  | none => refuse (.unknownGroup id)

/-- The type with a code. -/
def typeWithCode? (r : Registry) (code : String) : Option DocumentType :=
  r.types.find? (·.code == code)

/-! ### Listing -/

/-- Records are read by order, and by name where orders are equal. -/
def precedes (orderA orderB : Int) (nameA nameB : String) : Bool :=
  decide (orderA < orderB) || (orderA == orderB && decide (nameA ≤ nameB))

/-- Fields in reading order. -/
def sortFields (fs : List Field) : List Field :=
  fs.mergeSort fun a b => precedes a.order b.order a.name b.name

/-- Groups in reading order. -/
def sortGroups (gs : List Group) : List Group :=
  gs.mergeSort fun a b => precedes a.order b.order a.name b.name

/-- The fields of a type. -/
def fieldsOf (r : Registry) (typeId : String) : List Field :=
  r.fields.filter (·.typeId == typeId)

/-- The fields of one scope of a type: those of a group, or the ungrouped ones. -/
def scope (r : Registry) (typeId : String) (group : Option String) : List Field :=
  (r.fieldsOf typeId).filter (·.groupId == group)

/-- The groups of a type. -/
def groupsOf (r : Registry) (typeId : String) : List Group :=
  r.groups.filter (·.typeId == typeId)

/-- Which fields of a type are listed. -/
inductive Selection where
  | all
  | ungrouped
  | inGroup (id : String)
deriving DecidableEq, Repr

/-- The fields of a type in reading order. -/
def listFields (r : Registry) (typeId : String) (which : Selection) :
    Except Fault (List Field) := do
  let _ ← r.requireType typeId
  return sortFields (match which with
    | .all => r.fieldsOf typeId
    | .ungrouped => r.scope typeId none
    | .inGroup id => r.scope typeId (some id))

/-- A group with its fields in reading order. -/
def withFields (r : Registry) (typeId : String) (g : Group) : FieldGroup :=
  { toGroup := g, fields := sortFields (r.scope typeId (some g.id)) }

/-- The groups of a type in reading order, each with its fields. -/
def listGroups (r : Registry) (typeId : String) : Except Fault (List FieldGroup) := do
  let _ ← r.requireType typeId
  return (sortGroups (r.groupsOf typeId)).map (r.withFields typeId)

/-- A group with its fields. -/
def getGroup (r : Registry) (id : String) : Except Fault FieldGroup := do
  let g ← r.requireGroup id
  let _ ← r.requireType g.typeId
  return r.withFields g.typeId g

/-- The form of a type. -/
def getForm (r : Registry) (typeId : String) : Except Fault Form := do
  let type ← r.requireType typeId
  return ⟨type, ← r.listFields typeId .ungrouped, ← r.listGroups typeId⟩

/-! ### Orders -/

/-- The identifiers of a new order, which has to name every identifier of the scope once. -/
def completeOrder (scope : List String) (ids : Value) (incomplete : Refusal) :
    Except Fault (List String) := do
  let ids ← ids.elements
  if ids.length != scope.length then refuse incomplete
  let keys ← ids.mapM Value.key?
  let names := keys.filterMap fun
    | some (.text s) => some s
    | _ => none
  if names.length = ids.length && names.all scope.contains && scope.all names.contains then
    return names
  else refuse incomplete

/-- The position of a name in a list. -/
def positionIn (names : List String) (name : String) : Int := names.idxOf name

end Registry
end DocForms
