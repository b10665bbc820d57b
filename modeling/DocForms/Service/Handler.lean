import DocForms.Catalog.Memory
import DocForms.Registry.Templates
import DocForms.Registry.Workspace
import DocForms.Service.Action
import DocForms.Submission

/-! The service: requests that read and change a registry, validate documents against a catalog and
bind templates. A request that is refused changes nothing. What an action has changed stays changed
when its result cannot be written. -/
namespace DocForms.Service

/-- What an action answers when it succeeds: a status and a body. -/
abbrev Result := Nat × Value

/-- The usual result. -/
def okay (v : Value) : Result := (200, v)

/-- The result of an action that made something. -/
def created (v : Value) : Result := (201, v)

/-- The result of an action that has nothing to show. -/
def done : Result := okay (.named [("success", .bool true)])

/-- A list of records as a body. -/
def listBody {α : Type} (toValue : α → Value) (rs : List α) : Value := .list (rs.map toValue)

/-- A group without its fields as a body. -/
def groupBody (g : Group) : Value := FieldGroup.toValue { toGroup := g }

/-! ### Members of a type -/

/-- Refuses a field that the type does not have. -/
def checkField (r : Registry) (typeId id : String) : Except Fault Unit := do
  let _ ← r.requireType typeId
  let f ← r.requireField id
  if f.typeId != typeId then refuse (.unknownField id)

/-- The group of a type. -/
def groupOf (r : Registry) (typeId id : String) : Except Fault FieldGroup := do
  match (← r.listGroups typeId).find? (·.id == id) with
  | some g => return g
  | none => refuse (.groupOutside id)

/-- The fields of a type that the arguments of a request select. -/
def listFields (r : Registry) (typeId : String) (target : Target) : Except Fault (List Field) := do
  match target.argument? "groupId" with
  | some g =>
    let _ ← groupOf r typeId g
    r.listFields typeId (.inGroup g)
  | none =>
    let ungrouped := ((target.argument? "ungrouped").getD "").toLower == "true"
    r.listFields typeId (if ungrouped then .ungrouped else .all)

/-- The items of a list in a body; an entry that says nothing is empty. -/
def itemsOf (v : Value) : Except Fault Value := do
  return .list (← (v.orElse (.list [])).elements)

/-- Puts fields into the order that a body gives. -/
def orderFields (r : Registry) (typeId : String) (body : Entries) :
    Except Fault (Registry × List Field) := do
  let ids ← itemsOf (Entries.get body "fieldIds")
  let group := Entries.get body "groupId"
  let _ ← r.requireType typeId
  r.reorderFields typeId ids (← if group.isTruthy then some <$> group.idText else pure none)

/-! ### Documents -/

/-- The store of a form with the values of a body, which may be left out. -/
def storeOf (form : Form) : Value → Except Fault Store
  | .null => .ok (Store.empty form)
  | .record es =>
    match (Store.empty form).load (.record es) with
    | (s, none) => .ok s
    | (_, some e) => .error e
  | _ => refuse .valuesNotObject

/-- What a catalog answers from its documents. -/
def catalogOf (shelf : Shelf) : Catalog where
  replyTo type number :=
    match shelf.find? type number with
    | some d => .found d
    | none => .missing

/-- A map of messages as a body. -/
def errorsBody (es : List (String × String)) : Value := .named (es.map fun e => (e.1, .text e.2))

/-- Validates the document of a body. Invalid values are a usual result. -/
def validate (shelf : Shelf) (r : Registry) (body : Entries) : Except Fault Value := do
  let typeId := Entries.get body "documentTypeId"
  if !typeId.isTruthy then refuse .documentTypeMissing
  let form ← r.getForm (← typeId.idText)
  let store ← storeOf form (Entries.get body "values")
  let signers ← Signers.ofValue (match Entries.get body "signers" with
    | .null => .list []
    | v => v)
  match (Submission.prepare Validators.standard (catalogOf shelf) {} store r.types signers).2 with
  | .ok d => return .named [("valid", .bool true), ("errors", .record []), ("payload", ← d.payload)]
  | .error (.refused (.valuesInvalid es)) =>
    return .named [("valid", .bool false), ("errors", errorsBody es)]
  | .error e => .error e

/-! ### Templates -/

/-- The tokens of a template as a body. -/
def tokensBody (form : Form) (template : String) : Except Fault Value := do
  return listBody (Template.describe (some form)) (← Template.scan template)

/-- A template bound to values, as a body. -/
def boundBody (form : Form) (s : Snapshot) (t : Template) : Except Fault Value := do
  let bound ← t.bound Renderers.standard s (some form)
  return .named [("content", .text bound.content), ("template", bound.toValue),
    ("tokens", ← tokensBody form t.content),
    ("unknownPlaceholders", listBody Value.text (← t.unknownPlaceholders form))]

/-- Binds the template of a body, or else the saved one, to the values of the body. -/
def bindBody (r : Registry) (typeId : String) (body : Entries) : Except Fault Value := do
  let form ← r.getForm typeId
  let s := (← storeOf form (Entries.get body "values")).snapshot
  match Entries.get body "template" with
  | .null => boundBody form s (← r.getTemplate typeId)
  | .record es => boundBody form s (← Template.ofValue (.record es))
  | .text content =>
    return .named [
      ("content", .text (← Template.bind Renderers.standard content s (some form) true)),
      ("tokens", ← tokensBody form content)]
  | _ => refuse .templateNotContent

/-- A template of a type as a body. -/
def templateBody (r : Registry) (typeId : String) (t : Template) : Except Fault Value := do
  let form ← r.getForm typeId
  let es ← t.toValue.entries
  return .record (Entries.set es "unknownPlaceholders"
    (listBody Value.text (← t.unknownPlaceholders form)))

/-- Copies the template of a type to the one that a body names. -/
def duplicateTemplate (r : Registry) (typeId : String) (body : Entries) :
    Except Fault (Registry × String × Template) := do
  let target := Entries.get body "targetDocumentTypeId"
  if !target.isTruthy then refuse .targetTypeMissing
  let _ ← r.getTemplate typeId
  let targetId ← target.idText
  let (r, t) ← r.duplicateTemplate typeId targetId
  return (r, targetId, t)

/-! ### Actions -/

/-- Carries out an action. -/
def perform (shelf : Shelf) (q : Request) : Action → Building Result
  | .listTypes => Building.read fun r =>
    let wanted := q.target.argument? "status"
    return okay (listBody DocumentType.toValue
      (r.types.filter fun t => wanted.all (t.status.name == ·)))
  | .createType => do
    let body ← Building.plain q.record
    return created (← Building.mint (·.defineType (.record body))).toValue
  | .readForm t => Building.read fun r => return okay (← r.getForm t).toValue
  | .updateType t => do
    let body ← Building.plain q.record
    return okay (← Building.change (·.updateType t (.record body))).toValue
  | .deleteType t => do
    Building.change fun r => (r.deleteType t).map (·, ())
    return done
  | .listFields t => Building.read fun r =>
    return okay (listBody Field.toValue (← listFields r t q.target))
  | .createField t => do
    let body ← Building.plain q.record
    return created (← Building.mint (·.defineField t (.record body) true)).toValue
  | .updateField t f => do
    Building.read (checkField · t f)
    let body ← Building.plain q.record
    return okay (← Building.change (·.updateField f (.record body))).toValue
  | .deleteField t f => do
    Building.read (checkField · t f)
    Building.change fun r => (r.deleteField f).map (·, ())
    return done
  | .orderFields t => do
    let body ← Building.plain q.record
    return okay (listBody Field.toValue (← Building.change (orderFields · t body)))
  | .listGroups t => Building.read fun r =>
    return okay (listBody FieldGroup.toValue (← r.listGroups t))
  | .createGroup t => do
    let body ← Building.plain q.record
    return created (groupBody (← Building.mint (·.defineGroup t (.record body))))
  | .readGroup t g => Building.read fun r => return okay (← groupOf r t g).toValue
  | .updateGroup t g => do
    let _ ← Building.read (groupOf · t g)
    let body ← Building.plain q.record
    let _ ← Building.change (·.updateGroup g (.record body))
    return okay (← Building.read (·.getGroup g)).toValue
  | .deleteGroup t g => do
    let _ ← Building.read (groupOf · t g)
    Building.change fun r => (r.deleteGroup g).map (·, ())
    return done
  | .orderGroups t => do
    let body ← Building.plain q.record
    let ids ← Building.plain (itemsOf (Entries.get body "groupIds"))
    return okay (listBody FieldGroup.toValue (← Building.change (·.reorderGroups t ids)))
  | .validate => do
    let body ← Building.plain q.record
    return okay (← Building.read (validate shelf · body))
  | .bind t => do
    let body ← Building.plain q.record
    return okay (← Building.read (bindBody · t body))
  | .readTemplate t => Building.read fun r =>
    return okay (← templateBody r t (← r.getTemplate t))
  | .saveTemplate t => do
    let body ← Building.plain q.record
    let saved ← Building.change (·.saveTemplate t (.record body))
    return okay (← Building.read (templateBody · t saved))
  | .createStarterTemplate t => do
    let saved ← Building.change (·.createStarterTemplate t)
    return created (← Building.read (templateBody · t saved))
  | .duplicateTemplate t => do
    let body ← Building.plain q.record
    let (target, saved) ← Building.change (duplicateTemplate · t body)
    return created (← Building.read (templateBody · target saved))

/-- The answer to an action, and the workspace after it. It is written last. -/
def performed (shelf : Shelf) (q : Request) (a : Action) (w : Workspace) : Answer × Workspace :=
  let (res, w) := (perform shelf q a).run.run w
  (match res with
    | .ok (status, body) => .ofResult status body
    | .error e => .ofFault e, w)

/-- The answer to a request, and the workspace after it. -/
def answer (shelf : Shelf) (q : Request) (w : Workspace) : Answer × Workspace :=
  match Route.ofRequest q with
  | .action a => performed shelf q a w
  | .statusOf a =>
    let (res, w) := performed shelf q a w
    (⟨res.status, none⟩, w)
  | .methods => (⟨200, none⟩, w)
  | .moved => (⟨308, none⟩, w)
  | .unknownMethod => (⟨405, none⟩, w)
  | .unknownPath => (⟨404, none⟩, w)

end DocForms.Service
