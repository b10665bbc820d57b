import DocForms.Registry.Basic
import DocForms.Template.Starter

/-! The saved templates of document types. -/
namespace DocForms.Registry

/-- The saved template of a type. -/
def getTemplate (r : Registry) (typeId : String) : Except Fault Template := do
  let _ ← r.requireType typeId
  match r.templates.lookup typeId with
  | some t => return t
  | none => refuse (.noTemplate typeId)

/-- Saves a template for a type in place of the one it has. Tokens that the form has no field for
are allowed. -/
def storeTemplate (r : Registry) (typeId : String) (t : Template) :
    Except Fault (Registry × Template) := do
  let _ ← t.unknownPlaceholders (← r.getForm typeId)
  return ({ r with templates := upsert Prod.fst (typeId, t) r.templates }, t)

/-- Saves the template that a payload describes. -/
def saveTemplate (r : Registry) (typeId : String) (payload : Value) :
    Except Fault (Registry × Template) := do
  r.storeTemplate typeId (← Template.ofValue payload)

/-- Saves the starter template of a type that has fields. -/
def createStarterTemplate (r : Registry) (typeId : String) :
    Except Fault (Registry × Template) := do
  let form ← r.getForm typeId
  if form.fieldNames.isEmpty then refuse (.noFields form.type.code)
  r.storeTemplate typeId (Template.starter form)

/-- Saves the template of a type for another one. -/
def duplicateTemplate (r : Registry) (typeId targetId : String) :
    Except Fault (Registry × Template) := do
  let t ← r.getTemplate typeId
  if (r.type? targetId).isNone then refuse (.unknownTarget targetId)
  r.storeTemplate targetId t

end DocForms.Registry
