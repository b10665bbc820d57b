import DocForms.Definition.Check
import DocForms.Registry.Workspace
import DocForms.Shape.Reader

/-! Loading definitions into a registry. First every type is defined, so that the links of any
definition can name any type; then the members of each type are. A type whose members cannot be
defined is deleted again, and all problems are reported together. -/
namespace DocForms

namespace Definition

/-! ### Specifications -/

/-- The specification of the type. -/
def typeSpec (raw : Entries) : Except Fault Value := do
  return .named [("code", ← part (.record raw) "code"), ("name", ← part (.record raw) "name"),
    ("description", Entries.get raw "description"), ("categoryId", Entries.get raw "category_id"),
    ("status", (Entries.get? raw "status").getD (.text "active"))]

/-- The options of a link field: a code stands for the type that has it. -/
def linkOptions (r : Registry) (field : Entries) : Except Fault Value := do
  let code := Entries.get field "target_code"
  let linkType := Entries.get field "link_type"
  let target ← (if code.isTruthy then
      let type? := match code with
        | .text c => r.typeWithCode? c
        | _ => none
      match type? with
      | some t => pure [("targetDocumentTypeId", Value.text t.id)]
      | none => do
        let name ← (← part (.record field) "name").written .loose
        refuse (.targetCodeUnknown name (← code.written .loose))
    else pure [] : Except Fault (List (String × Value)))
  let options := target ++ if linkType.isTruthy then [("linkType", linkType)] else []
  return if options.isEmpty then .null else .named options

/-- The specification of a field, perhaps of a group. -/
def fieldSpec (r : Registry) (group : Option String) (field : Value) : Except Fault Value := do
  let es ← field.entries
  let kind ← part field "type"
  let options ← if kind = .text FieldKind.documentLink.name then linkOptions r es
    else pure (Entries.get es "options")
  return .named [("name", ← part field "name"), ("label", ← part field "label"), ("type", kind),
    ("required", (Entries.get? es "required").getD (.bool false)),
    ("documentFieldGroupId", .text? group), ("options", options),
    ("validationRules", Entries.get es "validation_rules")]

/-- The specification of a group. -/
def groupSpec (group : Value) : Except Fault Value := do
  let name ← part group "name"
  let label ← part group "label"
  let es ← group.entries
  return .named [("name", name), ("label", label), ("description", Entries.get es "description"),
    ("isRepeatable", (Entries.get? es "repeatable").getD (.bool false)),
    ("minRepeats", Entries.get es "min_repeats"), ("maxRepeats", Entries.get es "max_repeats")]

/-! ### Members -/

/-- Defines a field of a type. -/
def defineField (strict : Bool) (typeId : String) (group : Option String) (field : Value) :
    Building Unit := do
  let spec ← Building.read (fieldSpec · group field)
  let _ ← Building.mint (·.defineField typeId spec strict)

/-- Defines a group of a type with its fields. -/
def defineGroup (strict : Bool) (typeId : String) (group : Value) : Building Unit := do
  let spec ← Building.plain (groupSpec group)
  let g ← Building.mint (·.defineGroup typeId spec)
  (← Building.plain (members (← Building.plain group.entries) "fields")).forM
    (defineField strict typeId (some g.id))

/-- Defines the fields and groups of a type. -/
def defineMembers (strict : Bool) (typeId : String) (raw : Entries) : Building Unit := do
  (← Building.plain (members raw "fields")).forM (defineField strict typeId none)
  (← Building.plain (members raw "groups")).forM (defineGroup strict typeId)

/-! ### Files -/

/-- A file with the definition that it holds, or why it holds none. -/
structure File where
  name : String
  content : Except Fault Entries

/-- The problem of a file. -/
def File.problem (f : File) (message : String) : String := f.name ++ ": " ++ message

/-- Defines the type of a file, or tells the problems of its definition. -/
def defineType (formats : Formats) (f : File) : Building (Except (List String) DocumentType) := do
  let define : Building (Except (List String) DocumentType) := do
    let raw ← Building.plain f.content
    match ← Building.plain (problems formats raw) with
    | [] =>
      let spec ← Building.plain (typeSpec raw)
      return .ok (← Building.mint (·.defineType spec))
    | ps => return .error ps
  return match ← Building.attempt define with
    | .ok (.ok t) => .ok t
    | .ok (.error ps) => .error (ps.map f.problem)
    | .error r => .error [f.problem r.message]

/-- Defines the types of files; gives these and the problems of the others. -/
def defineTypes (formats : Formats) : List File →
    Building (List (File × DocumentType) × List String)
  | [] => return ([], [])
  | f :: fs => do
    let defined ← defineType formats f
    let (types, problems) ← defineTypes formats fs
    return match defined with
      | .ok t => ((f, t) :: types, problems)
      | .error ps => (types, ps ++ problems)

/-- Defines the members of types; gives the types that are complete and the problems of the
others, which are deleted. -/
def completeTypes (strict : Bool) : List (File × DocumentType) →
    Building (List DocumentType × List String)
  | [] => return ([], [])
  | (f, t) :: more => do
    let done ← Building.attempt do
      defineMembers strict t.id (← Building.plain f.content)
    match done with
    | .ok () =>
      let (types, problems) ← completeTypes strict more
      return (t :: types, problems)
    | .error r =>
      Building.change fun reg => (reg.deleteType t.id).map (·, ())
      let (types, problems) ← completeTypes strict more
      return (types, f.problem r.message :: problems)

/-- Loads files, in the order given. -/
def load (formats : Formats) (strict : Bool) (files : List File) :
    Building (List DocumentType) := do
  let (defined, first) ← defineTypes formats files
  let (types, second) ← completeTypes strict defined
  match first ++ second with
  | [] => return types
  | ps => throw (.refused (.definitions ps))

/-- Whether a file holds a definition, by its name. -/
def isDefinitionName (name : String) : Bool := name.endsWith ".yml" || name.endsWith ".yaml"

/-- Files in the order of their names. -/
def inNameOrder (files : List File) : List File :=
  files.mergeSort fun a b => decide (a.name ≤ b.name)

/-- The definition files among texts with names, in the order of their names. -/
def filesOf (texts : List (String × String)) : List File :=
  inNameOrder ((texts.filter (isDefinitionName ·.1)).map fun t => ⟨t.1, decode t.2⟩)

/-- The formats among texts with names: a name gives a version. Texts that are no JSON count for
nothing. -/
def formatsOf (texts : List (String × String)) : Formats :=
  texts.filterMap fun t =>
    if t.1.startsWith "v" && t.1.endsWith ".json" then
      (Shape.ofJson? t.2).map fun shape => (((t.1.drop 1).dropEnd 5).toString, shape)
    else none

end Definition
end DocForms
