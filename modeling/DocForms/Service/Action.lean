import DocForms.Service.Request

/-! What a request asks the service to do, by its method and its path. -/
namespace DocForms.Service

/-- What can be asked for. -/
inductive Action where
  | listTypes
  | createType
  | readForm (type : String)
  | updateType (type : String)
  | deleteType (type : String)
  | listFields (type : String)
  | createField (type : String)
  | updateField (type field : String)
  | deleteField (type field : String)
  | orderFields (type : String)
  | listGroups (type : String)
  | createGroup (type : String)
  | readGroup (type group : String)
  | updateGroup (type group : String)
  | deleteGroup (type group : String)
  | orderGroups (type : String)
  | validate
  | bind (type : String)
  | readTemplate (type : String)
  | saveTemplate (type : String)
  | createStarterTemplate (type : String)
  | duplicateTemplate (type : String)
deriving DecidableEq, Repr

namespace Action

/-- The path that all actions begin with. -/
def root : List String := ["api", "v1"]

/-- What can be asked for at a path below the root, by method; the first action with a method
counts. -/
def below : List String → List (String × Action)
  | ["document-types"] => [("GET", listTypes), ("POST", createType)]
  | ["document-types", t] =>
    if t = "" then []
    else [("GET", readForm t), ("PUT", updateType t), ("DELETE", deleteType t)]
  | ["document-types", t, part] =>
    if t = "" then []
    else match part with
      | "fields" => [("GET", listFields t), ("POST", createField t)]
      | "field-groups" => [("GET", listGroups t), ("POST", createGroup t)]
      | "bind" => [("POST", bind t)]
      | "template" => [("GET", readTemplate t), ("POST", saveTemplate t)]
      | _ => []
  | ["document-types", t, part, id] =>
    if t = "" || id = "" then []
    else match part, id with
      | "fields", "order" =>
        [("PUT", orderFields t), ("PUT", updateField t id), ("DELETE", deleteField t id)]
      | "fields", f => [("PUT", updateField t f), ("DELETE", deleteField t f)]
      | "field-groups", "order" =>
        [("PUT", orderGroups t), ("GET", readGroup t id), ("DELETE", deleteGroup t id)]
      | "field-groups", g =>
        [("GET", readGroup t g), ("PUT", updateGroup t g), ("DELETE", deleteGroup t g)]
      | "template", "default" => [("POST", createStarterTemplate t)]
      | "template", "duplicate" => [("POST", duplicateTemplate t)]
      | _, _ => []
  | ["documents", "validate"] => [("POST", validate)]
  | _ => []

/-- What can be asked for at a path, by method. -/
def at? (segments : List String) : List (String × Action) :=
  match segments with
  | "api" :: "v1" :: rest => below rest
  | _ => []

end Action

/-- What a method comes to at a path. -/
inductive Route where
  | action (a : Action)
  /-- The same as an action, but only its status is answered. -/
  | statusOf (a : Action)
  /-- The methods of a path are asked for. -/
  | methods
  /-- The path is written with superfluous slashes. -/
  | moved
  | unknownMethod
  | unknownPath
deriving DecidableEq, Repr

namespace Route

/-- What a method comes to among the actions of a path. -/
def among (method : String) (actions : List (String × Action)) : Option Route :=
  match actions.lookup method with
  | some a => some (.action a)
  | none =>
    if actions.isEmpty then none
    else if method = "OPTIONS" then some .methods
    else if method = "HEAD" then (actions.lookup "GET").map .statusOf
    else none

/-- What a request comes to. -/
def ofRequest (q : Request) : Route :=
  let method := q.method.toUpper
  let here := Action.at? q.target.segments
  let merged := Action.at? q.target.mergedSegments
  match among method here with
  | some r => r
  | none =>
    if (among method merged).isSome then .moved
    else if here.isEmpty && merged.isEmpty then .unknownPath
    else .unknownMethod

end Route
end DocForms.Service
