import DocForms.Fault
import DocForms.Json.Reader
import DocForms.Service.Body
import DocForms.Service.Target
import DocForms.Text.Class

/-! Requests to the service and its answers. -/
namespace DocForms.Service

/-- A request. -/
structure Request where
  method : String
  target : Target
  /-- What the body holds, if it is JSON. -/
  body : Option Value := none

/-- An answer: a status and, if it is JSON, its body. -/
structure Answer where
  status : Nat
  body : Option Value := none

/-- Whether a content type means JSON. Parameters and case do not matter. -/
def isJsonType (contentType : String) : Bool :=
  let name := (Text.trim ((contentType.splitOn ";").headD "")).toLower
  name == "application/json" || (name.startsWith "application/" && name.endsWith "+json")

/-- What a body holds, if it is JSON. A byte order mark at its start counts for nothing. -/
def readBody (contentType text : String) : Option Value :=
  if isJsonType contentType then
    let cs := text.toList
    (Json.readChars? (if cs.head? == some '\ufeff' then cs.tail else cs)).toOption
  else none

/-- The record that the body of a request has to hold. -/
def Request.record (q : Request) : Except Fault Entries :=
  match q.body with
  | some (.record es) => .ok es
  | _ => refuse .bodyNotObject

/-- The answer to an action that came to a result. A body that cannot be written is an error of the
service, whatever the action has done. -/
def Answer.ofResult (status : Nat) (body : Value) : Answer :=
  if body.isWritable then ⟨status, some body⟩ else ⟨500, none⟩

/-- The answer to a request that failed. What does not exist is not found, unless the request
names it in its body; a misuse is an error of the service. -/
def Answer.ofFault : Fault → Answer
  | .misuse _ => ⟨500, none⟩
  | .refused r =>
    let status := if r.isNotFound && r.field?.isNone then 404 else 400
    ⟨status, some (.named ([("error", .text r.message), ("code", .text r.code)] ++
      (r.field?.toList.map fun f => ("field", .text f))))⟩

end DocForms.Service
