import DocForms.Json.Reader
import DocForms.Links.Query

/-! A catalog that is asked over a network: how it is reached, the query that asks for the documents
with a number, and what the answer to it means. Such a catalog may match numbers loosely, so of the
documents that it names only the first with exactly the number counts. -/
namespace DocForms

/-- How a remote catalog is reached. -/
structure Remote where
  /-- What the addresses of queries begin with; no slash ends it. -/
  base : String
  /-- What shows that queries are allowed. -/
  key : Option String := none
  /-- The seconds that an answer may take. -/
  timeout : Value
deriving DecidableEq

/-- A query as it is sent. -/
structure Enquiry where
  address : String
  parameters : List (String × Value)
  headers : List (String × String)
  timeout : Value
deriving DecidableEq

/-- An answer that has arrived. -/
structure Delivery where
  status : Nat := 200
  /-- What the status stands for. -/
  reason : String := "OK"
  body : String := ""
  /-- What keeps the body from being read, whatever it holds. -/
  obstacle : Option String := none
deriving DecidableEq

/-- A way to send a query: an answer arrives, or a problem does. -/
abbrev Line := Enquiry → Except String Delivery

namespace Delivery

/-- The documents that a value lists, alone or as its data. -/
def listed (v : Value) : List Value :=
  match v with
  | .list vs => vs
  | .record es =>
    match Entries.get es "data" with
    | .list vs => vs
    | _ => []
  | _ => []

/-- What a status means that tells of an error. -/
def statusProblem? (d : Delivery) (address : String) : Option String :=
  let side := if d.status / 100 = 4 then some "Client" else if d.status / 100 = 5 then some "Server"
    else none
  side.map fun side =>
    toString d.status ++ " " ++ side ++ " Error: " ++ d.reason ++ " for url: " ++ address

/-- The refusal of a query that has failed. -/
private def failed {α : Type} (problem : String) (d : Option Delivery) : Except Fault α :=
  refuse (.catalog ("Failed to search documents: " ++ problem) (d.map (·.status)) (d.map (·.body)))

/-- The refusal of a body that is no list of documents for another reason than its form. -/
private def unreadable {α : Type} (problem : String) : Except Fault α :=
  refuse (.catalog ("Invalid JSON from document API: " ++ problem) none none)

/-- The documents that an answer names. -/
def documents (d : Delivery) (address : String) : Except Fault (List Value) :=
  match d.statusProblem? address, d.obstacle, Json.read d.body with
  | some problem, _, _ => failed problem (some d)
  | none, some problem, _ => unreadable problem
  | none, none, .ok v => .ok (listed v)
  | none, none, .error e =>
    if e.defect.isLimit then unreadable e.defect.message
    else failed (e.located d.body.toList) none

/-- The documents that are named by what a line brings. -/
def received (address : String) : Except String Delivery → Except Fault (List Value)
  | .ok d => d.documents address
  | .error problem => failed problem none

end Delivery

namespace Remote

/-- The seconds that an answer may take if nothing else is agreed. -/
def usualTimeout : Int := 30

/-- The catalog at an address. -/
def ofAddress (address key timeout : Value) : Except Fault Remote :=
  match address with
  | .text s => .ok {
      base := String.ofList (s.toList.reverse.dropWhile (· == '/')).reverse
      key := if key.isTruthy then some (key.display .loose) else none
      timeout }
  | _ => misuse .member

/-- The catalog that settings name, if they name one. -/
def ofSettings (settings : Entries) : Except Fault (Option Remote) := do
  let address := Entries.get settings "CATALOG_API_URL"
  if !address.isTruthy then return none
  let timeout ← ((Entries.get settings "CATALOG_TIMEOUT").orElse (.int usualTimeout)).toFloat
  return some (← ofAddress address (Entries.get settings "CATALOG_API_KEY") (.float timeout))

/-- The query for the documents of a type with a number. -/
def enquiry (r : Remote) (typeId number : Value) : Enquiry where
  address := r.base ++ "/documents"
  parameters := [("documentTypeId", typeId), ("documentNumber", number)]
  headers := ("Accept", "application/json") ::
    (r.key.map fun key => ("Authorization", "Bearer " ++ key)).toList
  timeout := r.timeout

/-- The documents of a type that the catalog names for a number. -/
def search (r : Remote) (line : Line) (typeId number : Value) : Except Fault (List Value) :=
  let q := r.enquiry typeId number
  Delivery.received q.address (line q)

/-- Whether an entry is a document with exactly the number; none can be the number asked for. -/
def hasNumber (number : Value) : Value → Bool
  | .record es => (Entries.get es "documentNumber").same number
  | _ => false

/-- The document that an entry describes, which is of the type asked for unless it names one. -/
def describe (typeId entry : Value) : Except Fault Document := do
  let es ← entry.entries
  let es := if Entries.has es "documentTypeId" then es else Entries.set es "documentTypeId" typeId
  match Document.ofValue (.record es) with
  | .ok d => return d
  | .error _ =>
    refuse (.catalog "Malformed document from document API: 'documentNumber'" none none)

/-- The document of a type with a number. -/
def find? (r : Remote) (line : Line) (typeId number : Value) : Except Fault (Option Document) := do
  match (← r.search line typeId number).find? (hasNumber number) with
  | some entry => return some (← describe typeId entry)
  | none => return none

/-- The catalog as it answers the queries of lookups. -/
def catalog (r : Remote) (line : Line) : Catalog where
  replyTo type number :=
    match r.find? line (.text type) (.text number) with
    | .ok (some d) => .found d
    | .ok none => .missing
    | .error _ => .failed

end Remote
end DocForms
