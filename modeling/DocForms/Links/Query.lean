import DocForms.Catalog.Document
import DocForms.Schema.Record

/-! What a link lookup asks, and what a catalog says to it. A number is searched in one type after
another; the first document decides, and a query that fails counts as a miss. -/
namespace DocForms

/-- A document number and the types to search it in. -/
structure LinkQuery where
  number : Value
  types : List String
deriving DecidableEq

/-- A scalar number by its amount, so that equal ones ask the same. -/
def Value.amount : Value → Value
  | .bool b => .int (if b then 1 else 0)
  | .float x => if x.isInteger then (x.truncate?.map Value.int).getD (.float x) else .float x
  | v => v

namespace LinkQuery

/-- The query for a number in the types that a value lists. -/
def ofValues (number types : Value) : Except Fault LinkQuery := do
  return ⟨number.amount, (← types.elements).map (·.display .loose)⟩

/-- The number that is searched for; blank ones are none. -/
def wanted? (number : Value) : Except Fault (Option String) := do
  let s ← number.trimmed
  return if s = "" then none else some s

end LinkQuery

/-- The types that the links of a field are searched in: its target, or else every known type but
the one of the document itself. -/
def Field.candidates (f : Field) (authoring : String) (types : List DocumentType) : List String :=
  match f.linkOptions.target with
  | some t => [t]
  | none => (types.filter (·.id != authoring)).map (·.id)

/-- What a catalog says to a query for a number in one type. -/
inductive Reply where
  | found (d : Document)
  | missing
  /-- The query fails: with an error of the catalog, a timeout or any other exception. -/
  | failed
  /-- The catalog cancels the lookup that asks. -/
  | withdrawn
deriving DecidableEq

/-- What a catalog does about a query that is cancelled while it is open. -/
inductive Heed where
  /-- It gives the query up. -/
  | givesUp
  /-- It answers the query at once. -/
  | answers
  /-- It goes on as if nothing had happened, and may answer later. -/
  | ignores
deriving DecidableEq, Repr

/-- A catalog at one moment. -/
structure Catalog where
  /-- What it says to the query for a type and a number. -/
  replyTo : String → String → Reply
  /-- Whether it answers queries for a number at once. -/
  isOpen : String → Bool := fun _ => true
  /-- What it does about a cancelled query for a number. -/
  heed : String → Heed := fun _ => .givesUp

/-- How a task ends. -/
inductive Outcome where
  | answer (d : Option Document)
  | cancelled
  | failed (e : Fault)
deriving DecidableEq

/-- Where a search stands: at an end, or waiting for the answer to the query for a number in the
first of the types that are left. -/
inductive Search where
  | ended (o : Outcome)
  | asking (number : String) (left : List String)
deriving DecidableEq

namespace Catalog

/-- Searches a number in types until one has a document, or until an answer is not there at once.
The queries made are listed with it. -/
def search (c : Catalog) (number : String) : List String → List (String × String) × Search
  | [] => ([], .ended (.answer none))
  | type :: left =>
    if c.isOpen number then
      match c.replyTo type number with
      | .found d => ([(type, number)], .ended (.answer (some d)))
      | .withdrawn => ([(type, number)], .ended .cancelled)
      | _ =>
        let (calls, s) := c.search number left
        ((type, number) :: calls, s)
    else ([(type, number)], .asking number (type :: left))

/-- Goes on with a search when the answer to the open query is there. -/
def goOn (c : Catalog) (number : String) : List String → List (String × String) × Search
  | [] => ([], .ended (.answer none))
  | type :: left =>
    match c.replyTo type number with
    | .found d => ([], .ended (.answer (some d)))
    | .withdrawn => ([], .ended .cancelled)
    | _ => c.search number left

/-- Begins the search for a number, which is not made for a blank one. -/
def begin (c : Catalog) (number : Value) (types : Except Fault (List String)) :
    List (String × String) × Search :=
  match LinkQuery.wanted? number with
  | .error e => ([], .ended (.failed e))
  | .ok none => ([], .ended (.answer none))
  | .ok (some s) =>
    match types with
    | .error e => ([], .ended (.failed e))
    | .ok types => c.search s types

end Catalog
end DocForms
