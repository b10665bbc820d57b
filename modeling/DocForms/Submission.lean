import DocForms.Links.Turn
import DocForms.Signers
import DocForms.Store
import DocForms.Validation.Engine

/-! Submitting a document: every link is looked up, the values are validated with what the lookups
found, and the accepted document is what the payload describes. -/
namespace DocForms

/-- A document that has been accepted. -/
structure Submission where
  typeId : String
  snapshot : Snapshot
  signers : Signers String := {}
deriving DecidableEq

namespace Submission

/-- The payload of a document. Signers are left out when there are none. -/
def payloadOf (typeId : Value) (s : Snapshot) (signers : Signers String) : Except Fault Value := do
  return .named ([("documentTypeId", typeId), ("values", ← s.toValues)] ++
    if signers.users.isEmpty then [] else [("signers", signers.toValue)])

/-- The payload of the document. -/
def payload (d : Submission) : Except Fault Value :=
  payloadOf (.text d.typeId) d.snapshot d.signers

/-- The places of a field in a snapshot. -/
def places (s : Snapshot) (g : Option FieldGroup) (f : Field) : Except Fault (List Address) :=
  match g with
  | none => .ok [.top f.name]
  | some g =>
    if g.repeatable then do
      match Entries.get (← s.groups.entries) g.name with
      | .list rows => return (List.range rows.length).map fun i => .cell g.name i f.name
      | _ => return []
    else .ok [.member g.name f.name]

/-- The value at an address. -/
def valueAt (s : Snapshot) : Address → Except Fault Value
  | .top f => s.get (.text f) .null .null
  | .member g f => s.get (.text f) (.text g) .null
  | .cell g i f => s.get (.text f) (.text g) (.nat i)

/-- The query for the link at an address, if there is one with a number. -/
def linkQuery? (s : Snapshot) (types : List String) (a : Address) :
    Except Fault (Option (String × LinkQuery)) := do
  match LinkValue.ofValue? (← valueAt s a) with
  | some l =>
    if Text.isBlankText l.documentNumber then return none
    else return some (a.key, ⟨.text l.documentNumber, types⟩)
  | none => return none

/-- The queries for all links of a snapshot, in the order of the form. -/
def linkQueries (form : Form) (s : Snapshot) (known : List DocumentType) :
    Except Fault (List (String × LinkQuery)) := do
  let found ← (form.allFields.filter (·.2.kind = .documentLink)).mapM fun (g, f) => do
    (← places s g f).mapM (linkQuery? s (f.candidates form.type.id known))
  return found.flatten.filterMap id

/-- Schedules the lookups for queries. -/
def scheduleAll (r : Resolver) (qs : List (String × LinkQuery)) : Resolver :=
  qs.foldl (fun r q => (r.schedule q.1 q.2).1) r

/-- Schedules the lookups for the links of a document, and starts a task that waits until no lookup
is running. -/
def begin (r : Resolver) (s : Store) (known : List DocumentType) : Except Fault (Resolver × Nat) := do
  let qs ← linkQueries s.form s.snapshot known
  return (scheduleAll r qs).start .settle

/-- Validates a document with what was found for its links, and takes it over if it is valid. -/
def judge (vs : Validators) (s : Store) (signers : Signers String) (links : ResolvedLinks) :
    Except Fault Submission := do
  let es ← Validation.problems vs s.form s.snapshot links
  if es.isEmpty then return ⟨s.form.type.id, s.snapshot, signers⟩ else refuse (.valuesInvalid es)

/-- Looks up the links of a document, validates it and takes it over. -/
def prepare (vs : Validators) (c : Catalog) (r : Resolver) (s : Store)
    (known : List DocumentType) (signers : Signers String) : Resolver × Except Fault Submission :=
  match begin r s known with
  | .error e => (r, .error e)
  | .ok (r, _) =>
    let r := r.run c
    (r, judge vs s signers r.resolved)

end Submission
end DocForms
