/-! References from one document to another by number. -/
namespace DocForms

/-- How a document relates to the one it refers to. -/
inductive LinkType where
  | reference | parent | child | authorization | entry | exit | continuation
deriving DecidableEq, Repr, Inhabited

namespace LinkType

/-- Every relation, in the order in which messages list them. -/
def all : List LinkType :=
  [.reference, .parent, .child, .authorization, .entry, .exit, .continuation]

/-- The written name of a relation. -/
def name : LinkType → String
  | .reference => "reference"
  | .parent => "parent"
  | .child => "child"
  | .authorization => "authorization"
  | .entry => "entry"
  | .exit => "exit"
  | .continuation => "continuation"

/-- The relation with a written name. -/
def ofName? (s : String) : Option LinkType := all.find? (·.name == s)

theorem ofName?_name (t : LinkType) : ofName? t.name = some t := by cases t <;> decide

end LinkType

/-- A reference to the document of a type that carries a number. -/
structure LinkValue where
  documentNumber : String
  documentTypeId : String
  linkType : LinkType := .reference
deriving DecidableEq, Repr, Inhabited

end DocForms
