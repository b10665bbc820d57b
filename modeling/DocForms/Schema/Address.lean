import DocForms.Value.Written

/-! Where the value of a field stands in a document. Every place has a written key, which error
maps and link lookups use. -/
namespace DocForms

/-- The place of a field's value. -/
inductive Address where
  /-- An ungrouped field. -/
  | top (field : String)
  /-- A field of a group with one row. -/
  | member (group field : String)
  /-- A field in a row of a repeatable group. -/
  | cell (group : String) (row : Nat) (field : String)
deriving DecidableEq, Repr

namespace Address

/-- The key of a field of a group, perhaps in a row. -/
def memberKey (group : String) (row : Option String) (field : String) : String :=
  match row with
  | none => group ++ "." ++ field
  | some i => group ++ "[" ++ i ++ "]." ++ field

/-- The key of a place. -/
def key : Address → String
  | .top field => field
  | .member group field => memberKey group none field
  | .cell group row field => memberKey group (some (toString row)) field

/-- The key of a field, of which the group and the row are given if it has any. The names and the row
need to have a text, if there is a group. -/
def keyOf (field group row : Value) : Except Fault Value := do
  if group.isNull then return field
  else
    let group ← group.written .loose
    let row ← if row.isNull then pure none else some <$> row.written .loose
    return .text (memberKey group row (← field.written .loose))

end Address
end DocForms
