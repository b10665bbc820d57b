import DocForms.Rendering
import DocForms.Snapshot
import DocForms.Template.Token
import DocForms.Text.Markup

/-! Binding: every field token of a template is replaced by the displayed value of a snapshot.
Tokens of repeatable groups show the first row, and signature tokens stay. -/
namespace DocForms

namespace Placeholder

/-- The field that a token refers to in a form. -/
def field? (form : Form) : Placeholder → Option Field
  | .field name => form.field? name
  | .member group name => (form.group? group).bind (·.field? name)
  | _ => none

/-- Whether a token belongs to a repeatable group of the form. -/
def isRepeatable (form : Option Form) : Placeholder → Bool
  | .member group _ => ((form.bind (·.group? group)).map (·.repeatable)).getD false
  | _ => false

/-- The value that a token shows; of a list of rows it is that of the first. -/
def value (s : Snapshot) : Placeholder → Except Fault Value
  | .field name => s.simple.field name
  | .member group name => do
    match ← s.groups.field group with
    | .list (.record row :: _) => return Entries.get row name
    | .record row => return Entries.get row name
    | _ => return .null
  | _ => .ok .null

/-- The kinds of tokens as they are reported. -/
def kindName : Placeholder → String
  | .field _ => "field"
  | .member .. => "group_field"
  | .signatures => "signatures"
  | .signature _ => "signature"

end Placeholder

namespace Template

/-- The tokens of a template, from left to right. A signature position that is too long to be read
is an error. -/
def scan (template : String) : Except Fault (List Token) :=
  let ts := Token.all template
  if ts.any Token.isTooLong then misuse .content else .ok ts

/-- The field tokens that the form has no field for. -/
def unknownTokens (form : Form) (template : String) : Except Fault (List Token) := do
  return (← scan template).filter fun t =>
    !t.placeholder.isSignature && (t.placeholder.field? form).isNone

/-- The replacement of one part of a template. -/
def substitute (rs : Renderers) (s : Snapshot) (form : Option Form) (escape : Bool) :
    Piece → Except Fault (List Char)
  | .char c => .ok [c]
  | .token p raw =>
    match p with
    | .signatures => .ok raw
    | .signature ds => if Decimal.maxIntegerDigits < ds.length then misuse .content else .ok raw
    | p => do
      let text ← rs.render (← p.value s) (form.bind p.field?)
      return (if escape then Text.escapeMarkup text else text).toList

/-- The template with its field tokens replaced by displayed values. A value that cannot be displayed
is an error. -/
def bind (rs : Renderers) (template : String) (s : Snapshot) (form : Option Form)
    (escape : Bool) : Except Fault String := do
  let parts ← (Piece.split template).mapM (substitute rs s form escape)
  return String.ofList parts.flatten

/-- The token as it is reported. -/
def describe (form : Option Form) (t : Token) : Value :=
  let p := t.placeholder
  let (group, name) : Value × Value := match p with
    | .field name => (.null, .text name)
    | .member group name => (.text group, .text name)
    | _ => (.null, .null)
  let order : Value := match p with
    | .signature ds => .nat (Decimal.ofDigits ds)
    | _ => .null
  .named [("token", .text t.raw), ("start", .nat t.start), ("end", .nat t.finish),
    ("kind", .text p.kindName), ("fieldName", name), ("groupName", group),
    ("repeatable", .bool (p.isRepeatable form)), ("signatureOrder", order)]

end Template
end DocForms
