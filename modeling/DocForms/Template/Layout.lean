import DocForms.Shape.Basic
import DocForms.Template.Binding
import DocForms.Value.Equality

/-! Saved templates: the content with its tokens and the page that it is printed on. -/
namespace DocForms

/-- The sizes of a page. -/
inductive PageSize where
  | a4 | a3 | letter | legal
deriving DecidableEq, Repr

namespace PageSize

/-- Every size, in the order in which messages list them. -/
def all : List PageSize := [.a4, .a3, .letter, .legal]

/-- The written name. -/
def name : PageSize → String
  | .a4 => "A4"
  | .a3 => "A3"
  | .letter => "Letter"
  | .legal => "Legal"

/-- The size with a written name. -/
def ofName? (s : String) : Option PageSize := all.find? (·.name == s)

end PageSize

/-- Which side of a page is the long one. -/
inductive Orientation where
  | portrait | landscape
deriving DecidableEq, Repr

namespace Orientation

/-- Both orientations, in the order in which messages list them. -/
def all : List Orientation := [.portrait, .landscape]

/-- The written name. -/
def name : Orientation → String
  | .portrait => "portrait"
  | .landscape => "landscape"

/-- The orientation with a written name. -/
def ofName? (s : String) : Option Orientation := all.find? (·.name == s)

end Orientation

/-- The blank space at the four sides of a page. -/
structure Margins where
  top : Number := .int 20
  right : Number := .int 20
  bottom : Number := .int 20
  left : Number := .int 20
deriving DecidableEq, Repr

/-- A template with its page. -/
structure Template where
  content : String
  pageSize : PageSize := .a4
  orientation : Orientation := .portrait
  margins : Margins := {}
  /-- The sections of templates in the older layout. -/
  sections : List Value := []
deriving DecidableEq

namespace Template

/-- What a template payload has to look like. -/
def shape : Shape :=
  let side : Shape := [.type [.number], .minimum (.int 0)]
  [.type [.object],
   .required ["content"],
   .properties [
     ("content", [.type [.string]]),
     ("sections", [.type [.array], .items [.type [.object]]]),
     ("pageSize", [.oneOf (PageSize.all.map fun p => .text p.name)]),
     ("orientation", [.oneOf (Orientation.all.map fun o => .text o.name)]),
     ("margins", [.type [.object],
       .properties [("top", side), ("right", side), ("bottom", side), ("left", side)]])]]

/-- The margins of a payload; a side that is not given keeps its default. -/
def marginsOf (v : Value) : Margins :=
  match v with
  | .record es =>
    let side (name : String) (default : Number) :=
      ((Entries.get? es name).bind Value.number?).getD default
    let m : Margins := {}
    ⟨side "top" m.top, side "right" m.right, side "bottom" m.bottom, side "left" m.left⟩
  | _ => {}

/-- The template that a payload describes. -/
def ofValue (data : Value) : Except Fault Template :=
  match shape.violation? data with
  | some v => refuse (.templateMalformed v.message)
  | none => do
    let es ← data.entries
    let content := match Entries.get es "content" with
      | .text s => s
      | _ => ""
    let pageSize := match Entries.get es "pageSize" with
      | .text s => (PageSize.ofName? s).getD .a4
      | _ => .a4
    let orientation := match Entries.get es "orientation" with
      | .text s => (Orientation.ofName? s).getD .portrait
      | _ => .portrait
    let sections := match Entries.get es "sections" with
      | .list vs => vs
      | _ => []
    return { content, pageSize, orientation, margins := marginsOf (Entries.get es "margins"),
             sections }

/-- The margins as a payload. -/
def marginsValue (m : Margins) : Value :=
  .named [("top", .ofNumber m.top), ("right", .ofNumber m.right),
    ("bottom", .ofNumber m.bottom), ("left", .ofNumber m.left)]

/-- The template as a payload; sections are left out when there are none. -/
def toValue (t : Template) : Value :=
  .named ([("content", .text t.content), ("pageSize", .text t.pageSize.name),
    ("orientation", .text t.orientation.name), ("margins", marginsValue t.margins)] ++
    if t.sections.isEmpty then [] else [("sections", .list (Value.plainItems t.sections))])

/-- The raw tokens that the form has no field for. -/
def unknownPlaceholders (t : Template) (form : Form) : Except Fault (List String) := do
  return (← unknownTokens form t.content).map (·.raw)

/-- The template with its content bound to a snapshot. -/
def bound (t : Template) (rs : Renderers) (s : Snapshot) (form : Option Form) :
    Except Fault Template := do
  return { t with content := ← bind rs t.content s form true }

end Template
end DocForms
