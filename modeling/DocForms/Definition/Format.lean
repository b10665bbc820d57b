import DocForms.Keyed
import DocForms.Schema.Kind
import DocForms.Shape.Basic
import DocForms.Value.Link

/-! What a definition of a document type has to look like. -/
namespace DocForms.Definition

/-- Small letters. -/
private def small : Pattern.Member := .range 97 122

/-- ASCII digits. -/
private def digit : Pattern.Member := .range 48 57

/-- One character of a set. -/
private def oneOf (members : List Pattern.Member) : Pattern.Node := .set false members .exact

/-- A line of nodes, with nothing before it and at most a line break after it. -/
private def line (n : Pattern.Node) : Pattern.Node :=
  .sequence (.anchor (.start false)) (.sequence n (.anchor (.finish false)))

/-- The pattern of the names of fields and groups. -/
def namePattern : Pattern where
  source := "^[a-z][a-z0-9_]*$"
  node := .sequence (.anchor (.start false)) (.sequence (oneOf [small])
    (.sequence (.repetition .greedy 0 none (oneOf [small, digit, .range 95 95]))
      (.anchor (.finish false))))

/-- The pattern of the codes of document types. -/
def codePattern : Pattern where
  source := "^[A-Z0-9_-]+$"
  node := line (.repetition .greedy 1 none
    (oneOf [.range 65 90, digit, .range 95 95, .range 45 45]))

/-- A text. -/
private def text : Shape := [.type [.string]]

/-- A text that is not empty. -/
private def label : Shape := [.type [.string], .minLength 1]

/-- A name. -/
private def name : Shape := [.type [.string], .matching namePattern]

/-- A code. -/
private def code : Shape := [.type [.string], .matching codePattern]

/-- A truth value. -/
private def flag : Shape := [.type [.boolean]]

/-- A text from a list. -/
private def choice (names : List String) : Shape := [.oneOf (names.map Value.text)]

/-- A record with these entries and no others, some of which it has to have. -/
private def record (required : List String) (entries : List (String × Shape)) : Shape :=
  [.type [.object], .required required, .closed (entries.map (·.1)), .properties entries]

/-- A list of values of one shape. -/
private def listOf (shape : Shape) : Shape := [.type [.array], .items shape]

/-- A field of a definition. -/
def fieldShape : Shape :=
  record ["name", "label", "type"] [
    ("name", name),
    ("label", label),
    ("type", choice (FieldKind.all.map FieldKind.name)),
    ("required", flag),
    ("options", []),
    ("target_code", code),
    ("link_type", choice (LinkType.all.map LinkType.name)),
    ("validation_rules", [])]

/-- A group of a definition. -/
def groupShape : Shape :=
  record ["name", "label"] [
    ("name", name),
    ("label", label),
    ("description", text),
    ("repeatable", flag),
    ("min_repeats", [.type [.integer], .minimum (.int 0)]),
    ("max_repeats", [.type [.integer], .minimum (.int 1)]),
    ("fields", listOf fieldShape)]

/-- A definition. -/
def shape : Shape :=
  record ["code", "name"] [
    ("schema_version", text),
    ("code", code),
    ("name", label),
    ("description", text),
    ("category_id", text),
    ("status", choice ["active", "inactive"]),
    ("fields", listOf fieldShape),
    ("groups", listOf groupShape)]

/-- The shapes that definitions can refer to, by version. -/
abbrev Formats := Keyed Shape

/-- The version that a definition has when it names none. -/
def usualVersion : String := "1.0"

/-- The formats that are always known. -/
def formats : Formats := [(usualVersion, shape)]

end DocForms.Definition
