import DocForms.Template.Layout

/-! The starter template of a form: a heading, a line for every field, and a table for every
repeatable group whose single row of tokens is repeated when the document is produced. -/
namespace DocForms.Template

/-- A text between an opening and a closing tag. -/
def tagged (tag content : String) : String := "<" ++ tag ++ ">" ++ content ++ "</" ++ tag ++ ">"

/-- A text with its markup escaped, between tags. -/
def taggedText (tag text : String) : String := tagged tag (Text.escapeMarkup text)

/-- A line with the label of a field and its token. -/
def labelled (label token : String) : String :=
  tagged "p" (tagged "strong" (Text.escapeMarkup label ++ ":") ++ " " ++ token)

/-- The table of a repeatable group. -/
def table (g : FieldGroup) : String :=
  let header := String.join (g.fields.map fun f => taggedText "th" f.label)
  let row := String.join (g.fields.map fun f =>
    tagged "td" (Placeholder.fieldToken (some g.name) f.name))
  tagged "table" (tagged "tr" header ++ tagged "tr" row)

/-- The lines of a group; a group without fields has none. -/
def groupLines (g : FieldGroup) : List String :=
  if g.fields.isEmpty then []
  else
    taggedText "h2" g.label ::
      if g.repeatable then [table g]
      else g.fields.map fun f => labelled f.label (Placeholder.fieldToken (some g.name) f.name)

/-- The lines of the starter template. -/
def starterLines (form : Form) : List String :=
  taggedText "h1" form.type.name ::
    (form.fields.map fun f => labelled f.label (Placeholder.fieldToken none f.name)) ++
    form.groups.flatMap groupLines ++ [tagged "p" (String.ofList Placeholder.signaturesToken)]

/-- The starter template of a form. -/
def starter (form : Form) : Template := { content := "\n".intercalate (starterLines form) }

end DocForms.Template
