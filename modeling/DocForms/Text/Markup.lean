/-! Escaping of texts that are placed into HTML content. -/
namespace DocForms.Text

/-- The entity written for a character that HTML gives a meaning, or the character itself. -/
def escapeMarkupChar (c : Char) : List Char :=
  match c with
  | '&' => ['&', 'a', 'm', 'p', ';']
  | '<' => ['&', 'l', 't', ';']
  | '>' => ['&', 'g', 't', ';']
  | '"' => ['&', 'q', 'u', 'o', 't', ';']
  | '\'' => ['&', '#', 'x', '2', '7', ';']
  | c => [c]

/-- The text with ampersands, angle brackets and both quotation marks as entities. -/
def escapeMarkup (s : String) : String := String.ofList (s.toList.flatMap escapeMarkupChar)

end DocForms.Text
