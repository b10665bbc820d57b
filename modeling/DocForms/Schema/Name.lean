/-! The names that fields and groups may have, and the codes of document types. -/
namespace DocForms

/-- Lower-case ASCII letters. -/
def isLowerLetter (c : Char) : Bool := decide ('a' ≤ c) && decide (c ≤ 'z')

/-- What may follow the first letter of a name: lower-case letters, digits and underscores. -/
def isNameChar (c : Char) : Bool := isLowerLetter c || c.isDigit || c == '_'

/-- Names begin with a lower-case letter. -/
def isName (s : String) : Bool :=
  match s.toList with
  | [] => false
  | c :: cs => isLowerLetter c && cs.all isNameChar

/-- What a code consists of: capital letters, digits, underscores and hyphens. -/
def isCodeChar (c : Char) : Bool := c.isUpper || c.isDigit || c == '_' || c == '-'

/-- Codes are not empty. -/
def isCode (s : String) : Bool := s != "" && s.toList.all isCodeChar

end DocForms
