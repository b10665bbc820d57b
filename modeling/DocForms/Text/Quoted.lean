import DocForms.Text.Class

/-! Quoted texts. A text stands between apostrophes, or between double quotes when it holds
apostrophes and no double quote; whatever would not be visible is written as an escape. -/
namespace DocForms.Text

/-- A number in hexadecimal, filled with zeros up to `width` digits. -/
def hex (width n : Nat) : List Char :=
  let ds := Nat.toDigits 16 n
  List.replicate (width - ds.length) '0' ++ ds

/-- The delimiter that a text is quoted with. -/
def quoteMark (cs : List Char) : Char :=
  if cs.contains '\'' && !cs.contains '"' then '"' else '\''

/-- One character inside a text delimited by `mark`. -/
def escapeChar (mark c : Char) : List Char :=
  if c == mark || c == '\\' then ['\\', c]
  else if c == '\n' then ['\\', 'n']
  else if c == '\r' then ['\\', 'r']
  else if c == '\t' then ['\\', 't']
  else if isPrintable c then [c]
  else if code c < 0x100 then '\\' :: 'x' :: hex 2 (code c)
  else if code c < 0x10000 then '\\' :: 'u' :: hex 4 (code c)
  else '\\' :: 'U' :: hex 8 (code c)

/-- The text between its delimiters, with its escapes. -/
def quoted (s : String) : String :=
  let cs := s.toList
  let mark := quoteMark cs
  String.ofList (mark :: cs.flatMap (escapeChar mark) ++ [mark])

end DocForms.Text
