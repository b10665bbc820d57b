import DocForms.Decimal.Reader

/-! What can be wrong with a JSON text, and where. -/
namespace DocForms.Json

/-- The defects of a JSON text. -/
inductive Defect where
  | expectingValue
  | expectingName
  | expectingColon
  | expectingComma
  | unterminatedText
  | controlCharacter
  | badEscape
  | badUnicodeEscape
  | extraData
  | byteOrderMark
  /-- An integer has more digits than are read. -/
  | integerTooLong (digits : Nat)
deriving DecidableEq, Repr

/-- The description of a defect. -/
def Defect.message : Defect → String
  | .expectingValue => "Expecting value"
  | .expectingName => "Expecting property name enclosed in double quotes"
  | .expectingColon => "Expecting ':' delimiter"
  | .expectingComma => "Expecting ',' delimiter"
  | .unterminatedText => "Unterminated string starting at"
  | .controlCharacter => "Invalid control character at"
  | .badEscape => "Invalid \\escape"
  | .badUnicodeEscape => "Invalid \\uXXXX escape"
  | .extraData => "Extra data"
  | .byteOrderMark => "Unexpected UTF-8 BOM (decode using utf-8-sig)"
  | .integerTooLong digits => "Exceeds the limit (" ++ toString Decimal.maxIntegerDigits ++
      " digits) for integer string conversion: value has " ++ toString digits ++
      " digits; use sys.set_int_max_str_digits() to increase the limit"

/-- Whether the text is JSON all the same, only too large to be read. -/
def Defect.isLimit : Defect → Bool
  | .integerTooLong _ => true
  | _ => false

/-- A defect and the number of characters from its place to the end of the text. -/
structure Error where
  defect : Defect
  left : Nat
deriving DecidableEq, Repr

/-- The description of a defect in `text` with its line, column and offset. -/
def Error.located (e : Error) (text : List Char) : String :=
  let offset := text.length - e.left
  let before := text.take offset
  let line := before.count '\n' + 1
  let column := (before.reverse.takeWhile (· != '\n')).length + 1
  e.defect.message ++ ": line " ++ toString line ++ " column " ++ toString column ++
    " (char " ++ toString offset ++ ")"

end DocForms.Json
