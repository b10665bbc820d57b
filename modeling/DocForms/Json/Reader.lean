import DocForms.Decimal.Reader
import DocForms.Json.Error
import DocForms.Value.Basic

/-! The reader of JSON texts. Records keep the order of their entries, a repeated name keeps its
place and takes the last value, integers stay exact, and the names of the numbers that are not
finite are read as well. A defect carries how much of the text was left at its place. -/
namespace DocForms.Json

/-- A defect at the place where `rest` begins. -/
def fail {α : Type} (d : Defect) (rest : List Char) : Except Error α := .error ⟨d, rest.length⟩

/-- White space between the pieces of a text. -/
def isSpace (c : Char) : Bool := c == ' ' || c == '\t' || c == '\n' || c == '\r'

/-- The text from the next piece on. -/
def skip (cs : List Char) : List Char := cs.dropWhile isSpace

/-! ### Texts -/

/-- The value of a hexadecimal digit. -/
def hexValue? (c : Char) : Option Nat :=
  if '0' ≤ c ∧ c ≤ '9' then some (c.toNat - 48)
  else if 'a' ≤ c ∧ c ≤ 'f' then some (c.toNat - 87)
  else if 'A' ≤ c ∧ c ≤ 'F' then some (c.toNat - 55)
  else none

/-- The number of four hexadecimal digits, and the rest. -/
def hexFour? : List Char → Option (Nat × List Char)
  | a :: b :: c :: d :: rest => do
    let a ← hexValue? a
    let b ← hexValue? b
    let c ← hexValue? c
    let d ← hexValue? d
    some (((a * 16 + b) * 16 + c) * 16 + d, rest)
  | _ => none

/-- The character that an escape letter stands for. -/
def escaped? : Char → Option Char
  | '"' => some '"'
  | '\\' => some '\\'
  | '/' => some '/'
  | 'b' => some '\x08'
  | 'f' => some '\x0c'
  | 'n' => some '\n'
  | 'r' => some '\r'
  | 't' => some '\t'
  | _ => none

/-- The character of a numeric escape, whose digits begin at `cs`, and the rest. Two escapes that
form a surrogate pair are one character; other surrogates stay single. The last digit may not be the end of the text. -/
def readUnicode (cs : List Char) : Except Error (Char × List Char) :=
  match cs.drop 4 with
  | [] => .error ⟨.badUnicodeEscape, cs.length + 1⟩
  | after =>
    match hexFour? cs with
    | none => .error ⟨.badUnicodeEscape, cs.length + 1⟩
    | some (high, _) =>
      match after with
      | '\\' :: 'u' :: more =>
        if 0xD800 ≤ high ∧ high < 0xDC00 ∧ 4 < more.length then
          match hexFour? more with
          | none => .error ⟨.badUnicodeEscape, more.length + 1⟩
          | some (low, rest) =>
            if 0xDC00 ≤ low ∧ low < 0xE000 then
              .ok (Char.ofNat (0x10000 + (high - 0xD800) * 0x400 + (low - 0xDC00)), rest)
            else .ok (Text.ofCode high, after)
        else .ok (Text.ofCode high, after)
      | _ => .ok (Text.ofCode high, after)

/-- The characters of a text up to its closing quotation mark, after those in `done`, last first.
`start` is the whole text from the opening mark on. -/
def readChars (start : List Char) :
    (fuel : Nat) → (done : List Char) → List Char → Except Error (List Char × List Char)
  | 0, _, _ => fail .unterminatedText start
  | _ + 1, _, [] => fail .unterminatedText start
  | fuel + 1, done, c :: cs =>
    if c == '"' then .ok (done.reverse, cs)
    else if c == '\\' then
      match cs with
      | [] => fail .unterminatedText start
      | 'u' :: digits =>
        match readUnicode digits with
        | .error e => .error e
        | .ok (d, rest) => readChars start fuel (d :: done) rest
      | e :: rest =>
        match escaped? e with
        | none => fail .badEscape (c :: cs)
        | some d => readChars start fuel (d :: done) rest
    else if c.toNat < 0x20 then fail .controlCharacter (c :: cs)
    else readChars start fuel (c :: done) cs

/-- A text whose opening quotation mark begins `start` and has been read. -/
def readText (fuel : Nat) (start cs : List Char) : Except Error (String × List Char) := do
  let (ds, rest) ← readChars start fuel [] cs
  .ok (String.ofList ds, rest)

/-! ### Numbers -/

/-- The leading ASCII digits and the rest. -/
def digits (cs : List Char) : List Char × List Char := cs.span Char.isDigit

/-- The value of ASCII digits. -/
def digitsValue (ds : List Char) : Nat := ds.foldl (fun n c => n * 10 + (c.toNat - 48)) 0

/-- A fraction after the whole part, if a point and a digit follow. -/
def fraction (cs : List Char) : Option (List Char × List Char) :=
  match cs with
  | '.' :: rest => match digits rest with
    | ([], _) => none
    | found => some found
  | _ => none

/-- An exponent, if its letter and, after an optional sign, a digit follow. -/
def exponent (cs : List Char) : Option (Int × List Char) :=
  match cs with
  | c :: rest =>
    if c == 'e' || c == 'E' then
      let (neg, rest) := Decimal.takeSign rest
      match digits rest with
      | ([], _) => none
      | (ds, rest) => some (if neg then -(digitsValue ds : Int) else digitsValue ds, rest)
    else none
  | [] => none

/-- A number after its sign: an integer, or a binary number if it has a fraction or an exponent.
No digit follows a leading zero. -/
def readNumber (start : List Char) (neg : Bool) (cs : List Char) :
    Except Error (Value × List Char) :=
  let (whole, rest) := match cs with
    | '0' :: rest => (['0'], rest)
    | cs => digits cs
  if whole.isEmpty then fail .expectingValue start
  else
    let (places, rest, isFloat) := match fraction rest with
      | some (ds, rest) => (ds, rest, true)
      | none => ([], rest, false)
    let (power, rest, isFloat) := match exponent rest with
      | some (e, rest) => (e, rest, true)
      | none => (0, rest, isFloat)
    if isFloat then
      .ok (.float (Binary64.ofDecimal neg (digitsValue (whole ++ places)) (power - places.length)),
        rest)
    else if Decimal.maxIntegerDigits < whole.length then fail (.integerTooLong whole.length) start
    else
      let n : Int := digitsValue whole
      .ok (.int (if neg then -n else n), rest)

/-- The words and their values. -/
def words : List (List Char × Value) :=
  [("null".toList, .null), ("true".toList, .bool true), ("false".toList, .bool false),
    ("NaN".toList, .float .nan), ("Infinity".toList, .float (.infinite false)),
    ("-Infinity".toList, .float (.infinite true))]

/-- A value that is one word, and the rest. -/
def readWord? (cs : List Char) : Option (Value × List Char) :=
  words.findSome? fun w => if w.1.isPrefixOf cs then some (w.2, cs.drop w.1.length) else none

/-! ### Values -/

mutual

/-- A value. -/
def readValue : (fuel : Nat) → List Char → Except Error (Value × List Char)
  | 0, cs => fail .expectingValue cs
  | fuel + 1, cs =>
    match cs with
    | '"' :: rest => do
      let (s, rest) ← readText fuel cs rest
      .ok (.text s, rest)
    | '\x7b' :: rest => do
      let rest := skip rest
      match rest with
      | '\x7d' :: rest => .ok (.record [], rest)
      | rest => do
        let (es, rest) ← readEntries fuel [] rest
        .ok (.record es, rest)
    | '[' :: rest => do
      let rest := skip rest
      match rest with
      | ']' :: rest => .ok (.list [], rest)
      | rest => do
        let (vs, rest) ← readItems fuel rest
        .ok (.list vs, rest)
    | cs =>
      match readWord? cs with
      | some (v, rest) => .ok (v, rest)
      | none => match cs with
        | '-' :: rest => readNumber cs true rest
        | cs => readNumber cs false cs

/-- The items of a list up to its closing bracket. -/
def readItems : (fuel : Nat) → List Char → Except Error (List Value × List Char)
  | 0, cs => fail .expectingValue cs
  | fuel + 1, cs => do
    let (v, rest) ← readValue fuel cs
    let rest := skip rest
    match rest with
    | ']' :: rest => .ok ([v], rest)
    | ',' :: rest => do
      let (vs, rest) ← readItems fuel (skip rest)
      .ok (v :: vs, rest)
    | rest => fail .expectingComma rest

/-- The entries of a record up to its closing brace, put after those in `es`. -/
def readEntries : (fuel : Nat) → Entries → List Char → Except Error (Entries × List Char)
  | 0, _, cs => fail .expectingName cs
  | fuel + 1, es, cs => do
    match cs with
    | '"' :: rest => do
      let (name, rest) ← readText fuel cs rest
      match skip rest with
      | ':' :: rest => do
        let (v, rest) ← readValue fuel (skip rest)
        let es := es.set name v
        match skip rest with
        | '\x7d' :: rest => .ok (es, rest)
        | ',' :: rest => readEntries fuel es (skip rest)
        | rest => fail .expectingComma rest
      | rest => fail .expectingColon rest
    | cs => fail .expectingName cs

end

/-- The value of a whole text. -/
def readChars? (cs : List Char) : Except Error Value :=
  match cs with
  | '\ufeff' :: _ => fail .byteOrderMark cs
  | cs => do
    let start := skip cs
    let (v, rest) ← readValue (2 * start.length + 2) start
    match skip rest with
    | [] => .ok v
    | rest => fail .extraData rest

/-- The value of a whole text. -/
def read (s : String) : Except Error Value := readChars? s.toList

end DocForms.Json
