import DocForms.Decimal.Reader
import DocForms.Schema.Name
import DocForms.Text.Class

/-! Placeholder tokens in template texts. A text falls apart into tokens and single characters;
every token is found, and a text around it never hides it. -/
namespace DocForms

/-- What a token stands for. -/
inductive Placeholder where
  /-- An ungrouped field. -/
  | field (name : String)
  /-- A field of a group. -/
  | member (group name : String)
  /-- All signatures. -/
  | signatures
  /-- One signature, by the digits of its position. -/
  | signature (digits : List Nat)
deriving DecidableEq, Repr

namespace Placeholder

/-- Whether the token is left for the signing of the document. -/
def isSignature : Placeholder → Bool
  | .signatures => true
  | .signature _ => true
  | _ => false

/-- Two opening braces. -/
def opening : List Char := ['\x7b', '\x7b']

/-- Two closing braces. -/
def closing : List Char := ['\x7d', '\x7d']

/-- What the tokens of fields begin with. -/
def fieldLead : List Char := opening ++ "document.values.".toList

/-- What the tokens of single signatures begin with. -/
def signatureLead : List Char := opening ++ "signature_".toList

/-- The token of all signatures. -/
def signaturesToken : List Char := opening ++ "signatures".toList ++ closing

/-- The token of a field by its name, in a group if one is given. -/
def fieldToken (group : Option String) (name : String) : String :=
  let inner := match group with
    | none => name
    | some g => g ++ "." ++ name
  String.ofList (fieldLead ++ inner.toList ++ closing)

/-- The token of one signature by its position. -/
def signatureToken (position : String) : String :=
  String.ofList (signatureLead ++ position.toList ++ closing)

/-- The rest of a text after something that it begins with. -/
def after? (lead cs : List Char) : Option (List Char) :=
  if lead.isPrefixOf cs then some (cs.drop lead.length) else none

/-- The name that a text begins with, and the rest. -/
def name? (cs : List Char) : Option (List Char × List Char) :=
  match cs with
  | [] => none
  | c :: rest =>
    if isLowerLetter c then some (c :: rest.takeWhile isNameChar, rest.dropWhile isNameChar)
    else none

/-- The token of a field that a text begins with, and the rest. -/
def readField? (cs : List Char) : Option (Placeholder × List Char) := do
  let cs ← after? fieldLead cs
  let (first, rest) ← name? cs
  match rest with
  | '.' :: more =>
    let (second, rest) ← name? more
    let rest ← after? closing rest
    return (.member (String.ofList first) (String.ofList second), rest)
  | rest =>
    let rest ← after? closing rest
    return (.field (String.ofList first), rest)

/-- The token of all signatures that a text begins with, and the rest. -/
def readSignatures? (cs : List Char) : Option (Placeholder × List Char) :=
  (after? signaturesToken cs).map fun rest => (.signatures, rest)

/-- The token of one signature that a text begins with, and the rest. -/
def readSignature? (cs : List Char) : Option (Placeholder × List Char) := do
  let cs ← after? signatureLead cs
  let digits := (cs.takeWhile Text.isDigit).filterMap Text.digitValue?
  if digits.isEmpty then none
  else
    let rest ← after? closing (cs.dropWhile Text.isDigit)
    return (.signature digits, rest)

/-- The token that a text begins with, and the rest. -/
def read? (cs : List Char) : Option (Placeholder × List Char) :=
  (readField? cs).orElse fun _ => (readSignatures? cs).orElse fun _ => readSignature? cs

end Placeholder

/-- A part of a template text. -/
inductive Piece where
  | char (c : Char)
  | token (p : Placeholder) (raw : List Char)
deriving DecidableEq, Repr

namespace Piece

/-- The characters of a part. -/
def chars : Piece → List Char
  | .char c => [c]
  | .token _ raw => raw

/-- The parts of a text after its first `skip` characters, which belong to a token already
found. -/
def splitFrom : (skip : Nat) → List Char → List Piece
  | _, [] => []
  | skip + 1, _ :: cs => splitFrom skip cs
  | 0, c :: cs =>
    match Placeholder.read? (c :: cs) with
    | some (p, rest) =>
      let length := (c :: cs).length - rest.length
      .token p ((c :: cs).take length) :: splitFrom (length - 1) cs
    | none => .char c :: splitFrom 0 cs

/-- The parts of a text, from left to right. -/
def split (s : String) : List Piece := splitFrom 0 s.toList

end Piece

/-- A token at its place in a text. -/
structure Token where
  raw : String
  start : Nat
  finish : Nat
  placeholder : Placeholder
deriving DecidableEq, Repr

namespace Token

/-- The tokens among the parts of a text whose first part begins at `start`. -/
def ofPieces (start : Nat) : List Piece → List Token
  | [] => []
  | .char _ :: ps => ofPieces (start + 1) ps
  | .token p raw :: ps =>
    ⟨String.ofList raw, start, start + raw.length, p⟩ :: ofPieces (start + raw.length) ps

/-- The tokens of a text, from left to right. -/
def all (s : String) : List Token := ofPieces 0 (Piece.split s)

/-- Whether the position of a signature has so many digits that it cannot be read. -/
def isTooLong (t : Token) : Bool :=
  match t.placeholder with
  | .signature ds => Decimal.maxIntegerDigits < ds.length
  | _ => false

end Token
end DocForms
