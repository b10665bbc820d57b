import DocForms.Catalog.Document
import DocForms.Schema.Record
import DocForms.Validation.Reading
import DocForms.Value.LinkReader
import DocForms.Value.Written

/-! The rule of every kind of field: what a value that is not blank has to be like. -/
namespace DocForms

/-- The outcome of the link lookups by key: a document, or none for a number that was not
found. -/
abbrev ResolvedLinks := List (String × Option Document)

/-- The document found for a key. -/
def ResolvedLinks.document? (links : ResolvedLinks) (key : String) : Option Document :=
  (links.lookup key).join

/-- Checks a value of a field at a key; gives the message if the value is not acceptable. -/
abbrev Validator := Field → Value → String → ResolvedLinks → Except Fault (Option String)

namespace Validation

/-- The value is acceptable. -/
def accept : Except Fault (Option String) := .ok none

/-- The value of the field is not acceptable, for the reason given. -/
def reject (f : Field) (reason : String) : Except Fault (Option String) :=
  .ok (some (f.label ++ reason))

/-- The text of a kept value, if it has one. -/
def shown (v : Value) : Except Fault String := v.written .kept

/-- The text of a length bound, if it has one. -/
def lengthText (n : Number) : Except Fault String := (Value.ofNumber n).written .loose

/-- The text of a number bound; integers beyond the binary numbers have none. -/
def boundText : Number → Except Fault String
  | .float x => .ok (Decimal.boundText x)
  | .int n =>
    match Binary64.ofInt? n with
    | some x => .ok (Decimal.boundText x)
    | none => misuse .magnitude

/-- Whether a bound is given and `bad` holds of it. -/
def breaks {α : Type} (bound : Option α) (bad : α → Bool) : Option α := bound.filter bad

/-- The length and the pattern that a text has to have. -/
def lengthAndPattern (f : Field) (text : String) : Except Fault (Option String) :=
  match f.rules with
  | none => accept
  | some r =>
    let length := Number.int text.length
    match breaks r.minLength length.lt with
    | some n => do reject f (" must be at least " ++ (← lengthText n) ++ " characters")
    | none =>
      match breaks r.maxLength (·.lt length) with
      | some n => do reject f (" must be at most " ++ (← lengthText n) ++ " characters")
      | none =>
        match breaks r.pattern fun p => !p.occursIn text with
        | some _ => reject f " has an invalid format"
        | none => accept

/-- The range that a number has to be in. -/
def range (f : Field) (number : Number) : Except Fault (Option String) :=
  match f.rules with
  | none => accept
  | some r =>
    match breaks r.minimum number.lt with
    | some n => do reject f (" must be at least " ++ (← boundText n))
    | none =>
      match breaks r.maximum (·.lt number) with
      | some n => do reject f (" must be at most " ++ (← boundText n))
      | none => accept

/-- Text fields take scalars and references, as texts. -/
def text : Validator := fun f v _ _ =>
  match v with
  | .list _ => reject f " must be text"
  | .record _ => reject f " must be text"
  | v => do lengthAndPattern f (← shown v)

/-- Number fields take numbers, also as texts. -/
def number : Validator := fun f v _ _ =>
  match v.readNumber? with
  | none => reject f " must be a number"
  | some n => range f n

/-- Date fields take days and texts that begin with one. -/
def date : Validator := fun f v _ _ =>
  if v.readDate?.isNone then reject f " must be a date (YYYY-MM-DD)" else accept

/-- Date and time fields take moments, also as texts. -/
def moment : Validator := fun f v _ _ =>
  if v.readMoment?.isNone then reject f " must be a date and time" else accept

/-- Select fields take their choices; without choices they take anything. -/
def select : Validator := fun f v _ _ =>
  match f.choices? with
  | none => accept
  | some cs => do
    let text ← shown v
    if allows cs text then accept else reject f (": '" ++ text ++ "' is not an allowed option")

/-- Checkbox fields take the truth values, also as texts and as numbers. -/
def checkbox : Validator := fun f v _ _ =>
  let ok := match v with
    | .bool _ => true
    | .text s => s == "true" || s == "false"
    | v => match v.number? with
      | some n => n.eq (.int 0) || n.eq (.int 1)
      | none => false
  if ok then accept else reject f " must be checked or unchecked"

/-- File fields take texts and records. -/
def file : Validator := fun f v _ _ =>
  match v with
  | .text _ => accept
  | .record _ => accept
  | _ => reject f " must reference a file"

/-- Link fields take references with a number and a type, to the target type if there is one, for
which a document with just that number was found at the same key. -/
def link : Validator := fun f v key links =>
  match LinkValue.ofValue? v with
  | none => reject f " must reference a document number and a document type"
  | some l =>
    if Text.isBlankText l.documentNumber || Text.isBlankText l.documentTypeId then
      reject f " must reference a document number and a document type"
    else
      let elsewhere := match f.linkOptions.target with
        | some t => t != "" && l.documentTypeId != t
        | none => false
      if elsewhere then reject f " must reference a document of the target type"
      else
        match links.document? key with
        | some d =>
          if d.number = .text (Text.trim l.documentNumber) then accept
          else .ok (some ("Document '" ++ l.documentNumber ++ "' was not found"))
        | none => .ok (some ("Document '" ++ l.documentNumber ++ "' was not found"))

end Validation

/-- The validator of every kind. -/
abbrev Validators := FieldKind → Validator

namespace Validators

/-- The validators that hold unless another one is registered. -/
def standard : Validators
  | .text => Validation.text
  | .textarea => Validation.text
  | .number => Validation.number
  | .date => Validation.date
  | .datetime => Validation.moment
  | .select => Validation.select
  | .checkbox => Validation.checkbox
  | .file => Validation.file
  | .documentLink => Validation.link

/-- The validators with that of a kind replaced. -/
def register (vs : Validators) (kind : FieldKind) (v : Validator) : Validators :=
  fun k => if k = kind then v else vs k

end Validators
end DocForms
