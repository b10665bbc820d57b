import DocForms.Json.Reader
import DocForms.Schema.Kind
import DocForms.Shape.Basic
import DocForms.Value.Access
import DocForms.Value.Equality

/-! The constraints of a field: its options, whose form depends on the kind, and its validation
rules. Both come as JSON texts or as decoded values, and both can be written back. -/
namespace DocForms

/-- One choice of a select field. -/
structure Choice where
  value : String
  label : String
deriving DecidableEq, Repr

/-- How the links of a field are restricted: to one type of document, and with which relation. -/
structure LinkOptions where
  target : Option String := none
  linkType : LinkType := .reference
deriving DecidableEq, Repr

/-- The options of a field. -/
inductive Options where
  | choices (cs : List Choice)
  | link (o : LinkOptions)
  /-- A payload that the kind does not interpret, in canonical form. -/
  | payload (v : Value)
deriving DecidableEq

/-- Bounds on the value of a field. -/
structure Rules where
  minimum : Option Number := none
  maximum : Option Number := none
  minLength : Option Number := none
  maxLength : Option Number := none
  pattern : Option Pattern := none
deriving DecidableEq

/-! ### Canonical payloads -/

/-- The text that a key becomes in JSON; days and moments become none. -/
def Atom.jsonKey? : Atom → Option String
  | .null => some "null"
  | .bool b => some (if b then "true" else "false")
  | .int n => some (integerText n)
  | .float .nan => some "NaN"
  | .float (.infinite neg) => some (if neg then "-Infinity" else "Infinity")
  | .float x => some (Decimal.text x)
  | .text s => some s
  | .date _ => none
  | .moment _ => none

/-- Whether two keys are in order; none if they cannot be compared. -/
def Atom.inOrder? : Atom → Atom → Option Bool
  | .text s, .text t => some (decide (s ≤ t))
  | a, b =>
    match a.number?, b.number? with
    | some x, some y => some (!y.lt x)
    | _, _ => none

/-- Entries in the order of their keys, all of which have to be comparable. -/
def Entries.sorted? (es : Entries) : Option Entries :=
  let comparable := es.all fun a => es.all fun b => (a.1.inOrder? b.1).isSome
  if es.length ≤ 1 || comparable then
    some (es.mergeSort fun a b => (a.1.inOrder? b.1).getD true)
  else none

namespace Value

mutual

/-- The value as JSON would keep it: entries are sorted by key and keys are texts. Days, moments,
references and records with keys that cannot be compared have no such form. -/
def canonical? : Value → Option Value
  | .atom (.date _) => none
  | .atom (.moment _) => none
  | .atom a => some (.atom a)
  | .link _ => none
  | .list vs => (canonicalItems? vs).map .list
  | .record es => (canonicalEntries? es).bind fun es =>
      (Entries.sorted? es).bind fun es =>
        (es.mapM fun (e : Atom × Value) => e.1.jsonKey?.map fun k => (Atom.text k, e.2)).map .record

/-- The items of a list in canonical form. -/
def canonicalItems? : List Value → Option (List Value)
  | [] => some []
  | v :: vs => (canonical? v).bind fun v => (canonicalItems? vs).map (v :: ·)

/-- Entries with their values in canonical form. -/
def canonicalEntries? : List (Atom × Value) → Option (List (Atom × Value))
  | [] => some []
  | (k, v) :: es => (canonical? v).bind fun v => (canonicalEntries? es).map ((k, v) :: ·)

end

end Value

/-! ### Decoding -/

/-- A payload as a value: blank texts are none, other texts are JSON. -/
def decodePayload (defect : Json.Defect → Refusal) (raw : Value) : Except Fault Value :=
  match raw with
  | .text s =>
    if Text.isBlankText s then .ok .null
    else match Json.read s with
      | .ok v => .ok v
      | .error e =>
        if e.defect.isLimit then misuse .content else refuse (defect e.defect)
  | v => .ok v

/-- A choice from a text, a number, or a record with a value and perhaps a label. -/
def Choice.ofValue (field : Option String) (entry : Value) : Except Fault Choice :=
  let malformed : Except Fault Choice := do
    refuse (.choiceMalformed field (← entry.writtenQuoted .loose))
  match entry with
  | .null => refuse (.choiceMissing field (entry.quoted .loose))
  | .bool _ => refuse (.choiceMissing field (entry.quoted .loose))
  | .text s => .ok ⟨s, s⟩
  | .int _ => do
    let s ← entry.written .loose
    return ⟨s, s⟩
  | .float x => .ok ⟨Decimal.text x, Decimal.text x⟩
  | .record es =>
    let value := Entries.get es "value"
    if value.isNull then malformed
    else do
      let label := Entries.get es "label"
      let label := if label.isNull then value else label
      return ⟨← value.written .loose, ← label.written .loose⟩
  | _ => malformed

/-- The choice as a record. -/
def Choice.toValue (c : Choice) : Value :=
  .named [("value", .text c.value), ("label", .text c.label)]

/-- What the options of a link field have to look like. -/
def linkOptionsShape : Shape :=
  [.type [.object],
   .properties [
     ("targetDocumentTypeId", [.type [.string, .null]]),
     ("linkType", [.oneOf (LinkType.all.map (fun t => Value.text t.name) ++ [.null])])]]

/-- Link options from a decoded payload. -/
def LinkOptions.ofValue (field : Option String) (data : Value) : Except Fault LinkOptions := do
  match ← linkOptionsShape.report data with
  | some v => refuse (.linkOptionsMalformed field v.message)
  | none =>
    match data with
    | .record es =>
      let target := match Entries.get es "targetDocumentTypeId" with
        | .text s => if s = "" then none else some s
        | _ => none
      let linkType := match Entries.get es "linkType" with
        | .text s => (LinkType.ofName? s).getD .reference
        | _ => .reference
      .ok ⟨target, linkType⟩
    | _ => .ok {}

/-- Link options as a record; a missing target is left out. -/
def LinkOptions.toValue (o : LinkOptions) : Value :=
  .named (("linkType", .text o.linkType.name) ::
    match o.target with
    | some t => if t = "" then [] else [("targetDocumentTypeId", .text t)]
    | none => [])

namespace Options

/-- The options of a field of a kind from a payload. A link field always has options. -/
def parse (kind : FieldKind) (raw : Value) (field : Option String) :
    Except Fault (Option Options) := do
  let data ← decodePayload (.optionsNotJson field) raw
  match kind, data with
  | .documentLink, .null => return some (.link {})
  | .documentLink, data => return some (.link (← LinkOptions.ofValue field data))
  | _, .null => return none
  | .select, .list entries => return some (.choices (← entries.mapM (Choice.ofValue field)))
  | .select, _ => refuse (.optionsNotList field)
  | _, data =>
    match data.canonical? with
    | some v => if data.hasText then return some (.payload v) else misuse .content
    | none => misuse .operand

/-- The options as a payload. -/
def toValue : Options → Value
  | .choices cs => .list (cs.map Choice.toValue)
  | .link o => o.toValue
  | .payload v => v

/-- The choices of a select field, if it has any options. -/
def choices? : Option Options → Option (List Choice)
  | some (.choices cs) => some cs
  | _ => none

/-- The link options of a field; without any, links are unrestricted. -/
def linkOptions : Option Options → LinkOptions
  | some (.link o) => o
  | _ => {}

end Options

/-- Whether a value is one of the choices, as a text. -/
def allows (cs : List Choice) (text : String) : Bool := cs.any (·.value == text)

/-- The label of the first choice with a value. -/
def labelFor? (cs : List Choice) (text : String) : Option String :=
  (cs.find? (·.value == text)).map (·.label)

namespace Rules

/-- What validation rules have to look like. -/
def shape : Shape :=
  let length : Shape := [.type [.integer], .minimum (.int 0)]
  [.type [.object],
   .properties [
     ("min", [.type [.number]]),
     ("max", [.type [.number]]),
     ("minLength", length),
     ("maxLength", length),
     ("pattern", [.type [.string]])]]

/-- Whether there is no rule at all. -/
def isEmpty (r : Rules) : Bool :=
  r.minimum.isNone && r.maximum.isNone && r.minLength.isNone && r.maxLength.isNone &&
    r.pattern.isNone

/-- Whether both numbers are given and the first is greater. -/
def crossed (low high : Option Number) : Bool :=
  match low, high with
  | some a, some b => b.lt a
  | _, _ => false

/-- The pattern of a rule payload. -/
def parsePattern (field : Option String) (v : Value) : Except Fault (Option Pattern) :=
  match v with
  | .text s =>
    match Pattern.ofSource s with
    | .ok p => .ok (some p)
    | .error .malformed => refuse (.patternMalformed field)
    | .error .hugeCount => misuse .magnitude
    | .error .conflictingFlags => misuse .content
  | _ => .ok none

/-- Validation rules from a payload; unknown entries are ignored, and no rule at all is none. -/
def parse (raw : Value) (field : Option String) : Except Fault (Option Rules) := do
  let data ← decodePayload (.rulesNotJson field) raw
  if data.isNull then return none
  match ← shape.report data with
  | some v => refuse (.rulesMalformed field v.message)
  | none =>
    let es ← data.entries
    let pattern ← parsePattern field (Entries.get es "pattern")
    let number (name : String) := (Entries.get es name).number?
    let rules : Rules :=
      ⟨number "min", number "max", number "minLength", number "maxLength", pattern⟩
    if crossed rules.minimum rules.maximum then refuse (.boundsCrossed field)
    else if crossed rules.minLength rules.maxLength then refuse (.lengthsCrossed field)
    else return if rules.isEmpty then none else some rules

/-- A named entry for a number that is given. -/
def numberEntry (name : String) (n : Option Number) : List (String × Value) :=
  n.toList.map fun n => (name, .ofNumber n)

/-- The rules that are given, as a record. -/
def toValue (r : Rules) : Value :=
  .named (numberEntry "min" r.minimum ++ numberEntry "max" r.maximum ++
    numberEntry "minLength" r.minLength ++ numberEntry "maxLength" r.maxLength ++
    r.pattern.toList.map fun p => ("pattern", .text p.source))

end Rules

/-- The parsed payloads of a field, and the messages of those that could not be parsed. -/
structure Constraints where
  options : Option Options := none
  rules : Option Rules := none
  problems : List String := []
deriving DecidableEq

/-- A payload's result, or the message of its own kind of refusal when that is to be recorded. -/
def recordRefusal {α : Type} (strict : Bool) (own : Refusal → Bool) (r : Except Fault (Option α)) :
    Except Fault (Option α × List String) :=
  match r with
  | .ok a => .ok (a, [])
  | .error (.refused e) =>
    if !strict && own e then .ok (none, [e.message]) else .error (.refused e)
  | .error e => .error e

/-- Both payloads of a field. With `strict` the first malformed one is refused; otherwise its
message is recorded and the field goes without it. -/
def Constraints.parse (strict : Bool) (kind : FieldKind) (rawOptions rawRules : Value)
    (field : Option String) : Except Fault Constraints := do
  let (options, first) ←
    recordRefusal strict Refusal.isOptions (Options.parse kind rawOptions field)
  let (rules, second) ← recordRefusal strict Refusal.isRules (Rules.parse rawRules field)
  return ⟨options, rules, first ++ second⟩

end DocForms
