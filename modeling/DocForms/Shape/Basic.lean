import DocForms.Pattern.Basic
import DocForms.Value.Same
import DocForms.Value.Written

/-! Shapes that payloads and definitions have to have, and the one violation that is reported of a
value that has not. -/
namespace DocForms

/-- The kinds of values that a shape can ask for. -/
inductive TypeName where
  | null | boolean | integer | number | string | array | object
deriving DecidableEq, Repr

namespace TypeName

/-- The written name. -/
def name : TypeName → String
  | .null => "null"
  | .boolean => "boolean"
  | .integer => "integer"
  | .number => "number"
  | .string => "string"
  | .array => "array"
  | .object => "object"

/-- The kind with a written name. -/
def ofName? (s : String) : Option TypeName :=
  [null, boolean, integer, number, string, array, object].find? (·.name == s)

/-- Whether a value is of the kind. Truth values are no numbers, and a binary number without
fractional part is an integer. -/
def holds : TypeName → Value → Bool
  | .null, .null => true
  | .boolean, .bool _ => true
  | .integer, v => (v.number?.map Number.isInteger).getD false
  | .number, v => v.number?.isSome
  | .string, .text _ => true
  | .array, .list _ => true
  | .object, .record _ => true
  | _, _ => false

end TypeName

/-- One demand on a value; a demand about a kind of value is met by values of other kinds. -/
inductive ShapeRule where
  | type (names : List TypeName)
  | oneOf (values : List Value)
  | required (names : List String)
  | properties (entries : List (String × List ShapeRule))
  | closed (known : List String)
  | matching (p : Pattern)
  | minLength (n : Nat)
  | minimum (n : Number)
  | items (shape : List ShapeRule)

/-- The demands on a value, in the order in which they are checked. -/
abbrev Shape := List ShapeRule

namespace Shape

/-- A step into a value. -/
inductive Step where
  | name (s : String)
  | index (i : Nat)
deriving DecidableEq, Repr

namespace Step

/-- Indices are ordered by size, names by their characters, and indices come first. -/
def compare : Step → Step → Ordering
  | .name a, .name b => Ord.compare a b
  | .index i, .index j => Ord.compare i j
  | .index _, .name _ => .lt
  | .name _, .index _ => .gt

/-- The text of a step. -/
def text : Step → String
  | .name s => s
  | .index i => toString i

end Step

/-- A demand that a value does not meet. -/
structure Violation where
  path : List Step
  message : String
  /-- Whether the value is of the kind that the shape with the demand asks for. -/
  ofKind : Bool
  /-- Whether what the message shows of the value has a text. -/
  legible : Bool

/-- The order of paths of one length, from the outermost step on. -/
def comparePaths : List Step → List Step → Ordering
  | [], [] => .eq
  | [], _ :: _ => .lt
  | _ :: _, [] => .gt
  | a :: as, b :: bs => (a.compare b).then (comparePaths as bs)

/-- Whether `b` is reported rather than `a`, which was found first: a violation nearer to the root,
then one with the greater path, then one at a value that is not of the kind asked for. -/
def Violation.yieldsTo (a b : Violation) : Bool :=
  if a.path.length != b.path.length then b.path.length < a.path.length
  else match comparePaths a.path b.path with
    | .lt => true
    | .gt => false
    | .eq => a.ofKind && !b.ofKind

/-- A violation seen from one step further out. -/
def Violation.within (s : Step) (v : Violation) : Violation := { v with path := s :: v.path }

/-- Whether the shape asks for a kind and the value is of it. -/
def kindHolds (shape : Shape) (v : Value) : Bool :=
  shape.any fun
    | .type names => names.any (·.holds v)
    | _ => false

/-- Whether a listed value is the given one; truth values equal truth values only. -/
def listed (v w : Value) : Bool :=
  match v, w with
  | .bool a, .bool b => a == b
  | .bool _, _ => false
  | _, .bool _ => false
  | v, w => v.same w

/-- The quoted form of a value in a message. -/
def shown (v : Value) : String := v.quoted .loose

/-- The keys of a record that a closed shape does not know. -/
def unknownKeys (known : List String) (es : Entries) : List Atom :=
  es.map (·.1) |>.filter fun k => !known.any fun s => k.same (.text s)

/-- The message about the entries of a record that a closed shape does not know. -/
def unknownEntries (known : List String) (es : Entries) : Option String :=
  let sorted := (unknownKeys known es).mergeSort fun a b => decide (a.display ≤ b.display)
  match sorted with
  | [] => none
  | [k] => some ("Additional properties are not allowed (" ++ k.quoted ++ " was unexpected)")
  | ks => some ("Additional properties are not allowed (" ++ commaList (ks.map Atom.quoted) ++
      " were unexpected)")

mutual

/-- The violations of one demand; `ofKind` tells whether the value is of the kind asked for. -/
def ruleViolations (ofKind : Bool) (v : Value) : ShapeRule → List Violation
  | .type names =>
    if names.any (·.holds v) then []
    else [⟨[], shown v ++ " is not of type " ++
      commaList (names.map fun n => Text.quoted n.name), ofKind, v.hasText⟩]
  | .oneOf values =>
    if values.any (listed v) then []
    else [⟨[], shown v ++ " is not one of " ++ shown (.list values), ofKind, v.hasText⟩]
  | .required names =>
    match v with
    | .record es => (names.filter fun n => !Entries.has es n).map fun n =>
        ⟨[], Text.quoted n ++ " is a required property", ofKind, true⟩
    | _ => []
  | .properties entries =>
    match v with
    | .record es => propertyViolations es entries
    | _ => []
  | .closed known =>
    match v with
    | .record es => (unknownEntries known es).toList.map fun m =>
        ⟨[], m, ofKind, (unknownKeys known es).all Atom.hasText⟩
    | _ => []
  | .matching p =>
    match v with
    | .text s =>
      if p.occursIn s then []
      else [⟨[], shown v ++ " does not match " ++ Text.quoted p.source, ofKind, true⟩]
    | _ => []
  | .minLength n =>
    match v with
    | .text s =>
      if n ≤ s.length then []
      else [⟨[], shown v ++ (if n = 1 then " should be non-empty" else " is too short"), ofKind,
        true⟩]
    | _ => []
  | .minimum n =>
    match v.number? with
    | some x =>
      if x.lt n then
        [⟨[], shown v ++ " is less than the minimum of " ++ shown (.ofNumber n), ofKind,
          v.hasText⟩]
      else []
    | none => []
  | .items shape =>
    match v with
    | .list vs => vs.zipIdx.flatMap fun (w, i) =>
        (shapeViolations (kindHolds shape w) w shape).map (·.within (.index i))
    | _ => []

/-- The violations of the demands of a shape. -/
def shapeViolations (ofKind : Bool) (v : Value) : List ShapeRule → List Violation
  | [] => []
  | r :: rs => ruleViolations ofKind v r ++ shapeViolations ofKind v rs

/-- The violations at the named entries that a record has. -/
def propertyViolations (es : Entries) : List (String × List ShapeRule) → List Violation
  | [] => []
  | (name, shape) :: more =>
    (match Entries.get? es name with
      | some v => (shapeViolations (kindHolds shape v) v shape).map (·.within (.name name))
      | none => []) ++ propertyViolations es more

end

/-- Every violation of the shape by the value. -/
def violations (shape : Shape) (v : Value) : List Violation :=
  shapeViolations (kindHolds shape v) v shape

/-- The violation that is reported: the first of those to which no other is preferred. -/
def violation? (shape : Shape) (v : Value) : Option Violation :=
  match violations shape v with
  | [] => none
  | first :: more => some (more.foldl (fun a b => if a.yieldsTo b then b else a) first)

/-- The violation that is reported, unless one of the messages, which are all written for it, would
show a value without a text. -/
def report (shape : Shape) (v : Value) : Except Fault (Option Violation) :=
  if (violations shape v).all (·.legible) then .ok (violation? shape v) else misuse .content

end Shape
end DocForms
