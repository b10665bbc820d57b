import DocForms.Calendar.Moment
import DocForms.Decimal.Binary64
import DocForms.Value.Link

/-! The values that forms, payloads and definition files hold: scalars, references to documents,
lists, and records whose entries keep the order in which they were written. -/
namespace DocForms

/-- A scalar. Scalars are also the keys of records: forms use texts only, while a definition file
may write any scalar as a key. -/
inductive Atom where
  | null
  | bool (b : Bool)
  | int (n : Int)
  | float (x : Binary64)
  | text (s : String)
  | date (d : Date)
  | moment (m : Moment)
deriving DecidableEq

/-- A value of a document. -/
inductive Value where
  | atom (a : Atom)
  | link (l : LinkValue)
  | list (items : List Value)
  | record (entries : List (Atom × Value))

/-- The entries of a record, in their order. -/
abbrev Entries := List (Atom × Value)

namespace Atom

instance : Inhabited Atom := ⟨.null⟩

/-- The number that a scalar is, where the truth values are one and zero. -/
def number? : Atom → Option Number
  | .bool b => some (.int (if b then 1 else 0))
  | .int n => some (.int n)
  | .float x => some (.float x)
  | _ => none

/-- Whether two scalars are the same key: numbers are compared by value, moments by instant. -/
def same : Atom → Atom → Bool
  | .null, .null => true
  | .text s, .text t => s == t
  | .date d, .date e => d == e
  | .moment m, .moment n => m.same n
  | .float .nan, .float .nan => true
  | a, b => match a.number?, b.number? with
    | some x, some y => x.eq y
    | _, _ => false

end Atom

namespace Value

/-- The missing value. -/
@[match_pattern] abbrev null : Value := .atom .null
/-- A truth value. -/
@[match_pattern] abbrev bool (b : Bool) : Value := .atom (.bool b)
/-- An integer of any size. -/
@[match_pattern] abbrev int (n : Int) : Value := .atom (.int n)
/-- A binary number. -/
@[match_pattern] abbrev float (x : Binary64) : Value := .atom (.float x)
/-- A text. -/
@[match_pattern] abbrev text (s : String) : Value := .atom (.text s)
/-- A day. -/
@[match_pattern] abbrev date (d : Date) : Value := .atom (.date d)
/-- A moment. -/
@[match_pattern] abbrev moment (m : Moment) : Value := .atom (.moment m)

instance : Inhabited Value := ⟨.null⟩

/-- The value of a number. -/
def ofNumber : Number → Value
  | .int n => .int n
  | .float x => .float x

/-- A natural number as a value. -/
def nat (n : Nat) : Value := .int n

/-- A text that may be missing. -/
def text? : Option String → Value
  | some s => .text s
  | none => .null

/-- The number that a value is; truth values are no numbers. -/
def number? : Value → Option Number
  | .int n => some (.int n)
  | .float x => some (.float x)
  | _ => none

/-- Whether the value is the missing one. -/
def isNull : Value → Bool
  | .null => true
  | _ => false

/-- Whether the value says something: it is not missing, false, zero or empty. -/
def isTruthy : Value → Bool
  | .null => false
  | .bool b => b
  | .int n => n != 0
  | .float x => !x.isZero
  | .text s => s != ""
  | .date _ => true
  | .moment _ => true
  | .link _ => true
  | .list items => !items.isEmpty
  | .record entries => !entries.isEmpty

/-- The value itself if it says something, else the missing value. -/
def orNull (v : Value) : Value := if v.isTruthy then v else .null

/-- The value itself if it says something, else a replacement. -/
def orElse (v replacement : Value) : Value := if v.isTruthy then v else replacement

end Value

namespace Entries

/-- The value under a key. -/
def lookup? (key : Atom) (es : Entries) : Option Value :=
  (List.find? (fun e => key.same e.1) es).map (·.2)

/-- The value under a named key. -/
def get? (es : Entries) (name : String) : Option Value := lookup? (.text name) es

/-- The value under a named key, the missing value if there is none. -/
def get (es : Entries) (name : String) : Value := (get? es name).getD .null

/-- Whether there is an entry under the key. -/
def hasKey (key : Atom) (es : Entries) : Bool := List.any es (key.same ·.1)

/-- Whether there is an entry under the named key. -/
def has (es : Entries) (name : String) : Bool := hasKey (.text name) es

/-- Puts a value under a key: in the place of the entry that has the key, else at the end. -/
def put (key : Atom) (v : Value) : Entries → Entries
  | [] => [(key, v)]
  | (k, w) :: es => if key.same k then (k, v) :: es else (k, w) :: put key v es

/-- Puts a value under a named key. -/
def set (es : Entries) (name : String) (v : Value) : Entries := put (.text name) v es

/-- Puts all entries of `more` in turn. -/
def merge (es more : Entries) : Entries := more.foldl (fun es e => put e.1 e.2 es) es

/-- The entries of a record written with named keys. -/
def ofNames (es : List (String × Value)) : Entries := es.map fun e => (.text e.1, e.2)

end Entries

/-- A record with named keys. -/
def Value.named (es : List (String × Value)) : Value := .record (Entries.ofNames es)

end DocForms
