/-! The targets of requests: the path, cut at its slashes, and the arguments after the question
mark, both with percent escapes resolved. -/
namespace DocForms.Service

/-- The value of a hexadecimal digit. -/
private def hexDigit? (c : Char) : Option Nat :=
  if '0' ≤ c ∧ c ≤ '9' then some (c.toNat - 48)
  else if 'a' ≤ c ∧ c ≤ 'f' then some (c.toNat - 87)
  else if 'A' ≤ c ∧ c ≤ 'F' then some (c.toNat - 55)
  else none

/-- The bytes of a text with percent escapes; other percent signs stand for themselves. -/
def escapedBytes : List Char → List UInt8
  | [] => []
  | '%' :: a :: b :: cs =>
    match hexDigit? a, hexDigit? b with
    | some m, some n => UInt8.ofNat (m * 16 + n) :: escapedBytes cs
    | _, _ => '%'.toUInt8 :: escapedBytes (a :: b :: cs)
  | c :: cs => (String.singleton c).toUTF8.toList ++ escapedBytes cs

/-- The text that bytes encode; bytes that encode none are replaced one by one. -/
def textOfBytes (bs : List UInt8) : String :=
  match String.fromUTF8? ⟨bs.toArray⟩ with
  | some s => s
  | none => String.ofList (bs.map fun b => if b < 128 then Char.ofNat b.toNat else '\ufffd')

/-- A text with its percent escapes resolved. -/
def unescape (s : String) : String := textOfBytes (escapedBytes s.toList)

/-- A target: the segments of its path and its arguments. -/
structure Target where
  segments : List String
  arguments : List (String × String) := []
deriving DecidableEq, Repr

namespace Target

/-- The segments of a path. Slashes at its start count for nothing. -/
def segmentsOf (path : String) : List String :=
  (String.ofList (path.toList.dropWhile (· == '/'))).splitOn "/"

/-- One argument, of which a plus sign is a space. -/
def argument (s : String) : String × String :=
  let spaced := unescape ∘ fun s : String => s.map fun c => if c == '+' then ' ' else c
  match s.splitOn "=" with
  | name :: rest => (spaced name, spaced ("=".intercalate rest))
  | [] => ("", "")

/-- The arguments of a query. -/
def argumentsOf (query : String) : List (String × String) :=
  ((query.splitOn "&").filter (· != "")).map argument

/-- A path without the host that stands between two slashes at its start and the next one. -/
def withoutHost (path : String) : String :=
  match path.toList with
  | '/' :: '/' :: cs => String.ofList (cs.dropWhile (· != '/'))
  | cs => String.ofList cs

/-- The target that a text names; what follows a number sign counts for nothing. -/
def ofText (text : String) : Target :=
  let text := (text.splitOn "#").headD ""
  match text.splitOn "?" with
  | path :: query =>
    ⟨segmentsOf (unescape (withoutHost path)), argumentsOf ("?".intercalate query)⟩
  | [] => ⟨[], []⟩

/-- The first argument with a name; an empty one counts as none. -/
def argument? (t : Target) (name : String) : Option String :=
  (t.arguments.lookup name).filter (· != "")

/-- Segments with every two slashes between them made one. -/
def merge : List String → List String
  | [] => []
  | [s] => [s]
  | s :: t :: [] => [s, t]
  | s :: t :: u :: more => if t = "" then s :: merge (u :: more) else s :: merge (t :: u :: more)

/-- The segments of the path with every two slashes made one. -/
def mergedSegments (t : Target) : List String := merge t.segments

end Target
end DocForms.Service
