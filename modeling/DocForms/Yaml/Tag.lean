import DocForms.Pattern.Basic

/-! The tags of nodes: what kind of value a node stands for. A plain scalar without a tag gets the
first one whose notation it has. -/
namespace DocForms.Yaml

/-- The kinds of values that nodes stand for. -/
inductive Tag where
  | null | bool | int | float | timestamp | text
  | sequence | mapping
  /-- A key whose value is merged into the mapping. -/
  | merge
  /-- The default value of a mapping. -/
  | default
  /-- A kind that has no values here. -/
  | unknown
deriving DecidableEq, Repr

namespace Tag

/-- What the full names of the standard tags begin with. -/
def standardLead : String := "tag:yaml.org,2002:"

/-- The tag with a full name. -/
def ofName (name : String) : Tag :=
  let named : List (String × Tag) :=
    [("null", null), ("bool", bool), ("int", int), ("float", float), ("timestamp", timestamp),
      ("str", text), ("seq", sequence), ("map", mapping), ("merge", merge), ("value", default)]
  ((named.find? fun t => standardLead ++ t.1 == name).map (·.2)).getD unknown

/-! ### Plain scalars -/

/-- The notation of truth values. -/
def boolNotation : String :=
  "^(?:yes|Yes|YES|no|No|NO|true|True|TRUE|false|False|FALSE|on|On|ON|off|Off|OFF)$"

/-- The notation of integers: binary, octal, decimal, hexadecimal, and in base 60. -/
def intNotation : String :=
  "^(?:[-+]?0b[0-1_]+|[-+]?0[0-7_]+|[-+]?(?:0|[1-9][0-9_]*)|[-+]?0x[0-9a-fA-F_]+" ++
    "|[-+]?[1-9][0-9_]*(?::[0-5]?[0-9])+)$"

/-- The notation of numbers with a point, also in base 60, and of those that are not finite. -/
def floatNotation : String :=
  "^(?:[-+]?(?:[0-9][0-9_]*)\\.[0-9_]*(?:[eE][-+][0-9]+)?|\\.[0-9][0-9_]*(?:[eE][-+][0-9]+)?" ++
    "|[-+]?[0-9][0-9_]*(?::[0-5]?[0-9])+\\.[0-9_]*|[-+]?\\.(?:inf|Inf|INF)" ++
    "|\\.(?:nan|NaN|NAN))$"

/-- The notation of days and moments. -/
def timestampNotation : String :=
  "^(?:[0-9][0-9][0-9][0-9]-[0-9][0-9]-[0-9][0-9]" ++
    "|[0-9][0-9][0-9][0-9]-[0-9][0-9]?-[0-9][0-9]?(?:[Tt]|[ \\t]+)[0-9][0-9]?" ++
    ":[0-9][0-9]:[0-9][0-9](?:\\.[0-9]*)?" ++
    "(?:[ \\t]*(?:Z|[-+][0-9][0-9]?(?::[0-9][0-9])?))?)$"

/-- The notation of the missing value. -/
def nullNotation : String := "^(?:~|null|Null|NULL|)$"

/-- The notations by tag, in the order in which they are tried. -/
def notations : List (Tag × String) :=
  [(bool, boolNotation), (float, floatNotation), (int, intNotation), (merge, "^(?:<<)$"),
    (null, nullNotation), (timestamp, timestampNotation), (default, "^(?:=)$")]

/-- The notations as patterns. -/
def patterns : List (Tag × Pattern) :=
  notations.filterMap fun n => (Pattern.ofSource n.2).toOption.map (n.1, ·)

/-- The tag of a plain scalar. -/
def ofPlain (s : String) : Tag :=
  ((patterns.find? fun p => p.2.occursIn s).map (·.1)).getD text

end Tag
end DocForms.Yaml
