import DocForms.Value.Basic

/-! When two values are the same: numbers by value, moments by instant, lists item by item, and
records entry by entry whatever their order. -/
namespace DocForms.Value

mutual

/-- Whether two values are the same. -/
def same : Value → Value → Bool
  | .atom a, .atom b => a.same b
  | .link l, .link k => l == k
  | .list as, .list bs => sameItems as bs
  | .record es, .record fs => es.length == fs.length && sameEntries es fs
  | _, _ => false

/-- Whether two lists hold the same values in the same order. -/
def sameItems : List Value → List Value → Bool
  | [], [] => true
  | a :: as, b :: bs => same a b && sameItems as bs
  | _, _ => false

/-- Whether every entry has one with the same key and value on the other side. -/
def sameEntries : List (Atom × Value) → List (Atom × Value) → Bool
  | [], _ => true
  | (k, v) :: es, fs =>
    (match Entries.lookup? k fs with
      | some w => same v w
      | none => false) && sameEntries es fs

end

end DocForms.Value
