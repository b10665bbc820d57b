import DocForms.Value.Basic

/-! Values have decidable equality. Unlike `Value.same` it tells `1` from `1.0` and an entry from
the same entry at another place. -/
namespace DocForms.Value

mutual

/-- Decides whether two values are equal. -/
def decEq : (a b : Value) → Decidable (a = b)
  | .atom a, .atom b =>
    if h : a = b then .isTrue (h ▸ rfl) else .isFalse fun e => h (Value.atom.inj e)
  | .link l, .link k =>
    if h : l = k then .isTrue (h ▸ rfl) else .isFalse fun e => h (Value.link.inj e)
  | .list as, .list bs =>
    match decEqItems as bs with
    | .isTrue h => .isTrue (h ▸ rfl)
    | .isFalse h => .isFalse fun e => h (Value.list.inj e)
  | .record es, .record fs =>
    match decEqEntries es fs with
    | .isTrue h => .isTrue (h ▸ rfl)
    | .isFalse h => .isFalse fun e => h (Value.record.inj e)
  | .atom _, .link _ => .isFalse nofun
  | .atom _, .list _ => .isFalse nofun
  | .atom _, .record _ => .isFalse nofun
  | .link _, .atom _ => .isFalse nofun
  | .link _, .list _ => .isFalse nofun
  | .link _, .record _ => .isFalse nofun
  | .list _, .atom _ => .isFalse nofun
  | .list _, .link _ => .isFalse nofun
  | .list _, .record _ => .isFalse nofun
  | .record _, .atom _ => .isFalse nofun
  | .record _, .link _ => .isFalse nofun
  | .record _, .list _ => .isFalse nofun

/-- Decides whether two lists of values are equal. -/
def decEqItems : (as bs : List Value) → Decidable (as = bs)
  | [], [] => .isTrue rfl
  | [], _ :: _ => .isFalse nofun
  | _ :: _, [] => .isFalse nofun
  | a :: as, b :: bs =>
    match decEq a b, decEqItems as bs with
    | .isTrue h, .isTrue k => .isTrue (h ▸ k ▸ rfl)
    | .isFalse h, _ => .isFalse fun e => h (List.cons.inj e).1
    | _, .isFalse k => .isFalse fun e => k (List.cons.inj e).2

/-- Decides whether two lists of entries are equal. -/
def decEqEntries : (es fs : List (Atom × Value)) → Decidable (es = fs)
  | [], [] => .isTrue rfl
  | [], _ :: _ => .isFalse nofun
  | _ :: _, [] => .isFalse nofun
  | (k, v) :: es, (l, w) :: fs =>
    if h : k = l then
      match decEq v w, decEqEntries es fs with
      | .isTrue i, .isTrue j => .isTrue (h ▸ i ▸ j ▸ rfl)
      | .isFalse i, _ => .isFalse fun e => i (Prod.mk.inj (List.cons.inj e).1).2
      | _, .isFalse j => .isFalse fun e => j (List.cons.inj e).2
    else .isFalse fun e => h (Prod.mk.inj (List.cons.inj e).1).1

end

instance : DecidableEq Value := decEq

end DocForms.Value
