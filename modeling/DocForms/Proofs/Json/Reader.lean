import DocForms.Json.Reader
import DocForms.Proofs.Value.Sendable
import Mathlib.Data.List.TakeDrop
import Mathlib.Data.List.TakeWhile

/-! What the reader of JSON texts gives: values that JSON can write, keyed by texts and with numbers
that have texts. A text that is read is shorter than its source, since its quotation marks are left
out. -/
namespace DocForms

/-- A scalar that JSON can write. -/
def Atom.isJson : Atom → Bool
  | .date _ | .moment _ => false
  | _ => true

/-- The values that JSON can write: no days, moments and references, and records keyed by texts. -/
inductive Value.IsJson : Value → Prop
  | atom {a : Atom} : a.isJson = true → IsJson (.atom a)
  | list {vs : List Value} : (∀ v ∈ vs, v.IsJson) → IsJson (.list vs)
  | record {es : Entries} : (∀ e ∈ es, ∃ s, e.1 = .text s) → (∀ e ∈ es, e.2.IsJson) →
      IsJson (.record es)

namespace Value

-- the induction is on the value together with its items and entries

mutual

/-- What a JSON text can hold can be written as JSON. -/
theorem isJson_of_sendable : (v : Value) → v.Sendable → v.IsJson
  | .atom a, h => by
    refine .atom ?_
    cases a with
    | date | moment => cases h
    | null | bool | int | float | text => rfl
  | .link _, h => by cases h
  | .list vs, h => .list (isJson_of_itemsSendable vs h)
  | .record es, h => by
    obtain ⟨hkeys, hvalues⟩ := isJson_of_entriesSendable es h
    exact .record hkeys hvalues

theorem isJson_of_itemsSendable : (vs : List Value) → itemsSendable vs = true →
    ∀ v ∈ vs, v.IsJson
  | [], _ => nofun
  | v :: vs, h => by
    obtain ⟨hv, hvs⟩ := Bool.and_eq_true_iff.mp h
    exact List.forall_mem_cons.mpr ⟨isJson_of_sendable v hv, isJson_of_itemsSendable vs hvs⟩

theorem isJson_of_entriesSendable : (es : Entries) → entriesSendable es = true →
    (∀ e ∈ es, ∃ s, e.1 = .text s) ∧ ∀ e ∈ es, e.2.IsJson
  | [], _ => ⟨nofun, nofun⟩
  | (k, v) :: es, h => by
    obtain ⟨hkv, hes⟩ := Bool.and_eq_true_iff.mp h
    obtain ⟨hk, hv⟩ := Bool.and_eq_true_iff.mp hkv
    obtain ⟨hkeys, hvalues⟩ := isJson_of_entriesSendable es hes
    refine ⟨List.forall_mem_cons.mpr ⟨?_, hkeys⟩,
      List.forall_mem_cons.mpr ⟨isJson_of_sendable v hv, hvalues⟩⟩
    cases k with
    | text s => exact ⟨s, rfl⟩
    | _ => cases hk

end

end Value

namespace Json
open Value
variable {cs rest : List Char} {v : Value}

theorem length_skip (cs : List Char) : (skip cs).length ≤ cs.length :=
  (List.dropWhile_sublist isSpace).length_le

/-! ### Texts -/

theorem hexFour?_length {n : Nat} (h : hexFour? cs = some (n, rest)) : rest.length < cs.length := by
  unfold hexFour? at h
  split at h
  · simp only [bind, Option.bind_eq_some_iff, Option.some.injEq, Prod.mk.injEq] at h
    obtain ⟨-, -, -, -, -, -, -, -, -, rfl⟩ := h
    simp only [List.length_cons]
    omega
  · cases h

theorem readUnicode_length {c : Char} (h : readUnicode cs = .ok (c, rest)) :
    rest.length < cs.length := by
  unfold readUnicode at h
  split at h
  · cases h
  · rename_i hafter
    have hlength : (cs.drop 4).length < cs.length := by
      have hpos := List.length_pos_iff.mpr hafter
      rw [List.length_drop] at hpos ⊢
      omega
    split at h
    · cases h
    · split at h
      · rename_i more hmore
        split at h
        · split at h
          · cases h
          · rename_i low rest' hlow
            split at h
            · obtain ⟨-, rfl⟩ := Prod.mk.inj (Except.ok.inj h)
              have := hexFour?_length hlow
              rw [hmore, List.length_cons, List.length_cons] at hlength
              omega
            · obtain ⟨-, rfl⟩ := Prod.mk.inj (Except.ok.inj h)
              exact hlength
        · obtain ⟨-, rfl⟩ := Prod.mk.inj (Except.ok.inj h)
          exact hlength
      · obtain ⟨-, rfl⟩ := Prod.mk.inj (Except.ok.inj h)
        exact hlength

/-- Each character of a text comes from at least one of the source, and the mark that closes it
comes on top. -/
theorem readChars_length {start done ds : List Char} {fuel : Nat}
    (h : readChars start fuel done cs = .ok (ds, rest)) :
    ds.length + rest.length < done.length + cs.length := by
  fun_induction readChars start fuel done cs with
  | case1 | case2 | case4 | case5 | case7 | case9 => cases h
  | case3 fuel done c cs hclose =>
    obtain ⟨rfl, rfl⟩ := Prod.mk.inj (Except.ok.inj h)
    simp
  | case6 fuel done c hopen hescape digits d rest' hunicode ih =>
    have hdigits := readUnicode_length hunicode
    have hmore := ih h
    simp only [List.length_cons] at hmore ⊢
    omega
  | case8 fuel done c hopen hescape e rest' hletter d hd ih =>
    have hmore := ih h
    simp only [List.length_cons] at hmore ⊢
    omega
  | case10 fuel done c cs hopen hplain hprintable ih =>
    have hmore := ih h
    simp only [List.length_cons] at hmore ⊢
    omega

theorem readText_length {start : List Char} {fuel : Nat} {s : String}
    (h : readText fuel start cs = .ok (s, rest)) : s.length < cs.length := by
  obtain ⟨⟨ds, rest'⟩, hchars, h⟩ := bind_eq_ok.mp h
  obtain ⟨rfl, rfl⟩ := Prod.mk.inj (Except.ok.inj h)
  have := readChars_length hchars
  simp only [List.length_nil, String.length_ofList] at this ⊢
  omega

/-! ### Values -/

theorem readWord?_atom (h : readWord? cs = some (v, rest)) :
    ∃ a, v = .atom a ∧ a.isSendable = true ∧ ∀ s, a ≠ .text s := by
  obtain ⟨w, hw, h⟩ := List.exists_of_findSome?_eq_some h
  split at h
  · obtain ⟨rfl, -⟩ := Prod.mk.inj (Option.some.inj h)
    simp only [words, List.mem_cons, List.not_mem_nil, or_false] at hw
    rcases hw with rfl | rfl | rfl | rfl | rfl | rfl <;> exact ⟨_, rfl, rfl, nofun⟩
  · cases h

theorem digitsValue_lt {ds : List Char} (h : ∀ c ∈ ds, c.isDigit = true) :
    digitsValue ds < 10 ^ ds.length := by
  have hdigit : ∀ c ∈ ds, c.toNat - 48 < 10 := by
    intro c hc
    have hrange := (Char.isDigit_iff_toNat.mp (h c hc)).2
    exact Nat.lt_succ_of_le (Nat.sub_le_sub_right hrange 48)
  have hlt := Decimal.foldl_digits_lt hdigit 0
  rwa [Nat.zero_add, Nat.one_mul] at hlt

/-- Integers are read up to the length that can be written, and binary numbers are rounded. -/
theorem readNumber_atom {start : List Char} {neg : Bool}
    (h : readNumber start neg cs = .ok (v, rest)) :
    ∃ a, v = .atom a ∧ a.isSendable = true ∧ ∀ s, a ≠ .text s := by
  unfold readNumber at h
  split at h
  rename_i whole _ hwhole
  have hdigits : ∀ c ∈ whole, c.isDigit = true := by
    split at hwhole
    · obtain ⟨rfl, -⟩ := Prod.mk.inj hwhole
      exact List.forall_mem_singleton.mpr rfl
    · intro c hc
      rw [digits, List.span_eq_takeWhile_dropWhile] at hwhole
      obtain ⟨rfl, -⟩ := Prod.mk.inj hwhole
      exact List.mem_takeWhile_imp hc
  split at h
  · cases h
  · split at h
    split at h
    split at h
    · obtain ⟨rfl, -⟩ := Prod.mk.inj (Except.ok.inj h)
      refine ⟨_, rfl, ?_, nofun⟩
      exact (Option.all_eq_true _ _).mpr fun n hn =>
        Atom.hasText_int.mpr (Binary64.short_ofDecimal _ _ _ n hn)
    · split at h
      · cases h
      · rename_i hlength
        obtain ⟨rfl, -⟩ := Prod.mk.inj (Except.ok.inj h)
        have hshort : Decimal.Short (digitsValue whole) :=
          Decimal.short_of_le (digitsValue_lt hdigits) (Nat.not_lt.mp hlength)
        exact ⟨_, rfl, Atom.isSendable_int.mpr (Decimal.short_signed hshort), nofun⟩

-- Values, items and entries are read with the same fuel, so the induction on it is for all three.
mutual

/-- What is read is a value that a JSON text can hold. -/
theorem readValue_sendable (fuel : Nat) {cs rest : List Char} {v : Value}
    (h : readValue fuel cs = .ok (v, rest)) : v.Sendable := by
  cases fuel with
  | zero => cases h
  | succ fuel =>
    unfold readValue at h
    split at h
    · obtain ⟨⟨s, rest'⟩, -, h⟩ := bind_eq_ok.mp h
      obtain ⟨rfl, -⟩ := Prod.mk.inj (Except.ok.inj h)
      rfl
    · dsimp only at h
      split at h
      · obtain ⟨rfl, -⟩ := Prod.mk.inj (Except.ok.inj h)
        rfl
      · obtain ⟨⟨es, rest'⟩, hes, h⟩ := bind_eq_ok.mp h
        obtain ⟨rfl, -⟩ := Prod.mk.inj (Except.ok.inj h)
        exact readEntries_sendable fuel hes rfl
    · dsimp only at h
      split at h
      · obtain ⟨rfl, -⟩ := Prod.mk.inj (Except.ok.inj h)
        rfl
      · obtain ⟨⟨vs, rest'⟩, hvs, h⟩ := bind_eq_ok.mp h
        obtain ⟨rfl, -⟩ := Prod.mk.inj (Except.ok.inj h)
        exact sendable_list.mpr (readItems_sendable fuel hvs)
    · split at h
      · rename_i hword
        obtain ⟨rfl, -⟩ := Prod.mk.inj (Except.ok.inj h)
        obtain ⟨a, rfl, ha, -⟩ := readWord?_atom hword
        exact ha
      · split at h
        · obtain ⟨a, rfl, ha, -⟩ := readNumber_atom h
          exact ha
        · obtain ⟨a, rfl, ha, -⟩ := readNumber_atom h
          exact ha

theorem readItems_sendable (fuel : Nat) {cs rest : List Char} {vs : List Value}
    (h : readItems fuel cs = .ok (vs, rest)) : ∀ v ∈ vs, v.Sendable := by
  cases fuel with
  | zero => cases h
  | succ fuel =>
    unfold readItems at h
    obtain ⟨⟨v, rest'⟩, hv, h⟩ := bind_eq_ok.mp h
    have hfirst := readValue_sendable fuel hv
    dsimp only at h
    split at h
    · obtain ⟨rfl, -⟩ := Prod.mk.inj (Except.ok.inj h)
      exact List.forall_mem_singleton.mpr hfirst
    · obtain ⟨⟨more, rest''⟩, hmore, h⟩ := bind_eq_ok.mp h
      obtain ⟨rfl, -⟩ := Prod.mk.inj (Except.ok.inj h)
      exact List.forall_mem_cons.mpr ⟨hfirst, readItems_sendable fuel hmore⟩
    · cases h

theorem readEntries_sendable (fuel : Nat) {es es' : Entries} {cs rest : List Char}
    (h : readEntries fuel es cs = .ok (es', rest)) (hes : (Value.record es).Sendable) :
    (Value.record es').Sendable := by
  cases fuel with
  | zero => cases h
  | succ fuel =>
    unfold readEntries at h
    split at h
    · obtain ⟨⟨name, rest'⟩, -, h⟩ := bind_eq_ok.mp h
      dsimp only at h
      split at h
      · obtain ⟨⟨v, rest''⟩, hv, h⟩ := bind_eq_ok.mp h
        have hset := sendable_set hes name (readValue_sendable fuel hv)
        dsimp only at h
        split at h
        · obtain ⟨rfl, -⟩ := Prod.mk.inj (Except.ok.inj h)
          exact hset
        · exact readEntries_sendable fuel h hset
        · cases h
      · cases h
    · cases h

end

/-- A text is read between quotation marks, so it is shorter than what it was read from. -/
theorem readValue_text {fuel : Nat} {s : String} (h : readValue fuel cs = .ok (.text s, rest)) :
    s.length < cs.length := by
  cases fuel with
  | zero => cases h
  | succ fuel =>
    unfold readValue at h
    split at h
    · obtain ⟨⟨t, rest'⟩, htext, h⟩ := bind_eq_ok.mp h
      obtain ⟨ht, -⟩ := Prod.mk.inj (Except.ok.inj h)
      cases ht
      exact Nat.lt_succ_of_lt (readText_length htext)
    · dsimp only at h
      split at h
      · cases h
      · obtain ⟨⟨es, rest'⟩, -, h⟩ := bind_eq_ok.mp h
        cases h
    · dsimp only at h
      split at h
      · cases h
      · obtain ⟨⟨vs, rest'⟩, -, h⟩ := bind_eq_ok.mp h
        cases h
    · split at h
      · rename_i hword
        obtain ⟨a, ha, -, htext⟩ := readWord?_atom hword
        cases h
        cases ha
        exact absurd rfl (htext s)
      · split at h
        · obtain ⟨a, ha, -, htext⟩ := readNumber_atom h
          cases ha
          exact absurd rfl (htext s)
        · obtain ⟨a, ha, -, htext⟩ := readNumber_atom h
          cases ha
          exact absurd rfl (htext s)

/-! ### Whole texts -/

/-- A whole text is read as its first value. -/
theorem readChars?_eq_ok {cs : List Char} (h : readChars? cs = .ok v) :
    ∃ fuel rest, readValue fuel (skip cs) = .ok (v, rest) := by
  unfold readChars? at h
  split at h
  · cases h
  · obtain ⟨⟨w, rest⟩, hw, h⟩ := bind_eq_ok.mp h
    dsimp only at h
    split at h
    · obtain rfl := Except.ok.inj h
      exact ⟨_, rest, hw⟩
    · cases h

theorem readChars?_sendable {cs : List Char} (h : readChars? cs = .ok v) : v.Sendable := by
  obtain ⟨fuel, rest, hv⟩ := readChars?_eq_ok h
  exact readValue_sendable fuel hv

theorem read_sendable {s : String} (h : read s = .ok v) : v.Sendable := readChars?_sendable h

theorem read_isJson {s : String} (h : read s = .ok v) : v.IsJson :=
  isJson_of_sendable v (read_sendable h)

/-- No text is the JSON of itself. -/
theorem read_ne_self (s : String) : read s ≠ .ok (.text s) := by
  intro h
  obtain ⟨fuel, rest, hv⟩ := readChars?_eq_ok h
  have hshorter := readValue_text hv
  have hskip := length_skip s.toList
  rw [String.length_toList] at hskip
  omega

end Json
end DocForms
