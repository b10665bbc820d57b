import DocForms.Proofs.Template.Grammar
import DocForms.Template.Binding

/-! Where tokens stand in a template. The scanner reports every word of the token language that
stands anywhere in a text, in order and without overlaps, and nothing else. -/
namespace DocForms
open Placeholder

namespace Piece
variable {cs w a b : List Char} {ps : List Piece} {p : Placeholder} {k : Nat} {t : Token}

/-- How a text falls apart: a word at its head is a token, and where no word stands there is a
single character. -/
inductive Parts : List Char → List Piece → Prop where
  | nil : Parts [] []
  | token {w p rest ps} (hw : Word w p) (hrest : Parts rest ps) :
    Parts (w ++ rest) (.token p w :: ps)
  | char {c cs ps} (hno : ∀ w p rest, Word w p → c :: cs ≠ w ++ rest) (hcs : Parts cs ps) :
    Parts (c :: cs) (.char c :: ps)

theorem splitFrom_eq_drop (n : Nat) (cs : List Char) : splitFrom n cs = splitFrom 0 (cs.drop n) := by
  induction cs generalizing n with
  | nil => rw [List.drop_nil, splitFrom, splitFrom]
  | cons c cs ih =>
    cases n with
    | zero => rfl
    | succ n => rw [splitFrom, ih, List.drop_succ_cons]

theorem parts_splitFrom (cs : List Char) : Parts cs (splitFrom 0 cs) := by
  induction hn : cs.length using Nat.strongRecOn generalizing cs with
  | ind n ih =>
    cases cs with
    | nil => exact .nil
    | cons c cs =>
      rw [splitFrom]
      cases hread : read? (c :: cs) with
      | none =>
        refine .char ?_ (ih cs.length (by simp [← hn]) cs rfl)
        intro w p rest hw heq
        rw [heq, read?_append hw] at hread
        cases hread
      | some found =>
        obtain ⟨p, rest⟩ := found
        obtain ⟨w, hw, heq⟩ := read?_eq_some.mp hread
        have hlen : (c :: cs).length - rest.length = w.length := by
          rw [heq, List.length_append, Nat.add_sub_cancel]
        have hpos : 0 < w.length := List.length_pos_iff.mpr hw.ne_nil
        have hdrop : cs.drop (w.length - 1) = rest := by
          rw [← List.drop_succ_cons (a := c), Nat.sub_add_cancel hpos, heq, List.drop_left]
        have hlt : rest.length < n := by
          rw [← hn, heq, List.length_append]
          omega
        simp only [hlen]
        rw [splitFrom_eq_drop, hdrop, heq, List.take_left]
        exact .token hw (ih rest.length hlt rest rfl)

theorem parts_split (s : String) : Parts s.toList (split s) := parts_splitFrom _

/-- Nothing of a text is lost. -/
theorem Parts.flatten_chars (h : Parts cs ps) : (ps.map chars).flatten = cs := by
  induction h with
  | nil => rfl
  | token _ _ ih => rw [List.map_cons, List.flatten_cons, ih, chars]
  | char _ _ ih =>
    rw [List.map_cons, List.flatten_cons, ih]
    rfl

end Piece

namespace Token
variable {cs w a b : List Char} {ps : List Piece} {p : Placeholder} {k : Nat} {t : Token}

/-- A word of the language in a text whose first character has the position `k`. -/
def Stands (k : Nat) (cs : List Char) (t : Token) : Prop :=
  ∃ a w b, cs = a ++ (w ++ b) ∧ Word w t.placeholder ∧
    t = ⟨String.ofList w, k + a.length, k + a.length + w.length, t.placeholder⟩

theorem stands_nil : ¬ t.Stands k [] := by
  rintro ⟨a, w, b, heq, hw, -⟩
  have hnil := List.append_eq_nil_iff.mp (List.append_eq_nil_iff.mp heq.symm).2
  exact hw.ne_nil hnil.1

theorem stands_word {rest : List Char} (hw : Word w p) : t.Stands k (w ++ rest) ↔
    t = ⟨String.ofList w, k, k + w.length, p⟩ ∨ t.Stands (k + w.length) rest := by
  constructor
  · rintro ⟨a, w', b, heq, hw', ht⟩
    by_cases ha : a = []
    · subst ha
      obtain ⟨rfl, hp, -⟩ := hw.unique hw' heq
      rw [hp]
      exact .inl ht
    · obtain ⟨more, rfl⟩ := hw.apart hw' heq ha
      rw [List.append_assoc] at heq
      refine .inr ⟨more, w', b, List.append_cancel_left heq, hw', ?_⟩
      rwa [List.length_append, ← Nat.add_assoc] at ht
  · rintro (rfl | ⟨a, w', b, rfl, hw', ht⟩)
    · exact ⟨[], w, rest, rfl, hw, rfl⟩
    · refine ⟨w ++ a, w', b, by simp, hw', ?_⟩
      rwa [List.length_append, ← Nat.add_assoc]

theorem stands_char {c : Char} (hno : ∀ w p rest, Word w p → c :: cs ≠ w ++ rest) :
    t.Stands k (c :: cs) ↔ t.Stands (k + 1) cs := by
  constructor
  · rintro ⟨a, w, b, heq, hw, ht⟩
    cases a with
    | nil => exact absurd heq (hno w _ b hw)
    | cons d a =>
      obtain ⟨rfl, rfl⟩ := List.cons.inj heq
      refine ⟨a, w, b, rfl, hw, ?_⟩
      rwa [List.length_cons, Nat.add_comm a.length, ← Nat.add_assoc] at ht
  · rintro ⟨a, w, b, rfl, hw, ht⟩
    refine ⟨c :: a, w, b, rfl, hw, ?_⟩
    rwa [List.length_cons, Nat.add_comm a.length, ← Nat.add_assoc]

/-- The tokens among the parts of a text are the words that stand in it. -/
theorem mem_ofPieces (h : Piece.Parts cs ps) : t ∈ ofPieces k ps ↔ t.Stands k cs := by
  induction h generalizing k with
  | nil => exact iff_of_false List.not_mem_nil stands_nil
  | token hw _ ih => rw [ofPieces, List.mem_cons, ih, stands_word hw]
  | char hno _ ih => rw [ofPieces, ih, stands_char hno]

theorem Stands.le_start (h : t.Stands k cs) : k ≤ t.start := by
  obtain ⟨a, w, b, -, -, ht⟩ := h
  rw [ht]
  exact Nat.le_add_right ..

theorem Stands.start_lt_finish (h : t.Stands k cs) : t.start < t.finish := by
  obtain ⟨a, w, b, -, hw, ht⟩ := h
  rw [ht]
  exact Nat.lt_add_of_pos_right (List.length_pos_iff.mpr hw.ne_nil)

theorem pairwise_ofPieces (h : Piece.Parts cs ps) :
    (ofPieces k ps).Pairwise fun t u => t.finish ≤ u.start := by
  induction h generalizing k with
  | nil => exact .nil
  | token hw hrest ih =>
    refine .cons ?_ ih
    intro u hu
    exact ((mem_ofPieces hrest).mp hu).le_start
  | char _ _ ih => exact ih

/-- The characters of a text from position `i` up to position `j`. -/
def slice (s : String) (i j : Nat) : List Char := (s.toList.take j).drop i

theorem stands_iff {s : String} : t.Stands 0 s.toList ↔ t.finish ≤ s.length ∧
    Word (slice s t.start t.finish) t.placeholder ∧ t.raw.toList = slice s t.start t.finish := by
  constructor
  · rintro ⟨a, w, b, heq, hw, ht⟩
    have hslice : slice s t.start t.finish = w := by
      rw [slice, heq, ht, Nat.zero_add, ← List.append_assoc, ← List.length_append, List.take_left,
        List.drop_left]
    have hlen := congrArg List.length heq
    rw [String.length_toList, List.length_append, List.length_append] at hlen
    rw [hslice]
    refine ⟨?_, hw, ?_⟩
    · rw [ht]
      dsimp only
      omega
    · rw [ht, String.toList_ofList]
  · rintro ⟨hle, hw, hraw⟩
    have hlen : (slice s t.start t.finish).length = t.finish - t.start := by
      rw [slice, List.length_drop, List.length_take, String.length_toList, Nat.min_eq_left hle]
    have hpos := List.length_pos_iff.mpr hw.ne_nil
    rw [hlen] at hpos
    refine ⟨s.toList.take t.start, slice s t.start t.finish, s.toList.drop t.finish, ?_, hw, ?_⟩
    · have htake : s.toList.take t.start = (s.toList.take t.finish).take t.start := by
        rw [List.take_take, Nat.min_eq_left (by omega)]
      rw [← List.append_assoc, htake, slice, List.take_append_drop, List.take_append_drop]
    · have hstart : (s.toList.take t.start).length = t.start := by
        rw [List.length_take, String.length_toList]
        omega
      have hfinish : t.start + (t.finish - t.start) = t.finish := by omega
      rw [hlen, hstart, Nat.zero_add, hfinish, ← hraw, String.ofList_toList]

theorem mem_all {s : String} : t ∈ all s ↔ t.finish ≤ s.length ∧
    Word (slice s t.start t.finish) t.placeholder ∧ t.raw.toList = slice s t.start t.finish := by
  rw [all, mem_ofPieces (Piece.parts_split s), stands_iff]

theorem mem_all_append {w : String} (hw : Word w.toList p) (s u : String) :
    (⟨w, s.length, s.length + w.length, p⟩ : Token) ∈ all (s ++ w ++ u) := by
  rw [all, mem_ofPieces (Piece.parts_split _)]
  refine ⟨s.toList, w.toList, u.toList, by simp, hw, ?_⟩
  rw [Nat.zero_add, String.length_toList, String.length_toList, String.ofList_toList]

end Token

namespace Template

theorem scan_eq_ok {s : String} {ts : List Token} :
    scan s = .ok ts ↔ (∀ t ∈ Token.all s, t.isTooLong = false) ∧ ts = Token.all s := by
  unfold scan
  by_cases h : (Token.all s).any Token.isTooLong = true
  · rw [if_pos h]
    refine iff_of_false (by simp [misuse]) ?_
    rintro ⟨hno, -⟩
    obtain ⟨t, ht, hlong⟩ := List.any_eq_true.mp h
    rw [hno t ht] at hlong
    cases hlong
  · have hno : ∀ t ∈ Token.all s, t.isTooLong = false := by simpa using h
    rw [if_neg h, Except.ok.injEq, eq_comm]
    exact ⟨fun hts => ⟨hno, hts⟩, And.right⟩

/-- The spans of the tokens that a scan reports are those of the words of the token language, each
with the parse of its word. They are in order and do not overlap, and the token of a field is found
wherever it is inserted. Positions of signatures are to be short enough to be read. -/
theorem scan_exact {s : String}
    (hlimit : ∀ i j digits, Word (Token.slice s i j) (.signature digits) →
      digits.length ≤ Decimal.maxIntegerDigits) :
    ∃ ts, scan s = .ok ts ∧
      (∀ i j, (∃ t ∈ ts, t.start = i ∧ t.finish = j) ↔
        j ≤ s.length ∧ ∃ p, Word (Token.slice s i j) p) ∧
      (∀ t ∈ ts, t.raw.toList = Token.slice s t.start t.finish ∧
        ∀ p, Word (Token.slice s t.start t.finish) p ↔ p = t.placeholder) ∧
      (∀ t ∈ ts, t.start < t.finish) ∧ (ts.Pairwise fun t u => t.finish ≤ u.start) ∧
      ∀ a b group name, isName name = true → (∀ g ∈ group, isName g = true) →
        s = a ++ fieldToken group name ++ b →
        ⟨fieldToken group name, a.length, a.length + (fieldToken group name).length,
          ofNames group name⟩ ∈ ts := by
  have hshort : ∀ t ∈ Token.all s, t.isTooLong = false := by
    intro t ht
    obtain ⟨-, hw, -⟩ := Token.mem_all.mp ht
    unfold Token.isTooLong
    split
    · rename_i digits hp
      rw [hp] at hw
      simpa using hlimit _ _ _ hw
    · rfl
  refine ⟨Token.all s, scan_eq_ok.mpr ⟨hshort, rfl⟩, ?_, ?_, ?_, ?_, ?_⟩
  · intro i j
    constructor
    · rintro ⟨t, ht, rfl, rfl⟩
      obtain ⟨hle, hw, -⟩ := Token.mem_all.mp ht
      exact ⟨hle, _, hw⟩
    · rintro ⟨hle, p, hw⟩
      refine ⟨⟨String.ofList (Token.slice s i j), i, j, p⟩, ?_, rfl, rfl⟩
      exact Token.mem_all.mpr ⟨hle, hw, String.toList_ofList⟩
  · intro t ht
    obtain ⟨-, hw, hraw⟩ := Token.mem_all.mp ht
    refine ⟨hraw, ?_⟩
    intro p
    constructor
    · intro hp
      exact hp.functional hw
    · rintro rfl
      exact hw
  · intro t ht
    exact ((Token.mem_ofPieces (Piece.parts_split s)).mp ht).start_lt_finish
  · exact Token.pairwise_ofPieces (Piece.parts_split s)
  · rintro a b group name hn hg rfl
    exact Token.mem_all_append (word_fieldToken hn hg) a b

theorem digits_le_of_length {s : String} (h : s.length ≤ Decimal.maxIntegerDigits) (i j : Nat)
    (digits : List Nat) (hw : Word (Token.slice s i j) (.signature digits)) :
    digits.length ≤ Decimal.maxIntegerDigits := by
  have hslice : (Token.slice s i j).length ≤ s.length := by
    rw [Token.slice, List.length_drop, List.length_take, String.length_toList]
    omega
  exact hw.digits_le.trans (hslice.trans h)

/-- Tokens after a brace and after the beginning of a token. -/
def crowded : String :=
  "\x7b\x7b\x7bdocument.values.lines.amount\x7d\x7d\x7b\x7bdocument.values.a\x7b\x7bsignature_07\x7d\x7d"

theorem scan_exact_crowded : ∃ ts, scan crowded = .ok ts ∧
    ts.map (fun t => (t.start, t.finish, t.placeholder)) =
      [(1, 33, .member "lines" "amount"), (52, 68, .signature [0, 7])] ∧
    ∀ i j, (∃ t ∈ ts, t.start = i ∧ t.finish = j) ↔
      j ≤ crowded.length ∧ ∃ p, Word (Token.slice crowded i j) p := by
  have hlength : crowded.length ≤ Decimal.maxIntegerDigits := by decide +kernel
  obtain ⟨ts, hts, hspans, -⟩ := scan_exact (digits_le_of_length hlength)
  refine ⟨ts, hts, ?_, hspans⟩
  obtain ⟨-, rfl⟩ := scan_eq_ok.mp hts
  decide +kernel

end Template
end DocForms
