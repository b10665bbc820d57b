import DocForms.Proofs.Template.Rebinding
import DocForms.Text.Markup

/-! Texts side by side. No token reaches across a character that stands in no word of the token
language, and none comes or goes when a text is escaped. -/
namespace DocForms

namespace Piece
open Placeholder
variable {cs a b w : List Char} {ps qs : List Piece} {p : Placeholder} {d : Char}

/-- What a part stands for, if it is a token. -/
def placeholder? : Piece → Option Placeholder
  | .char _ => none
  | .token p _ => some p

/-- A text falls apart in one way. -/
theorem Parts.unique (h : Parts cs ps) (h' : Parts cs qs) : ps = qs := by
  induction h generalizing qs with
  | nil =>
    generalize hcs : ([] : List Char) = cs at h'
    cases h' with
    | nil => rfl
    | token hw _ => exact absurd (List.append_eq_nil_iff.mp hcs.symm).1 hw.ne_nil
    | char => cases hcs
  | @token w p rest ps hw hrest ih =>
    generalize hcs : w ++ rest = cs at h'
    cases h' with
    | nil => exact absurd (List.append_eq_nil_iff.mp hcs).1 hw.ne_nil
    | token hw' hrest' =>
      obtain ⟨rfl, rfl, rfl⟩ := hw.unique hw' hcs
      rw [ih hrest']
    | char hno => exact absurd hcs.symm (hno w p rest hw)
  | @char c cs ps hno hcs ih =>
    generalize hc : c :: cs = cs' at h'
    cases h' with
    | nil => cases hc
    | token hw => exact absurd hc (hno _ _ _ hw)
    | char _ hcs' =>
      obtain ⟨rfl, rfl⟩ := List.cons.inj hc
      rw [ih hcs']

/-- A character that stands in no word. -/
def Loose (d : Char) : Prop := ∀ w p, Word w p → d ∉ w

theorem loose_of (hlead : d ∉ fieldLead ++ signatureLead ++ signaturesToken)
    (hname : ¬ ('a' ≤ d ∧ d ≤ 'z' ∨ '0' ≤ d ∧ d ≤ '9' ∨ d = '_'))
    (hdigit : Text.digitValue? d = none) : Loose d := by
  have hdot : d ≠ '.' := by
    rintro rfl
    exact hlead (by decide)
  have hbrace : d ≠ '\x7d' := by
    rintro rfl
    exact hlead (by decide)
  have hend {lead inner : List Char} (hlead : d ∉ lead) (hinner : d ∉ inner) :
      d ∉ lead ++ inner ++ closing := by
    simp [closing, hlead, hinner, hbrace]
  rw [List.mem_append, List.mem_append, not_or, not_or] at hlead
  obtain ⟨⟨hfield, hsignature⟩, hsignatures⟩ := hlead
  intro w p hw
  cases hw with
  | field h => exact hend hfield (not_mem_name h hname)
  | member hg hn =>
    have hg := not_mem_name hg hname
    have hn := not_mem_name hn hname
    simp [closing, hfield, hg, hn, hdot, hbrace]
  | signatures => exact hsignatures
  | signature _ h => exact hend hsignature (not_mem_digits h hdigit)

/-- Around a character that stands in no word, a text falls apart as the texts beside it do. -/
theorem Parts.append_loose (h : Parts a ps) (hd : Loose d) (h' : Parts (d :: b) qs) :
    Parts (a ++ d :: b) (ps ++ qs) := by
  induction h with
  | nil => exact h'
  | token hw _ ih =>
    rw [List.append_assoc]
    exact .token hw ih
  | @char c cs ps hno _ ih =>
    refine .char ?_ ih
    intro w p rest hw heq
    have heq : (c :: cs) ++ d :: b = w ++ rest := heq
    -- a word that began here would end before the character, or have it inside
    rcases List.append_eq_append_iff.mp heq with ⟨more, hmore, htail⟩ | ⟨more, hmore, -⟩
    · cases more with
      | nil => exact hno w p [] hw (by simp [hmore])
      | cons e more =>
        obtain ⟨rfl, -⟩ := List.cons.inj htail
        exact hd w p hw (by simp [hmore])
    · exact hno w p more hw hmore

end Piece

namespace Template
open Piece Placeholder
variable {cs a b w : List Char} {ps : List Piece} {p : Placeholder} {d : Char}

/-- What the tokens of a text stand for, in order. -/
def found (cs : List Char) : List Placeholder := (splitFrom 0 cs).filterMap placeholder?

theorem found_of_parts (h : Parts cs ps) : found cs = ps.filterMap placeholder? := by
  rw [found, (parts_splitFrom cs).unique h]

theorem found_word (h : Word w p) (b : List Char) : found (w ++ b) = p :: found b :=
  found_of_parts (.token h (parts_splitFrom b))

/-- A text without opening braces has no tokens, and it belongs to none. -/
theorem found_clear (h : '\x7b' ∉ a) (b : List Char) : found (a ++ b) = found b := by
  have hparts := found_of_parts (parts_chars (parts_splitFrom b) h)
  rw [hparts, List.filterMap_append, List.filterMap_eq_nil_iff.mpr, found, List.nil_append]
  intro piece hpiece
  obtain ⟨c, -, rfl⟩ := List.mem_map.mp hpiece
  rfl

theorem found_loose (hd : Loose d) (a b : List Char) :
    found (a ++ d :: b) = found a ++ found (d :: b) := by
  have hparts := (parts_splitFrom a).append_loose hd (parts_splitFrom (d :: b))
  rw [found_of_parts hparts, List.filterMap_append]
  rfl

theorem found_char {c : Char} (hno : ∀ w p rest, Word w p → c :: b ≠ w ++ rest) :
    found (c :: b) = found b :=
  (found_of_parts (.char hno (parts_splitFrom b))).trans rfl

theorem map_placeholder_ofPieces (k : Nat) (ps : List Piece) :
    (Token.ofPieces k ps).map (·.placeholder) = ps.filterMap placeholder? := by
  induction ps generalizing k with
  | nil => rfl
  | cons piece ps ih =>
    cases piece with
    | char c => exact ih (k + 1)
    | token p raw => exact congrArg (p :: ·) (ih (k + raw.length))

theorem map_placeholder_all (s : String) :
    (Token.all s).map (·.placeholder) = found s.toList :=
  map_placeholder_ofPieces 0 (Piece.split s)

/-! ### Escaping -/

theorem escapeMarkupChar_cases (c : Char) : Text.escapeMarkupChar c = [c] ∨
    Loose c ∧ ∃ more, Text.escapeMarkupChar c = '&' :: more ∧ '\x7b' ∉ more := by
  unfold Text.escapeMarkupChar
  split
  case h_6 => exact .inl rfl
  all_goals
    refine .inr ⟨loose_of ?_ ?_ ?_, _, rfl, ?_⟩ <;> decide +kernel

theorem loose_ampersand : Loose '&' := by
  apply loose_of <;> decide +kernel

theorem escaped_word (h : Word w p) : w.flatMap Text.escapeMarkupChar = w := by
  have hplain : ∀ c ∈ w, Text.escapeMarkupChar c = [c] := by
    intro c hc
    rcases escapeMarkupChar_cases c with hc' | ⟨hloose, -⟩
    · exact hc'
    · exact absurd hc (hloose w p h)
  calc w.flatMap Text.escapeMarkupChar = w.flatMap fun c => [c] := List.flatMap_congr hplain
    _ = w := List.flatMap_singleton' w

/-- What a text begins with when it is escaped, it begins with before, unless an entity is in it. -/
theorem exists_append_of_escaped {v rest : List Char} (hv : '&' ∉ v)
    (h : cs.flatMap Text.escapeMarkupChar = v ++ rest) : ∃ rest', cs = v ++ rest' := by
  induction v generalizing cs with
  | nil => exact ⟨cs, rfl⟩
  | cons d v ih =>
    rw [List.mem_cons, not_or] at hv
    cases cs with
    | nil => cases h
    | cons c cs =>
      rw [List.flatMap_cons] at h
      rcases escapeMarkupChar_cases c with hc | ⟨-, more, hc, -⟩
      · rw [hc] at h
        obtain ⟨rfl, hmore⟩ := List.cons.inj h
        obtain ⟨rest', rfl⟩ := ih hv.2 hmore
        exact ⟨rest', rfl⟩
      · rw [hc] at h
        exact absurd (List.cons.inj h).1 hv.1

/-- Escaping leaves the tokens of a text as they are. -/
theorem found_escaped (cs : List Char) : found (cs.flatMap Text.escapeMarkupChar) = found cs := by
  have hparts := parts_splitFrom cs
  rw [found_of_parts hparts]
  generalize splitFrom 0 cs = ps at hparts
  induction hparts with
  | nil => rfl
  | @token w p rest ps hw _ ih =>
    rw [List.flatMap_append, escaped_word hw, found_word hw, ih]
    rfl
  | @char c cs ps hno _ ih =>
    rw [List.flatMap_cons]
    rcases escapeMarkupChar_cases c with hc | ⟨-, more, hc, hmore⟩
    · rw [hc]
      refine (found_char ?_).trans ih
      intro w p rest hw heq
      cases w with
      | nil => exact hw.ne_nil rfl
      | cons d v =>
        obtain ⟨rfl, hmore⟩ := List.cons.inj heq
        have hv : '&' ∉ v := fun hmem => loose_ampersand _ p hw (List.mem_cons_of_mem _ hmem)
        obtain ⟨rest', rfl⟩ := exists_append_of_escaped hv hmore
        exact hno _ p rest' hw rfl
    · rw [hc, found_clear (by simpa using hmore)]
      exact ih

end Template
end DocForms
