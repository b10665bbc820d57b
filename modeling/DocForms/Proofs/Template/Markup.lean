import DocForms.Proofs.Template.Filling

/-! Escaped values and the markup around them. The characters that open and close tags and attribute
values stand in a bound text just as they stand in its template, whatever the snapshots hold and
however the values are displayed. -/
namespace DocForms

namespace Text

/-- The characters that begin and end tags and attribute values. -/
def markup : List Char := ['<', '>', '"', '\'']

/-- Whether a character is one of them. -/
def isDelimiter (c : Char) : Bool := markup.contains c

/-- The delimiters of a text, in order. -/
def delimiters (s : String) : List Char := s.toList.filter isDelimiter

theorem isDelimiter_iff {c : Char} :
    isDelimiter c = true ↔ c = '<' ∨ c = '>' ∨ c = '"' ∨ c = '\'' := by
  rw [isDelimiter, List.contains_iff_mem, markup, List.mem_cons, List.mem_cons, List.mem_cons,
    List.mem_singleton]

theorem filter_escapeMarkupChar (c : Char) : (escapeMarkupChar c).filter isDelimiter = [] := by
  unfold escapeMarkupChar
  split
  case h_6 hlt hgt hquote hmark =>
    -- a character that is written as itself is none of the four
    rw [List.filter_eq_nil_iff]
    intro d hd hdelim
    obtain rfl := List.mem_singleton.mp hd
    rcases isDelimiter_iff.mp hdelim with h | h | h | h
    · exact hlt h
    · exact hgt h
    · exact hquote h
    · exact hmark h
  all_goals decide

theorem delimiters_escapeMarkup (s : String) : delimiters (escapeMarkup s) = [] := by
  rw [delimiters, escapeMarkup, String.toList_ofList, List.filter_flatMap]
  induction s.toList with
  | nil => rfl
  | cons c cs ih => rw [List.flatMap_cons, filter_escapeMarkupChar, ih, List.append_nil]

end Text

namespace Placeholder
variable {w : List Char} {p : Placeholder}

theorem filter_name {name : String} (h : NameShape name) :
    name.toList.filter Text.isDelimiter = [] := by
  rw [List.filter_eq_nil_iff]
  intro d hd hdelim
  apply not_mem_name h _ hd
  rcases Text.isDelimiter_iff.mp hdelim with rfl | rfl | rfl | rfl <;> decide

theorem filter_digits {cs : List Char} {digits : List Nat}
    (h : cs.map Text.digitValue? = digits.map some) : cs.filter Text.isDelimiter = [] := by
  rw [List.filter_eq_nil_iff]
  intro d hd hdelim
  apply not_mem_digits h _ hd
  rcases Text.isDelimiter_iff.mp hdelim with rfl | rfl | rfl | rfl <;> decide

/-- Tokens have no delimiters in them. -/
theorem Word.filter_isDelimiter (h : Word w p) : w.filter Text.isDelimiter = [] := by
  have hfield : fieldLead.filter Text.isDelimiter = [] := by decide
  have hclose : closing.filter Text.isDelimiter = [] := by decide
  cases h with
  | field h =>
    rw [List.filter_append, List.filter_append, hfield, filter_name h, hclose]
    rfl
  | member hg hn =>
    have hdot : Text.isDelimiter '.' = false := by decide
    rw [List.filter_append, List.filter_append, List.filter_cons_of_neg (by simp [hdot]),
      List.filter_append, hfield, filter_name hg, filter_name hn, hclose]
    rfl
  | signatures => decide
  | signature hne h =>
    have hlead : signatureLead.filter Text.isDelimiter = [] := by decide
    rw [List.filter_append, List.filter_append, hlead, filter_digits h, hclose]
    rfl

end Placeholder

namespace Piece
variable {cs : List Char} {ps : List Piece} {g : Piece → List Char}

/-- If characters stay and tokens give way to texts without delimiters, the delimiters stay. -/
theorem Parts.filter_flatten (h : Parts cs ps) (hchar : ∀ c, g (.char c) = [c])
    (htoken : ∀ p raw, .token p raw ∈ ps → (g (.token p raw)).filter Text.isDelimiter = []) :
    (ps.map g).flatten.filter Text.isDelimiter = cs.filter Text.isDelimiter := by
  induction h with
  | nil => rfl
  | @token w p rest ps hw hrest ih =>
    have hrec := ih fun p raw hmem => htoken p raw (List.mem_cons_of_mem _ hmem)
    rw [List.map_cons, List.flatten_cons, List.filter_append, List.filter_append, hrec,
      htoken p w (List.mem_cons_self ..), hw.filter_isDelimiter]
  | @char c cs ps hno hcs ih =>
    have hrec := ih fun p raw hmem => htoken p raw (List.mem_cons_of_mem _ hmem)
    rw [List.map_cons, List.flatten_cons, hchar, List.filter_append, hrec, ← List.filter_append]
    rfl

end Piece

namespace Template
open Text
variable {rs rs' : Renderers} {s s' : Snapshot} {form form' : Option Form} {template c c' : String}

/-- A token shows nothing that could end a tag or an attribute value. -/
theorem delimiters_shown {t : Token} {u : String} (ht : t ∈ Token.all template)
    (h : t.Shows rs s form true u) : delimiters u = [] := by
  cases h with
  | signature hp =>
    obtain ⟨-, hw, hraw⟩ := Token.mem_all.mp ht
    rw [delimiters, hraw]
    exact hw.filter_isDelimiter
  | value hp hv hu =>
    obtain ⟨text, -, htext⟩ := bind_eq_ok.mp hu
    obtain rfl := pure_eq_ok.mp htext
    exact delimiters_escapeMarkup text

theorem delimiters_bind (h : bind rs template s form true = .ok c) :
    delimiters c = delimiters template := by
  obtain ⟨hall, hc⟩ := bind_eq_ok_parts.mp h
  rw [delimiters, hc]
  apply (Piece.parts_split template).filter_flatten
  · intro d
    rfl
  · intro p raw hmem
    obtain ⟨t, ht, rfl, rfl⟩ := token_mem_iff.mp hmem
    obtain ⟨u, -, hu, hrep⟩ := exists_shown hall ht
    rw [hrep]
    exact delimiters_shown ht hu

/-- Two bound texts of one template have its delimiters in its order, so no stored value, label or
rendering adds, removes or moves any. Not even the renderers and the form need be the same. -/
theorem bind_keeps_markup (h : bind rs template s form true = .ok c)
    (h' : bind rs' template s' form' true = .ok c') :
    delimiters c = delimiters c' ∧ delimiters c = delimiters template := by
  have hc := delimiters_bind h
  have hc' := delimiters_bind h'
  exact ⟨hc.trans hc'.symm, hc⟩

/-- A heading with the name of a client, once as an attribute. -/
def headingTemplate : String :=
  "<h1 title='\x7b\x7bdocument.values.client\x7d\x7d'>\x7b\x7bdocument.values.client\x7d\x7d</h1>"

/-- A form that asks for a client. -/
def clientForm : Form where
  type := ⟨"t", "Letter", "LETTER", .null, .null, .active⟩
  fields := [{ id := "f", typeId := "t", name := "client", label := "Client", kind := .text }]

/-- Renderers that print texts in bold. -/
def boldRenderers : Renderers :=
  Renderers.standard.register .text fun v _ => do return "<b>" ++ (← Rendering.shown v) ++ "</b>"

/-- A letter to a client. -/
def letter (client : String) : Snapshot where
  simple := .named [("client", .text client)]
  groups := .named []

theorem bind_keeps_markup_letter :
    bind .standard headingTemplate (letter "'><script>") (some clientForm) true =
      .ok "<h1 title='&#x27;&gt;&lt;script&gt;'>&#x27;&gt;&lt;script&gt;</h1>" ∧
    bind boldRenderers headingTemplate (letter "A") (some clientForm) true =
      .ok "<h1 title='&lt;b&gt;A&lt;/b&gt;'>&lt;b&gt;A&lt;/b&gt;</h1>" ∧
    delimiters "<h1 title='&#x27;&gt;&lt;script&gt;'>&#x27;&gt;&lt;script&gt;</h1>" =
      delimiters "<h1 title='&lt;b&gt;A&lt;/b&gt;'>&lt;b&gt;A&lt;/b&gt;</h1>" ∧
    delimiters "<h1 title='&#x27;&gt;&lt;script&gt;'>&#x27;&gt;&lt;script&gt;</h1>" =
      delimiters headingTemplate := by
  have h : bind .standard headingTemplate (letter "'><script>") (some clientForm) true =
      .ok "<h1 title='&#x27;&gt;&lt;script&gt;'>&#x27;&gt;&lt;script&gt;</h1>" := by
    decide +kernel
  have h' : bind boldRenderers headingTemplate (letter "A") (some clientForm) true =
      .ok "<h1 title='&lt;b&gt;A&lt;/b&gt;'>&lt;b&gt;A&lt;/b&gt;</h1>" := by
    decide +kernel
  exact ⟨h, h', bind_keeps_markup h h'⟩

end Template
end DocForms
