import DocForms.Proofs.Rendering.Legible
import DocForms.Proofs.Template.Occurrences

/-! What binding makes of a template. The tokens that a scan of the template reports are replaced
where they stand, each by the text that the snapshot has for it, and all else stays in place. -/
namespace DocForms
open Placeholder

namespace Snapshot

/-- The value that a snapshot holds for the token of a field: that of an ungrouped field, of the row
of a group, or of the first of its rows. Where there is no such row it is the missing value. -/
inductive Holds (s : Snapshot) : Placeholder → Value → Prop where
  | field {es : Entries} {name : String} (hs : s.simple = .record es) :
    Holds s (.field name) (Entries.get es name)
  | row {es row : Entries} {group name : String} (hs : s.groups = .record es)
    (hg : Entries.get es group = .record row) :
    Holds s (.member group name) (Entries.get row name)
  | first {es row : Entries} {rows : List Value} {group name : String} (hs : s.groups = .record es)
    (hg : Entries.get es group = .list (.record row :: rows)) :
    Holds s (.member group name) (Entries.get row name)
  | absent {es : Entries} {group name : String} (hs : s.groups = .record es)
    (hrow : ∀ row, Entries.get es group ≠ .record row)
    (hfirst : ∀ row rows, Entries.get es group ≠ .list (.record row :: rows)) :
    Holds s (.member group name) .null

/-- Values of a group that differ in rows after the first, if at all. -/
inductive SameFirstRow : Value → Value → Prop where
  | refl (v : Value) : SameFirstRow v v
  | rows (row : Value) (rows rows' : List Value) :
    SameFirstRow (.list (row :: rows)) (.list (row :: rows'))

/-- Snapshots that differ in rows after the first row of a group, if at all. -/
structure SamePreview (s s' : Snapshot) : Prop where
  simple : s'.simple = s.simple
  groups : ∃ es es', s.groups = .record es ∧ s'.groups = .record es' ∧
    ∀ group, SameFirstRow (Entries.get es group) (Entries.get es' group)

end Snapshot

namespace Placeholder
variable {s s' : Snapshot} {p : Placeholder} {v : Value}

theorem field_record {w : Value} {name : String} :
    w.field name = .ok v ↔ ∃ es, w = .record es ∧ v = Entries.get es name := by
  cases w with
  | record es => simp [Value.field, Value.entries, bind, Except.bind, pure, Except.pure, eq_comm]
  | _ => simp [Value.field, Value.entries, bind, Except.bind, misuse]

theorem value_eq_ok (hp : p.isSignature = false) : p.value s = .ok v ↔ s.Holds p v := by
  cases p with
  | field name =>
    rw [value, field_record]
    constructor
    · rintro ⟨es, hs, rfl⟩
      exact .field hs
    · rintro ⟨hs⟩
      exact ⟨_, hs, rfl⟩
  | member group name =>
    rw [value, bind_eq_ok]
    constructor
    · rintro ⟨w, hw, hv⟩
      obtain ⟨es, hs, rfl⟩ := field_record.mp hw
      split at hv
      · rename_i row rows hg
        obtain rfl := pure_eq_ok.mp hv
        exact .first hs hg
      · rename_i row hg
        obtain rfl := pure_eq_ok.mp hv
        exact .row hs hg
      · rename_i hfirst hrow
        obtain rfl := pure_eq_ok.mp hv
        exact .absent hs hrow hfirst
    · intro h
      cases h with
      | row hs hg => exact ⟨_, field_record.mpr ⟨_, hs, rfl⟩, by rw [hg]; rfl⟩
      | first hs hg => exact ⟨_, field_record.mpr ⟨_, hs, rfl⟩, by rw [hg]; rfl⟩
      | absent hs hrow hfirst =>
        refine ⟨_, field_record.mpr ⟨_, hs, rfl⟩, ?_⟩
        split
        · rename_i hg
          exact absurd hg (hfirst _ _)
        · rename_i hg
          exact absurd hg (hrow _)
        · rfl
  | signatures => cases hp
  | signature => cases hp

/-- Tokens of signatures stand for no value. -/
theorem isSignature_of_holds (h : s.Holds p v) : p.isSignature = false := by
  cases h <;> rfl

theorem holds_unique {w : Value} (hp : p.isSignature = false) (hv : s.Holds p v) (hw : s.Holds p w) :
    v = w := by
  have heq := ((value_eq_ok hp).mpr hv).symm.trans ((value_eq_ok hp).mpr hw)
  exact Except.ok.inj heq

theorem value_congr (h : s.SamePreview s') : p.value s' = p.value s := by
  cases p with
  | field name => rw [value, value, h.simple]
  | member group name =>
    obtain ⟨es, es', hs, hs', hrows⟩ := h.groups
    have hfield (w : Value) (es : Entries) (hw : w = .record es) :
        w.field group = .ok (Entries.get es group) := field_record.mpr ⟨es, hw, rfl⟩
    rw [value, value, hfield _ es hs, hfield _ es' hs']
    have hrow := hrows group
    generalize Entries.get es group = u at hrow
    generalize Entries.get es' group = u' at hrow
    cases hrow with
    | refl => rfl
    | rows row rows rows' => cases row <;> rfl
  | signatures => rfl
  | signature => rfl

/-- The text of a value in place of a token. -/
def display (rs : Renderers) (form : Option Form) (escape : Bool) (p : Placeholder) (v : Value) :
    Except Fault String := do
  let text ← rs.render v (form.bind p.field?)
  return if escape then Text.escapeMarkup text else text

end Placeholder

/-- The text in place of a token: tokens of signatures stay, and others give way to their values. A
token whose value cannot be displayed shows nothing. -/
inductive Token.Shows (rs : Renderers) (s : Snapshot) (form : Option Form) (escape : Bool)
    (t : Token) : String → Prop where
  | signature (hp : t.placeholder.isSignature = true) : Shows rs s form escape t t.raw
  | value {v : Value} {u : String} (hp : t.placeholder.isSignature = false)
    (hv : s.Holds t.placeholder v) (hu : t.placeholder.display rs form escape v = .ok u) :
    Shows rs s form escape t u

namespace Token
variable {rs : Renderers} {s : Snapshot} {form : Option Form} {escape : Bool} {t : Token} {u : String}

theorem shows_signature (hp : t.placeholder.isSignature = true) :
    t.Shows rs s form escape u ↔ u = t.raw := by
  constructor
  · rintro (- | ⟨hfield, -, -⟩)
    · rfl
    · rw [hp] at hfield
      cases hfield
  · rintro rfl
    exact .signature hp

theorem shows_field (hp : t.placeholder.isSignature = false) : t.Shows rs s form escape u ↔
    ∃ v, s.Holds t.placeholder v ∧ t.placeholder.display rs form escape v = .ok u := by
  constructor
  · rintro (hsig | ⟨-, hv, hu⟩)
    · rw [hp] at hsig
      cases hsig
    · exact ⟨_, hv, hu⟩
  · rintro ⟨v, hv, hu⟩
    exact .value hp hv hu

end Token

namespace Template
variable {rs : Renderers} {s s' : Snapshot} {form : Option Form} {escape : Bool} {t : Token}
  {cs : List Char} {ps : List Piece}

/-- The text from a position on, with tokens replaced where they stand. -/
def fill (r : Token → String) (cs : List Char) : (start : Nat) → List Token → List Char
  | start, [] => cs.drop start
  | start, t :: ts =>
    (cs.take t.start).drop start ++ (r t).toList ++ fill r cs t.finish ts

theorem substitute_field {p : Placeholder} {raw : List Char} (hp : p.isSignature = false) :
    substitute rs s form escape (.token p raw) = .ok cs ↔
      ∃ v, s.Holds p v ∧ p.display rs form escape v = .ok (String.ofList cs) := by
  have hbind : substitute rs s form escape (.token p raw) =
      p.value s >>= fun v => rs.render v (form.bind p.field?) >>= fun text =>
        pure (if escape then Text.escapeMarkup text else text).toList := by
    cases p with
    | field => rfl
    | member => rfl
    | signatures => cases hp
    | signature => cases hp
  simp only [hbind, display, bind_eq_ok, value_eq_ok hp, pure_eq_ok, String.ext_iff,
    String.toList_ofList]

theorem substitute_signature {p : Placeholder} {raw : List Char} (hp : p.isSignature = true)
    {i j : Nat} : substitute rs s form escape (.token p raw) = .ok cs ↔
      Token.isTooLong ⟨String.ofList raw, i, j, p⟩ = false ∧ raw = cs := by
  cases p with
  | field => cases hp
  | member => cases hp
  | signatures =>
    rw [substitute, Except.ok.injEq]
    exact (and_iff_right rfl).symm
  | signature digits =>
    rw [substitute, Token.isTooLong, decide_eq_false_iff_not]
    split
    · rename_i hlong
      exact iff_of_false (by simp [misuse]) (fun h => h.1 hlong)
    · rename_i hshort
      rw [Except.ok.injEq, and_iff_right hshort]

theorem isTooLong_field (hp : t.placeholder.isSignature = false) : t.isTooLong = false := by
  obtain ⟨raw, start, finish, p⟩ := t
  cases p with
  | field => rfl
  | member => rfl
  | signatures => cases hp
  | signature => cases hp

/-- A token gives way to the text that it shows, unless it is a position that is too long. -/
theorem substitute_eq_ok {u : String} :
    substitute rs s form escape (.token t.placeholder t.raw.toList) = .ok u.toList ↔
      t.isTooLong = false ∧ t.Shows rs s form escape u := by
  cases hp : t.placeholder.isSignature with
  | false =>
    rw [substitute_field hp, and_iff_right (isTooLong_field hp), Token.shows_field hp,
      String.ofList_toList]
  | true =>
    rw [substitute_signature hp (i := t.start) (j := t.finish), String.ofList_toList,
      String.toList_inj, Token.shows_signature hp, eq_comm (a := u)]

theorem fill_succ {c : Char} {start : Nat} {ts : List Token} {r : Token → String}
    (hc : cs.drop start = c :: cs.drop (start + 1)) (hts : ∀ t ∈ ts, start < t.start) :
    fill r cs start ts = c :: fill r cs (start + 1) ts := by
  cases ts with
  | nil => exact hc
  | cons t ts =>
    have hlt := hts t (List.mem_cons_self ..)
    have htake : (cs.take t.start).drop start = c :: (cs.take t.start).drop (start + 1) := by
      rw [List.drop_take, List.drop_take, hc]
      obtain ⟨n, hn⟩ : ∃ n, t.start - start = n + 1 := ⟨t.start - start - 1, by omega⟩
      rw [hn, List.take_succ_cons, show t.start - (start + 1) = n by omega]
    rw [fill, fill, htake, List.cons_append, List.cons_append]

/-- Replacing the parts of a text one by one replaces the tokens in it where they stand. -/
theorem flatten_map_eq_fill (h : Piece.Parts cs ps) {g : Piece → List Char} {r : Token → String}
    (hchar : ∀ c, g (.char c) = [c]) (before : List Char)
    (htoken : ∀ t ∈ Token.ofPieces before.length ps,
      (r t).toList = g (.token t.placeholder t.raw.toList)) :
    (ps.map g).flatten = fill r (before ++ cs) before.length (Token.ofPieces before.length ps) := by
  induction h generalizing before with
  | nil =>
    rw [Token.ofPieces, fill, List.append_nil, List.drop_length]
    rfl
  | @token w p rest ps hw hrest ih =>
    have hhead := htoken _ (List.mem_cons_self ..)
    have hlen : (before ++ w).length = before.length + w.length := List.length_append
    have hrec := ih (before ++ w) fun t ht => htoken t (List.mem_cons_of_mem _ (hlen ▸ ht))
    rw [hlen, List.append_assoc] at hrec
    rw [List.map_cons, List.flatten_cons, hrec, Token.ofPieces, fill, List.take_left,
      List.drop_length, List.nil_append, hhead, String.toList_ofList]
  | @char c cs ps hno hcs ih =>
    have hlen : (before ++ [c]).length = before.length + 1 := List.length_append
    have hrec := ih (before ++ [c]) fun t ht => htoken t (by rwa [hlen] at ht)
    rw [hlen, List.append_assoc, List.singleton_append] at hrec
    have hdrop : (before ++ c :: cs).drop before.length =
        c :: (before ++ c :: cs).drop (before.length + 1) := by
      rw [List.drop_left, ← List.drop_drop, List.drop_left, List.drop_succ_cons, List.drop_zero]
    have hafter : ∀ t ∈ Token.ofPieces (before.length + 1) ps, before.length < t.start := by
      intro t ht
      exact ((Token.mem_ofPieces hcs).mp ht).le_start
    rw [List.map_cons, List.flatten_cons, hchar, hrec, Token.ofPieces, fill_succ hdrop hafter]
    rfl

theorem token_mem_iff {p : Placeholder} {raw : List Char} {k : Nat} : .token p raw ∈ ps ↔
    ∃ t ∈ Token.ofPieces k ps, t.placeholder = p ∧ t.raw.toList = raw := by
  induction ps generalizing k with
  | nil => simp [Token.ofPieces]
  | cons piece ps ih =>
    cases piece with
    | char c =>
      rw [List.mem_cons, or_iff_right (by simp), Token.ofPieces]
      exact ih
    | token p' raw' =>
      rw [List.mem_cons, ih (k := k + raw'.length), Token.ofPieces, List.exists_mem_cons_iff,
        String.toList_ofList, Piece.token.injEq, eq_comm (a := p), eq_comm (a := raw)]

/-- What a part of a template gives way to, nothing if that fails. -/
def replacement (rs : Renderers) (s : Snapshot) (form : Option Form) (escape : Bool)
    (piece : Piece) : List Char := (substitute rs s form escape piece).toOption.getD []

theorem replacement_of_ok {piece : Piece} (h : substitute rs s form escape piece = .ok cs) :
    replacement rs s form escape piece = cs := by
  rw [replacement, h]
  rfl

theorem bind_eq_ok_parts {template c : String} : bind rs template s form escape = .ok c ↔
    (∀ piece ∈ Piece.split template, ∃ cs, substitute rs s form escape piece = .ok cs) ∧
      c.toList = ((Piece.split template).map (replacement rs s form escape)).flatten := by
  rw [bind, bind_eq_ok]
  simp only [pure_eq_ok, mapM_eq_ok_iff []]
  constructor
  · rintro ⟨parts, ⟨hall, rfl⟩, rfl⟩
    exact ⟨hall, String.toList_ofList⟩
  · rintro ⟨hall, hc⟩
    refine ⟨_, ⟨hall, rfl⟩, ?_⟩
    rw [← String.toList_inj, String.toList_ofList, hc]
    rfl

/-- Where all parts give way to texts, a token does so to a text that it shows. -/
theorem exists_shown {template : String}
    (hall : ∀ piece ∈ Piece.split template, ∃ cs, substitute rs s form escape piece = .ok cs)
    (ht : t ∈ Token.all template) : ∃ u : String, t.isTooLong = false ∧
      t.Shows rs s form escape u ∧
      replacement rs s form escape (.token t.placeholder t.raw.toList) = u.toList := by
  obtain ⟨cs, hcs⟩ := hall _ (token_mem_iff.mpr ⟨t, ht, rfl, rfl⟩)
  rw [← String.toList_ofList (l := cs)] at hcs
  obtain ⟨hshort, hshow⟩ := substitute_eq_ok.mp hcs
  exact ⟨_, hshort, hshow, replacement_of_ok hcs⟩

/-- Binding succeeds when every token has a text to show, and gives the template with these texts
in place of the tokens. -/
theorem bind_eq_ok_iff {template c : String} : bind rs template s form escape = .ok c ↔
    ∃ ts r, scan template = .ok ts ∧ (∀ t ∈ ts, t.Shows rs s form escape (r t)) ∧
      c.toList = fill r template.toList 0 ts := by
  have hparts := Piece.parts_split template
  have hchar (c : Char) : replacement rs s form escape (.char c) = [c] := rfl
  rw [bind_eq_ok_parts]
  constructor
  · rintro ⟨hall, hc⟩
    choose! r hshort hshow hrep using fun t ht => exists_shown (t := t) hall ht
    refine ⟨Token.all template, r, scan_eq_ok.mpr ⟨hshort, rfl⟩, hshow, ?_⟩
    rw [hc]
    refine flatten_map_eq_fill hparts hchar [] ?_
    intro t ht
    exact (hrep t ht).symm
  · rintro ⟨ts, r, hscan, hr, hc⟩
    obtain ⟨hshort, rfl⟩ := scan_eq_ok.mp hscan
    have hshown : ∀ t ∈ Token.all template,
        substitute rs s form escape (.token t.placeholder t.raw.toList) = .ok (r t).toList := by
      intro t ht
      exact substitute_eq_ok.mpr ⟨hshort t ht, hr t ht⟩
    constructor
    · intro piece hpiece
      cases piece with
      | char c => exact ⟨[c], rfl⟩
      | token p raw =>
        obtain ⟨t, ht, rfl, rfl⟩ := token_mem_iff.mp hpiece
        exact ⟨_, hshown t ht⟩
    · rw [hc]
      refine (flatten_map_eq_fill hparts hchar [] ?_).symm
      intro t ht
      exact (replacement_of_ok (hshown t ht)).symm

theorem display_null {p : Placeholder} : p.display rs form escape .null = .ok "" := by
  cases escape <;> rfl

/-- A value is displayed in place of a token when its field displays it. -/
theorem display_returns (escape : Bool) {p : Placeholder} {v : Value} :
    (∃ u, p.display rs form escape v = .ok u) ↔ ∃ u, rs.render v (form.bind p.field?) = .ok u := by
  constructor
  · rintro ⟨u, hu⟩
    obtain ⟨text, htext, -⟩ := bind_eq_ok.mp hu
    exact ⟨text, htext⟩
  · rintro ⟨text, htext⟩
    exact ⟨_, bind_eq_ok.mpr ⟨text, htext, rfl⟩⟩

theorem shows_standard {v : Value} (hp : t.placeholder.isSignature = false)
    (hv : s.Holds t.placeholder v) : (∃ u, t.Shows .standard s form escape u) ↔
      Rendering.Displayable v (form.bind t.placeholder.field?) := by
  rw [← (Rendering.writes_render v _).returns_iff, ← display_returns escape]
  refine exists_congr fun u => ?_
  rw [Token.shows_field hp]
  constructor
  · rintro ⟨w, hw, hu⟩
    rwa [holds_unique hp hv hw]
  · exact fun hu => ⟨v, hv, hu⟩

/-- Binding succeeds just when the scan does and every token has a text to show. -/
theorem bind_returns_iff {template : String} : (∃ c, bind rs template s form escape = .ok c) ↔
    ∃ ts, scan template = .ok ts ∧ ∀ t ∈ ts, ∃ u, t.Shows rs s form escape u := by
  constructor
  · rintro ⟨c, hc⟩
    obtain ⟨ts, r, hscan, hr, -⟩ := bind_eq_ok_iff.mp hc
    exact ⟨ts, hscan, fun t ht => ⟨r t, hr t ht⟩⟩
  · rintro ⟨ts, hscan, hshow⟩
    choose! r hr using hshow
    exact ⟨_, bind_eq_ok_iff.mpr ⟨ts, r, hscan, hr, String.toList_ofList⟩⟩

theorem shows_null {u : String} (hp : t.placeholder.isSignature = false)
    (hv : s.Holds t.placeholder .null) : t.Shows rs s form escape u ↔ u = "" := by
  rw [Token.shows_field hp]
  constructor
  · rintro ⟨w, hw, hu⟩
    rw [holds_unique hp hw hv, display_null] at hu
    exact (Except.ok.inj hu).symm
  · rintro rfl
    exact ⟨_, hv, display_null⟩

theorem bind_eq_of_samePreview (h : s.SamePreview s') (template : String) :
    bind rs template s' form escape = bind rs template s form escape := by
  have hsub : substitute rs s' form escape = substitute rs s form escape := by
    funext piece
    cases piece with
    | char c => rfl
    | token p raw =>
      cases p with
      | field => simp only [substitute, value_congr h]
      | member => simp only [substitute, value_congr h]
      | signatures => rfl
      | signature => rfl
  rw [bind, bind, hsub]

/-- A template is bound by replacing the tokens that a scan of it reports, each where it stands:
those of signatures by themselves and those of fields by their displayed values, and by nothing
where a value is missing. It is bound just when the scan succeeds and every token has a text to show;
a field has one when its value is displayable. Of a list of rows only the first matters. -/
theorem bind_fills_spans (rs : Renderers) (template : String) (s : Snapshot) (form : Option Form)
    (escape : Bool) :
    (∀ c, bind rs template s form escape = .ok c ↔
      ∃ ts r, scan template = .ok ts ∧ (∀ t ∈ ts, t.Shows rs s form escape (r t)) ∧
        c.toList = fill r template.toList 0 ts) ∧
    ((∃ c, bind rs template s form escape = .ok c) ↔
      ∃ ts, scan template = .ok ts ∧ ∀ t ∈ ts, ∃ u, t.Shows rs s form escape u) ∧
    (∀ (t : Token) (v : Value), t.placeholder.isSignature = false → s.Holds t.placeholder v →
      ((∃ u, t.Shows .standard s form escape u) ↔
        Rendering.Displayable v (form.bind t.placeholder.field?))) ∧
    (∀ t : Token, t.placeholder.isSignature = false → s.Holds t.placeholder .null →
      ∀ u, t.Shows rs s form escape u ↔ u = "") ∧
    ∀ s', s.SamePreview s' → bind rs template s' form escape = bind rs template s form escape := by
  refine ⟨fun _ => bind_eq_ok_iff, bind_returns_iff, fun _ _ => shows_standard, ?_, ?_⟩
  · intro t hp hv u
    exact shows_null hp hv
  · intro s' h
    exact bind_eq_of_samePreview h template

/-- A table row, the name of a client and the signatures. -/
def offerTemplate : String :=
  "<td>\x7b\x7bdocument.values.lines.amount\x7d\x7d</td>\x7b\x7bdocument.values.client\x7d\x7d\x7b\x7bsignatures\x7d\x7d"

/-- An offer with a first line and further ones. -/
def offer (more : List Value) : Snapshot where
  simple := .named [("client", .text "A & B")]
  groups := .named [("lines", .list (.named [("amount", .int 10)] :: more))]

theorem bind_fills_spans_offer :
    bind .standard offerTemplate (offer []) none true =
      .ok "<td>10</td>A &amp; B\x7b\x7bsignatures\x7d\x7d" ∧
    bind .standard offerTemplate (offer [.named [("amount", .int 25)], .int 3]) none true =
      .ok "<td>10</td>A &amp; B\x7b\x7bsignatures\x7d\x7d" ∧
    ∃ ts r, scan offerTemplate = .ok ts ∧
      (∀ t ∈ ts, t.Shows .standard (offer []) none true (r t)) ∧
      "<td>10</td>A &amp; B\x7b\x7bsignatures\x7d\x7d".toList = fill r offerTemplate.toList 0 ts := by
  have hbind : bind .standard offerTemplate (offer []) none true =
      .ok "<td>10</td>A &amp; B\x7b\x7bsignatures\x7d\x7d" := by decide +kernel
  have hsame : (offer []).SamePreview (offer [.named [("amount", .int 25)], .int 3]) := by
    refine ⟨rfl, _, _, rfl, rfl, ?_⟩
    intro group
    by_cases h : group = "lines"
    · subst h
      exact .rows _ _ _
    · have hmiss (v : Value) : Entries.get (Entries.ofNames [("lines", v)]) group = .null := by
        simp [Entries.get, Entries.get?, Entries.lookup?, Entries.ofNames, Atom.same, h]
      rw [hmiss, hmiss]
      exact .refl _
  obtain ⟨hfill, -, -, -, hpreview⟩ := bind_fills_spans .standard offerTemplate (offer []) none true
  refine ⟨hbind, ?_, (hfill _).mp hbind⟩
  rw [hpreview _ hsame, hbind]

end Template
end DocForms
