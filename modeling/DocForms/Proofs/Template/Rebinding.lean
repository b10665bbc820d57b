import DocForms.Proofs.Template.Filling
import Mathlib.Algebra.Order.BigOperators.Group.List
import Mathlib.Algebra.Order.Group.Nat

/-! Binding a template that has been bound already. A displayed value may be, or may bring about, a
token that the next binding replaces. The text stays as it is when its tokens show themselves, and
so when braces neither stand loose in the template nor come in with the values. -/
namespace DocForms
open Placeholder

namespace Piece
variable {cs : List Char} {ps : List Piece} {g : Piece → List Char}

/-- Every pair of opening braces in a text begins a word. -/
def BracesBegin (cs : List Char) : Prop :=
  ∀ a b, cs = a ++ '\x7b' :: '\x7b' :: b → ∃ w p rest, Word w p ∧ '\x7b' :: '\x7b' :: b = w ++ rest

theorem BracesBegin.of_append {a : List Char} (h : BracesBegin (a ++ cs)) : BracesBegin cs := by
  intro a' b heq
  refine h (a ++ a') b ?_
  rw [heq, List.append_assoc]

/-- The parts that a part of a template leaves behind when it gives way to a text. -/
def remains (g : Piece → List Char) : Piece → List Piece
  | .char c => [.char c]
  | .token p raw => if p.isSignature then [.token p raw] else (g (.token p raw)).map .char

theorem Parts.head_brace (h : Parts cs ps) (hchar : ∀ c, g (.char c) = [c]) {b : List Char}
    (hb : (ps.map g).flatten = '\x7b' :: b) : ∃ b', cs = '\x7b' :: b' := by
  cases h with
  | nil => cases hb
  | token hw _ =>
    obtain ⟨c, inner, rfl, -⟩ := hw.braced
    exact ⟨_, rfl⟩
  | char =>
    rw [List.map_cons, List.flatten_cons, hchar] at hb
    obtain ⟨rfl, -⟩ := List.cons.inj hb
    exact ⟨_, rfl⟩

theorem parts_chars {us : List Char} (h : Parts cs ps) (hus : '\x7b' ∉ us) :
    Parts (us ++ cs) (us.map .char ++ ps) := by
  induction us with
  | nil => exact h
  | cons c us ih =>
    rw [List.mem_cons, not_or] at hus
    refine .char ?_ (ih hus.2)
    intro w p rest hw heq
    obtain ⟨c', inner, rfl, -⟩ := hw.braced
    exact hus.1 (List.cons.inj heq).1.symm

/-- Without loose braces in the template and braces in the displayed values, no new words arise. -/
theorem Parts.bound (h : Parts cs ps) (hbraces : BracesBegin cs) (hchar : ∀ c, g (.char c) = [c])
    (hsig : ∀ p raw, .token p raw ∈ ps → p.isSignature = true → g (.token p raw) = raw)
    (hfield : ∀ p raw, .token p raw ∈ ps → p.isSignature = false → '\x7b' ∉ g (.token p raw)) :
    Parts (ps.map g).flatten (ps.flatMap (remains g)) := by
  induction h with
  | nil => exact .nil
  | @token w p rest ps hw hrest ih =>
    have hparts := ih hbraces.of_append
      (fun p raw hmem => hsig p raw (List.mem_cons_of_mem _ hmem))
      (fun p raw hmem => hfield p raw (List.mem_cons_of_mem _ hmem))
    rw [List.map_cons, List.flatten_cons, List.flatMap_cons, remains]
    cases hp : p.isSignature with
    | true =>
      rw [hsig p w (List.mem_cons_self ..) hp]
      exact .token hw hparts
    | false => exact parts_chars hparts (hfield p w (List.mem_cons_self ..) hp)
  | @char c cs ps hno hcs ih =>
    have hparts := ih (BracesBegin.of_append (a := [c]) hbraces)
      (fun p raw hmem => hsig p raw (List.mem_cons_of_mem _ hmem))
      (fun p raw hmem => hfield p raw (List.mem_cons_of_mem _ hmem))
    rw [List.map_cons, List.flatten_cons, List.flatMap_cons, hchar]
    refine .char ?_ hparts
    -- a word that began here would begin with two braces of the template
    intro w p rest hw heq
    obtain ⟨c', inner, rfl, -⟩ := hw.braced
    obtain ⟨rfl, hsecond⟩ := List.cons.inj heq
    obtain ⟨b, rfl⟩ := hcs.head_brace hchar hsecond
    obtain ⟨w, p, rest, hw, heq⟩ := hbraces [] b rfl
    exact hno w p rest hw heq

end Piece

namespace Template
variable {rs : Renderers} {s : Snapshot} {form : Option Form} {escape : Bool} {template c : String}
  {t : Token}

/-- A text whose tokens show themselves stays as it is. -/
theorem bind_of_shows_raw {ts : List Token} (hscan : scan c = .ok ts)
    (h : ∀ t ∈ ts, t.Shows rs s form escape t.raw) : bind rs c s form escape = .ok c := by
  have hparts := Piece.parts_split c
  have hfill := flatten_map_eq_fill hparts (g := Piece.chars) (r := Token.raw) (fun _ => rfl) []
    (fun _ _ => rfl)
  obtain ⟨-, rfl⟩ := scan_eq_ok.mp hscan
  exact bind_eq_ok_iff.mpr ⟨_, Token.raw, hscan, h, hparts.flatten_chars.symm.trans hfill⟩

/-- A bound text stays as it is if every pair of opening braces in the template began a token and no
displayed value has an opening brace. -/
theorem bind_of_bracesBegin (hbind : bind rs template s form escape = .ok c)
    (hbraces : Piece.BracesBegin template.toList)
    (hclear : ∀ t ∈ Token.all template, t.placeholder.isSignature = false →
      ∀ u, t.Shows rs s form escape u → '\x7b' ∉ u.toList) :
    bind rs c s form escape = .ok c := by
  obtain ⟨hall, hc⟩ := bind_eq_ok_parts.mp hbind
  have hsig : ∀ p raw, .token p raw ∈ Piece.split template → p.isSignature = true →
      replacement rs s form escape (.token p raw) = raw := by
    intro p raw hmem hp
    obtain ⟨t, ht, rfl, rfl⟩ := token_mem_iff.mp hmem
    obtain ⟨u, -, hu, hrep⟩ := exists_shown hall ht
    rw [hrep, (Token.shows_signature hp).mp hu]
  have hfield : ∀ p raw, .token p raw ∈ Piece.split template → p.isSignature = false →
      '\x7b' ∉ replacement rs s form escape (.token p raw) := by
    intro p raw hmem hp
    obtain ⟨t, ht, rfl, rfl⟩ := token_mem_iff.mp hmem
    obtain ⟨u, -, hu, hrep⟩ := exists_shown hall ht
    rw [hrep]
    exact hclear t ht hp u hu
  have hparts := (Piece.parts_split template).bound hbraces (fun _ => rfl) hsig hfield
  rw [← hc] at hparts
  -- the tokens of the bound text are the signatures of the template
  have hkept : ∀ t ∈ Token.all c, t.placeholder.isSignature = true ∧ t.isTooLong = false := by
    intro t ht
    have hstands := (Token.mem_ofPieces (Piece.parts_split c)).mp ht
    have hmem := token_mem_iff.mpr ⟨t, (Token.mem_ofPieces hparts).mpr hstands, rfl, rfl⟩
    obtain ⟨piece, hpiece, hremains⟩ := List.mem_flatMap.mp hmem
    cases piece with
    | char d => cases List.mem_singleton.mp hremains
    | token p raw =>
      rw [Piece.remains] at hremains
      split at hremains
      · rename_i hp
        obtain ⟨rfl, -⟩ := Piece.token.inj (List.mem_singleton.mp hremains)
        obtain ⟨t', ht', hplace, -⟩ := token_mem_iff.mp hpiece
        obtain ⟨-, hshort, -⟩ := exists_shown hall ht'
        rw [Token.isTooLong, hplace] at hshort
        exact ⟨hp, hshort⟩
      · obtain ⟨d, -, hd⟩ := List.mem_map.mp hremains
        cases hd
  have hscan : scan c = .ok (Token.all c) := scan_eq_ok.mpr ⟨fun t ht => (hkept t ht).2, rfl⟩
  exact bind_of_shows_raw hscan fun t ht => .signature (hkept t ht).1


/-! ### Values that are tokens -/

/-- The snapshot that holds a value for the token of one field and nothing else. -/
def holding (p : Placeholder) (v : Value) : Snapshot :=
  match p with
  | .field name => { simple := .named [(name, v)] }
  | .member group name => { groups := .named [(group, .named [(name, v)])] }
  | _ => {}

theorem get_named_single (name key : String) (v : Value) :
    Entries.get (Entries.ofNames [(name, v)]) key = if key = name then v else .null := by
  by_cases h : key = name <;>
    simp [Entries.get, Entries.get?, Entries.lookup?, Entries.ofNames, Atom.same, h]

theorem holds_holding {p q : Placeholder} {v : Value} (hp : p.isSignature = false)
    (hq : q.isSignature = false) : (holding p v).Holds q (if q = p then v else .null) := by
  cases p with
  | field name =>
    cases q with
    | field key =>
      have h : (holding (.field name) v).Holds (.field key) _ := .field rfl
      simpa only [get_named_single, Placeholder.field.injEq] using h
    | member =>
      have h (g : String) : Entries.get [] g = .null := rfl
      exact .absent rfl (by simp [h]) (by simp [h])
    | signatures => cases hq
    | signature => cases hq
  | member group name =>
    cases q with
    | field key =>
      have h : (holding (.member group name) v).Holds (.field key) (Entries.get [] key) := .field rfl
      exact h
    | member group' key =>
      by_cases hg : group' = group
      · have hrow := (get_named_single group group' (.named [(name, v)])).trans (if_pos hg)
        have h : (holding (.member group name) v).Holds (.member group' key) _ := .row rfl hrow
        simpa only [get_named_single, Placeholder.member.injEq, hg, true_and] using h
      · have hnone := (get_named_single group group' (.named [(name, v)])).trans (if_neg hg)
        rw [if_neg (by simp [hg])]
        exact .absent rfl (by simp [hnone]) (by simp [hnone])
    | signatures => cases hq
    | signature => cases hq
  | signatures => cases hp
  | signature => cases hp

/-- The token of a field other than the given one, as short as such a token can be. -/
theorem exists_other (p : Placeholder) : ∃ w : String, ∃ q, Word w.toList q ∧ q.isSignature = false ∧
    q ≠ p ∧ w.length = fieldLead.length + closing.length + 1 ∧ Text.escapeMarkup w = w := by
  have hword {name : String} (h : isName name = true) :
      Word (fieldToken none name).toList (.field name) :=
    word_fieldToken h (by simp)
  by_cases hp : p = .field "a"
  · refine ⟨fieldToken none "b", .field "b", hword (by decide), rfl, ?_, by decide, by decide⟩
    rw [hp]
    decide
  · exact ⟨fieldToken none "a", .field "a", hword (by decide), rfl, Ne.symm hp, by decide, by decide⟩

theorem lead_lt_length {w : List Char} {p : Placeholder} (h : Word w p) (hp : p.isSignature = false) :
    fieldLead.length + closing.length + 1 ≤ w.length := by
  have hname {name : String} (hn : NameShape name) : 0 < name.toList.length := by
    obtain ⟨c, cs, hs, -⟩ := hn
    rw [hs]
    exact Nat.succ_pos _
  cases h with
  | field hn =>
    have hpos := hname hn
    rw [List.length_append, List.length_append]
    omega
  | member hg hn =>
    have hpos := hname hg
    rw [List.length_append, List.length_append, List.length_cons, List.length_append]
    omega
  | signatures => cases hp
  | signature => cases hp

/-- In a snapshot with one text for one field, that field shows the text and others show nothing. -/
theorem shows_holding {p : Placeholder} {w u : String} (hp : p.isSignature = false)
    (hescape : Text.escapeMarkup w = w) (hfield : t.placeholder.isSignature = false) :
    t.Shows rs (holding p (.text w)) none escape u ↔ u = if t.placeholder = p then w else "" := by
  have hholds := holds_holding (v := .text w) hp hfield
  by_cases heq : t.placeholder = p
  · rw [if_pos heq] at hholds ⊢
    have hdisplay : t.placeholder.display rs none escape (.text w) = .ok w := by
      cases escape
      · rfl
      · exact congrArg Except.ok hescape
    rw [Token.shows_field hfield]
    constructor
    · rintro ⟨v, hv, hu⟩
      rw [holds_unique hfield hv hholds, hdisplay] at hu
      exact (Except.ok.inj hu).symm
    · rintro rfl
      exact ⟨_, hholds, hdisplay⟩
  · rw [if_neg heq] at hholds ⊢
    exact shows_null hfield hholds

/-- A text is changed when one of its tokens gives way to a shorter text and none to a longer one. -/
theorem bind_ne_self (hle : ∀ t ∈ Token.all c, ∀ u, t.Shows rs s form escape u →
      u.length ≤ t.raw.length)
    (ht : t ∈ Token.all c) (hlt : ∀ u, t.Shows rs s form escape u → u.length < t.raw.length) :
    bind rs c s form escape ≠ .ok c := by
  intro hbind
  obtain ⟨hall, hc⟩ := bind_eq_ok_parts.mp hbind
  have hlength := congrArg List.length (hc.symm.trans (Piece.parts_split c).flatten_chars.symm)
  rw [List.length_flatten, List.length_flatten, List.map_map, List.map_map] at hlength
  refine (List.sum_lt_sum _ _ ?_ ⟨_, token_mem_iff.mpr ⟨t, ht, rfl, rfl⟩, ?_⟩).ne hlength
  · intro piece hpiece
    cases piece with
    | char d => exact le_rfl
    | token p raw =>
      obtain ⟨t, ht, rfl, rfl⟩ := token_mem_iff.mp hpiece
      obtain ⟨u, -, hu, hrep⟩ := exists_shown hall ht
      rw [Function.comp_apply, hrep]
      exact hle t ht u hu
  · obtain ⟨u, -, hu, hrep⟩ := exists_shown hall ht
    rw [Function.comp_apply, hrep]
    exact hlt u hu

/-- A snapshot can hold the token of another field for the token of a field. That token comes into the
bound text, and the next binding replaces it. -/
theorem exists_unstable {ts : List Token} (rs : Renderers) (escape : Bool)
    (hscan : scan template = .ok ts) (ht : t ∈ ts) (hp : t.placeholder.isSignature = false) :
    ∃ s c, bind rs template s none escape = .ok c ∧ bind rs c s none escape ≠ .ok c := by
  obtain ⟨w, q, hw, hq, hne, hlen, hescape⟩ := exists_other t.placeholder
  have hshown : ∀ t' ∈ ts, ∃ u, t'.Shows rs (holding t.placeholder (.text w)) none escape u := by
    intro t' ht'
    cases hsig : t'.placeholder.isSignature with
    | false => exact ⟨_, (shows_holding (w := w) hp hescape hsig).mpr rfl⟩
    | true => exact ⟨_, .signature hsig⟩
  choose! r hr using hshown
  have hbind := bind_eq_ok_iff.mpr ⟨ts, r, hscan, hr, String.toList_ofList⟩
  obtain ⟨-, rfl⟩ := scan_eq_ok.mp hscan
  refine ⟨_, _, hbind, ?_⟩
  generalize String.ofList (fill r template.toList 0 (Token.all template)) = c at hbind
  -- the text that stands for the token is a token of the bound text
  obtain ⟨before, after, hpieces⟩ := List.append_of_mem (token_mem_iff.mpr ⟨t, ht, rfl, rfl⟩)
  obtain ⟨hall, hc⟩ := bind_eq_ok_parts.mp hbind
  obtain ⟨u, -, hu, hrep⟩ := exists_shown hall ht
  obtain rfl : u = w := ((shows_holding hp hescape hp).mp hu).trans (if_pos rfl)
  rw [hpieces, List.map_append, List.map_cons, List.flatten_append, List.flatten_cons, hrep] at hc
  obtain ⟨t', ht', hplace, hraw⟩ : ∃ t' ∈ Token.all c, t'.placeholder = q ∧ t'.raw = u :=
    ⟨⟨String.ofList u.toList, _, _, q⟩,
      (Token.mem_ofPieces (Piece.parts_split c)).mpr ⟨_, _, _, hc, hw, rfl⟩, rfl,
      String.ofList_toList⟩
  refine bind_ne_self ?_ ht' ?_
  · intro t' ht' v hv
    cases hsig : t'.placeholder.isSignature with
    | true => rw [(Token.shows_signature hsig).mp hv]
    | false =>
      obtain ⟨-, hword, hraw⟩ := Token.mem_all.mp ht'
      rw [← hraw] at hword
      rw [(shows_holding hp hescape hsig).mp hv]
      split
      · rw [hlen, ← String.length_toList]
        exact lead_lt_length hword hsig
      · exact Nat.zero_le _
  · intro v hv
    rw [← hplace] at hq hne
    rw [(shows_holding hp hescape hq).mp hv, if_neg hne, hraw, hlen]
    exact Nat.succ_pos _

/-- Binding a bound text again leaves it as it is for all values exactly if the template has no tokens
of fields. For the values at hand it does so if the tokens of the bound text show themselves, and so
if the template has no loose pairs of braces and no displayed value has a brace. -/
theorem bind_again_iff (rs : Renderers) (template : String) (escape : Bool) :
    ((∀ s form c, bind rs template s form escape = .ok c → bind rs c s form escape = .ok c) ↔
      ∀ ts, scan template = .ok ts → ∀ t ∈ ts, t.placeholder.isSignature = true) ∧
    ∀ s form c, bind rs template s form escape = .ok c →
      (∀ ts, scan c = .ok ts → (∀ t ∈ ts, t.Shows rs s form escape t.raw) →
        bind rs c s form escape = .ok c) ∧
      (Piece.BracesBegin template.toList →
        (∀ t ∈ Token.all template, t.placeholder.isSignature = false →
          ∀ u, t.Shows rs s form escape u → '\x7b' ∉ u.toList) →
        bind rs c s form escape = .ok c) := by
  refine ⟨⟨?_, ?_⟩, ?_⟩
  · intro hstable ts hscan t ht
    by_contra hp
    obtain ⟨s, c, hbind, hagain⟩ := exists_unstable rs escape hscan ht (by simpa using hp)
    exact hagain (hstable s none c hbind)
  · intro hsigned s form c hbind
    obtain ⟨ts, -, hscan, -, -⟩ := bind_eq_ok_iff.mp hbind
    have hsame : bind rs template s form escape = .ok template :=
      bind_of_shows_raw hscan fun t ht => .signature (hsigned ts hscan t ht)
    obtain rfl := Except.ok.inj (hsame.symm.trans hbind)
    exact hsame
  · intro s form c hbind
    constructor
    · intro ts hscan hshow
      exact bind_of_shows_raw hscan hshow
    · intro hbraces hclear
      exact bind_of_bracesBegin hbind hbraces hclear

-- a value without braces may complete a token with what stands around it
example : bind .standard "\x7b\x7bdocument.values.\x7b\x7bdocument.values.b\x7d\x7d\x7d\x7d"
    { simple := .named [("b", .text "x")] } none true =
      .ok "\x7b\x7bdocument.values.x\x7d\x7d" := by
  decide +kernel

/-- A value that is the token of another field. -/
def pointer : Snapshot where
  simple := .named [("a", .text "\x7b\x7bdocument.values.b\x7d\x7d"), ("b", .text "x")]

/-- The value of a field may be the token of another one, which the next binding replaces. -/
theorem bind_again_pointer :
    (bind .standard "\x7b\x7bdocument.values.a\x7d\x7d" pointer none true =
        .ok "\x7b\x7bdocument.values.b\x7d\x7d" ∧
      bind .standard "\x7b\x7bdocument.values.b\x7d\x7d" pointer none true = .ok "x") ∧
    bind .standard "\x7b\x7bdocument.values.a\x7d\x7d" pointer none false =
        .ok "\x7b\x7bdocument.values.b\x7d\x7d" ∧
      bind .standard "\x7b\x7bdocument.values.b\x7d\x7d" pointer none false = .ok "x" := by
  decide +kernel

end Template
end DocForms
