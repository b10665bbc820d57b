import DocForms.Proofs.Registry.Forms
import DocForms.Proofs.Template.Separation
import DocForms.Template.Starter
import Mathlib.Data.List.Flatten
import Mathlib.Data.List.Perm.Basic

/-! The tokens of starter templates. A starter template has the tokens of its fields and of the
signatures, in the order of the form, and besides them those that stand in the texts that it
shows. -/
namespace DocForms

/-! ### Lists in between -/

section Mixes
variable {α β : Type} {own own' other other' all all' : List α}

/-- A list that consists of `own`, in its order, with the elements of `other` in between. -/
structure Mixes (own other all : List α) : Prop where
  perm : all.Perm (other ++ own)
  sublist : own.Sublist all

theorem Mixes.of_append (other own : List α) : Mixes own other (other ++ own) :=
  ⟨.rfl, List.sublist_append_right other own⟩

theorem Mixes.of_own (own : List α) : Mixes own [] own := .of_append [] own

theorem Mixes.of_other (other : List α) : Mixes [] other other :=
  ⟨by rw [List.append_nil], List.nil_sublist other⟩

theorem Mixes.append (h : Mixes own other all) (h' : Mixes own' other' all') :
    Mixes (own ++ own') (other ++ other') (all ++ all') := by
  refine ⟨(h.perm.append h'.perm).trans ?_, h.sublist.append h'.sublist⟩
  have hmiddle : (own ++ other' ++ own').Perm (other' ++ own ++ own') :=
    List.perm_append_comm.append_right own'
  simpa only [List.append_assoc] using hmiddle.append_left other

theorem Mixes.flatMap {as : List β} {f g h : β → List α} (hall : ∀ a ∈ as, Mixes (f a) (g a) (h a)) :
    Mixes (as.flatMap f) (as.flatMap g) (as.flatMap h) := by
  induction as with
  | nil => exact .of_own []
  | cons a as ih =>
    have hrest := ih fun b hb => hall b (List.mem_cons_of_mem _ hb)
    exact (hall a (List.mem_cons_self ..)).append hrest

/-- Only without other elements is the whole list the own one. -/
theorem Mixes.eq_iff (h : Mixes own other all) : all = own ↔ other = [] := by
  have hlength := h.perm.length_eq
  rw [List.length_append] at hlength
  constructor
  · rintro rfl
    exact List.length_eq_zero_iff.mp (by omega)
  · rintro rfl
    exact (h.sublist.eq_of_length (by simpa using hlength.symm)).symm

end Mixes

namespace Template
open Piece Placeholder
variable {form : Form} {g : FieldGroup} {p : Placeholder}

/-! ### Lines -/

/-- What the tokens of a text stand for, in order. -/
def placeholders (s : String) : List Placeholder := found s.toList

theorem placeholders_eq_nil {s : String} : placeholders s = [] ↔ Token.all s = [] := by
  rw [placeholders, ← map_placeholder_all, List.map_eq_nil_iff]

theorem placeholders_escaped (s : String) : placeholders (Text.escapeMarkup s) = placeholders s := by
  rw [placeholders, Text.escapeMarkup, String.toList_ofList, found_escaped]
  rfl

theorem loose_bracket : Loose '<' := by
  apply loose_of <;> decide +kernel

theorem loose_colon : Loose ':' := by
  apply loose_of <;> decide +kernel

theorem loose_newline : Loose '\n' := by
  apply loose_of <;> decide +kernel

/-- What stands between tags keeps its tokens. -/
theorem placeholders_tagged_append {tag : String} (htag : '\x7b' ∉ tag.toList) (s u : String) :
    placeholders (tagged tag s ++ u) = placeholders s ++ placeholders u := by
  have hopen : '\x7b' ∉ '<' :: (tag.toList ++ ['>']) := by simpa using htag
  have hclose : '\x7b' ∉ '<' :: '/' :: (tag.toList ++ ['>']) := by simpa using htag
  have hlist : (tagged tag s ++ u).toList = '<' :: (tag.toList ++ ['>']) ++
      (s.toList ++ '<' :: ('/' :: (tag.toList ++ ['>']) ++ u.toList)) := by
    simp [tagged]
  rw [placeholders, hlist, found_clear hopen, found_loose loose_bracket]
  exact congrArg (found s.toList ++ ·) (found_clear hclose u.toList)

theorem placeholders_tagged {tag : String} (htag : '\x7b' ∉ tag.toList) (s : String) :
    placeholders (tagged tag s) = placeholders s := by
  have h := placeholders_tagged_append htag s ""
  rwa [String.append_empty, show placeholders "" = [] from rfl, List.append_nil] at h

theorem placeholders_join_tagged {α : Type} {tag : String} (htag : '\x7b' ∉ tag.toList)
    (text : α → String) (as : List α) :
    placeholders (String.join (as.map fun a => tagged tag (text a))) =
      as.flatMap fun a => placeholders (text a) := by
  induction as with
  | nil => rfl
  | cons a as ih =>
    rw [List.map_cons, String.join_cons, placeholders_tagged_append htag, ih, List.flatMap_cons]

theorem placeholders_lines (lines : List String) :
    placeholders ("\n".intercalate lines) = lines.flatMap placeholders := by
  induction lines with
  | nil => rfl
  | cons line lines ih =>
    cases lines with
    | nil => simp
    | cons next lines =>
      have hlist : (line ++ "\n" ++ "\n".intercalate (next :: lines)).toList =
          line.toList ++ '\n' :: ("\n".intercalate (next :: lines)).toList := by simp
      have hclear : '\x7b' ∉ ['\n'] := by decide
      rw [String.intercalate_cons_cons, List.flatMap_cons, ← ih, placeholders, hlist,
        found_loose loose_newline]
      exact congrArg (found line.toList ++ ·) (found_clear hclear _)

theorem placeholders_token {token : String} (h : Word token.toList p) : placeholders token = [p] := by
  have hword := found_word h []
  rwa [List.append_nil] at hword

/-- A line has the tokens of its label and its own. -/
theorem placeholders_labelled {token : String} {p : Placeholder} (h : Word token.toList p)
    (label : String) : placeholders (labelled label token) = placeholders label ++ [p] := by
  have hlabel : placeholders (Text.escapeMarkup label ++ ":") = placeholders label := by
    rw [placeholders, String.toList_append]
    refine (found_loose loose_colon _ []).trans ?_
    rw [← placeholders, placeholders_escaped]
    exact List.append_nil _
  have htoken : placeholders (" " ++ token) = [p] := by
    have hclear : '\x7b' ∉ [' '] := by decide
    rw [placeholders, String.toList_append]
    exact (found_clear hclear token.toList).trans (placeholders_token h)
  rw [labelled, placeholders_tagged (by decide), String.append_assoc,
    placeholders_tagged_append (by decide), hlabel, htoken]

/-! ### Starter templates -/

/-- The tokens of the fields of a group. -/
def groupTokens (g : FieldGroup) : List Placeholder := g.fields.map fun f => .member g.name f.name

/-- The tokens that a starter template has of its own: those of the ungrouped fields, those of the
fields of each group, and that of all signatures. -/
def ownTokens (form : Form) : List Placeholder :=
  form.fields.map (fun f => .field f.name) ++ form.groups.flatMap groupTokens ++ [.signatures]

/-- The texts that the lines of a group show; a group without fields has none. -/
def groupTexts (g : FieldGroup) : List String :=
  if g.fields.isEmpty then [] else g.label :: g.fields.map Field.label

/-- The texts that a starter template shows besides its tokens. -/
def shownTexts (form : Form) : List String :=
  form.type.name :: form.fields.map Field.label ++ form.groups.flatMap groupTexts

theorem word_member (hg : isName g.name = true) {f : Field} (hf : isName f.name = true) :
    Word (Placeholder.fieldToken (some g.name) f.name).toList (.member g.name f.name) :=
  word_fieldToken hf (by simpa using hg)

/-- The labels of a table stand before its tokens. -/
theorem placeholders_table (hg : isName g.name = true)
    (hfields : ∀ f ∈ g.fields, isName f.name = true) :
    placeholders (table g) = (g.fields.flatMap fun f => placeholders f.label) ++ groupTokens g := by
  have hheader : placeholders (String.join (g.fields.map fun f => taggedText "th" f.label)) =
      g.fields.flatMap fun f => placeholders f.label :=
    (placeholders_join_tagged (by decide) _ g.fields).trans
      (List.flatMap_congr fun f _ => placeholders_escaped f.label)
  have hrow : placeholders (String.join (g.fields.map fun f =>
      tagged "td" (Placeholder.fieldToken (some g.name) f.name))) = groupTokens g := by
    rw [placeholders_join_tagged (by decide), groupTokens, List.map_eq_flatMap]
    exact List.flatMap_congr fun f hf => placeholders_token (word_member hg (hfields f hf))
  rw [table, placeholders_tagged (by decide), placeholders_tagged_append (by decide), hheader,
    placeholders_tagged (by decide), hrow]

/-- The lines of a group have its tokens, in the order of its fields, and those of its texts. -/
theorem mixes_group (hg : isName g.name = true) (hfields : ∀ f ∈ g.fields, isName f.name = true) :
    Mixes (groupTokens g) ((groupTexts g).flatMap placeholders)
      ((groupLines g).flatMap placeholders) := by
  unfold groupLines groupTexts
  split
  · rename_i hempty
    rw [groupTokens, List.isEmpty_iff.mp hempty]
    exact .of_own []
  · rw [List.flatMap_cons, List.flatMap_cons, taggedText, placeholders_tagged (by decide),
      placeholders_escaped, List.flatMap_map]
    refine (Mixes.of_other _).append ?_
    split
    · rw [List.flatMap_singleton, placeholders_table hg hfields]
      exact .of_append _ _
    · rw [List.flatMap_map, List.map_eq_flatMap]
      refine .flatMap fun f hf => ?_
      rw [placeholders_labelled (word_member hg (hfields f hf))]
      exact .of_append _ _

/-- A starter template has its own tokens, in the order of the form, and those of the texts that it
shows. -/
theorem mixes_starter (hn : form.WellNamed) :
    Mixes (ownTokens form) ((shownTexts form).flatMap placeholders)
      (placeholders (starter form).content) := by
  have hfields : Mixes (form.fields.map fun f => Placeholder.field f.name)
      (form.fields.flatMap fun f => placeholders f.label)
      ((form.fields.map fun f => labelled f.label
        (Placeholder.fieldToken none f.name)).flatMap placeholders) := by
    rw [List.flatMap_map, List.map_eq_flatMap]
    refine .flatMap fun f hf => ?_
    rw [placeholders_labelled (word_fieldToken (hn.field f hf) (by simp))]
    exact .of_append _ _
  have hgroups : Mixes (form.groups.flatMap groupTokens)
      (form.groups.flatMap fun g => (groupTexts g).flatMap placeholders)
      (form.groups.flatMap fun g => (groupLines g).flatMap placeholders) :=
    .flatMap fun g hg => mixes_group (hn.group g hg) (hn.member g hg)
  have hsigned : placeholders (tagged "p" (String.ofList signaturesToken)) = [.signatures] := by
    rw [placeholders_tagged (by decide)]
    refine placeholders_token ?_
    rw [String.toList_ofList]
    exact .signatures
  have hall := (((Mixes.of_other (placeholders form.type.name)).append hfields).append
    hgroups).append (.of_own [Placeholder.signatures])
  rw [starter, placeholders_lines, starterLines, ownTokens, shownTexts]
  simp only [List.cons_append, List.flatMap_cons, List.flatMap_append, List.flatMap_map,
    List.flatMap_assoc, taggedText] at hall ⊢
  rw [placeholders_tagged (by decide), placeholders_escaped, hsigned]
  simpa using hall

/-- The tokens of a form and of the signatures, each with whether its group is repeatable. -/
def flaggedTokens (form : Form) : List (Placeholder × Bool) :=
  form.fields.map (fun f => (.field f.name, false)) ++
    form.groups.flatMap (fun g => g.fields.map fun f => (.member g.name f.name, g.repeatable)) ++
    [(.signatures, false)]

/-- A token of the form is repeatable just if its group is. -/
theorem map_isRepeatable (hn : form.WellNamed) :
    (ownTokens form).map (fun p => (p, p.isRepeatable (some form))) = flaggedTokens form := by
  have hgroup : ∀ g ∈ form.groups, (groupTokens g).map (fun p => (p, p.isRepeatable (some form))) =
      g.fields.map fun f => (.member g.name f.name, g.repeatable) := by
    intro g hg
    rw [groupTokens, List.map_map]
    refine List.map_congr_left fun f _ => ?_
    simp [isRepeatable, Form.group?_of_mem hn hg]
  rw [ownTokens, flaggedTokens, List.map_append, List.map_append, List.map_map, List.map_flatMap,
    List.flatMap_congr hgroup]
  rfl

/-- The form has a field for each of its tokens. -/
theorem known_ownTokens (hn : form.WellNamed) {p : Placeholder} (hp : p ∈ ownTokens form) :
    p.isSignature = true ∨ (p.field? form).isSome = true := by
  rw [ownTokens, List.mem_append, List.mem_append] at hp
  rcases hp with (hp | hp) | hp
  · obtain ⟨f, hf, rfl⟩ := List.mem_map.mp hp
    exact .inr (List.find?_isSome.mpr ⟨f, hf, beq_self_eq_true _⟩)
  · obtain ⟨g, hg, hp⟩ := List.mem_flatMap.mp hp
    obtain ⟨f, hf, rfl⟩ := List.mem_map.mp hp
    right
    rw [Placeholder.field?, Form.group?_of_mem hn hg]
    exact List.find?_isSome.mpr ⟨f, hf, beq_self_eq_true _⟩
  · obtain rfl := List.mem_singleton.mp hp
    exact .inl rfl

theorem not_signature_ownTokens {digits : List Nat} : .signature digits ∉ ownTokens form := by
  simp [ownTokens, groupTokens]

/-- Whatever a starter template shows, it has the tokens of its form in the order of the form. It has
no others, and then it is scanned as these, with those of repeatable groups flagged and none unknown,
just if no type name and no label that it shows has a token in it. -/
theorem starter_tokens_iff {r : Registry} {id : String} (hr : r.Reachable)
    (h : r.getForm id = .ok form) :
    (ownTokens form).Sublist ((Token.all (starter form).content).map (·.placeholder)) ∧
    ((∃ ts, scan (starter form).content = .ok ts ∧
        ts.map (fun t => (t.placeholder, t.placeholder.isRepeatable (some form))) =
          flaggedTokens form ∧
        (starter form).unknownPlaceholders form = .ok []) ↔
      ∀ s ∈ shownTexts form, Token.all s = []) := by
  have hn := Registry.getForm_wellNamed hr h
  have hmixes := mixes_starter hn
  have hall := map_placeholder_all (starter form).content
  refine ⟨hall ▸ hmixes.sublist, ?_⟩
  have hclean : placeholders (starter form).content = ownTokens form ↔
      ∀ s ∈ shownTexts form, Token.all s = [] := by
    rw [hmixes.eq_iff, List.flatMap_eq_nil_iff]
    exact forall₂_congr fun s _ => placeholders_eq_nil
  rw [← hclean]
  constructor
  · rintro ⟨ts, hts, hflagged, -⟩
    obtain ⟨-, rfl⟩ := scan_eq_ok.mp hts
    rw [← map_isRepeatable hn] at hflagged
    have hfirst := congrArg (List.map Prod.fst) hflagged
    rw [List.map_map, List.map_map] at hfirst
    exact hall.symm.trans (hfirst.trans (List.map_id _))
  · intro hown
    have hplaced : ∀ t ∈ Token.all (starter form).content, t.placeholder ∈ ownTokens form := by
      intro t ht
      rw [← hown, placeholders, ← hall]
      exact List.mem_map_of_mem ht
    have hshort : ∀ t ∈ Token.all (starter form).content, t.isTooLong = false := by
      intro t ht
      unfold Token.isTooLong
      split
      · rename_i digits hdigits
        exact absurd (hdigits ▸ hplaced t ht) not_signature_ownTokens
      · rfl
    have hscan := scan_eq_ok.mpr ⟨hshort, rfl⟩
    refine ⟨_, hscan, ?_, ?_⟩
    · rw [← map_isRepeatable hn, ← hown, placeholders, ← hall, List.map_map]
      rfl
    · have hknown : (Token.all (starter form).content).filter (fun t =>
          !t.placeholder.isSignature && (t.placeholder.field? form).isNone) = [] := by
        refine List.filter_eq_nil_iff.mpr fun t ht => ?_
        rcases known_ownTokens hn (hplaced t ht) with hp | hp
        · simp [hp]
        · obtain ⟨f, hf⟩ := Option.isSome_iff_exists.mp hp
          simp [hf]
      rw [unknownPlaceholders, unknownTokens, hscan]
      show Except.ok (List.map _ (List.filter _ _)) = _
      rw [hknown]
      rfl

/-- The starter template of an order has one token for its number, one for the amount of its lines,
and the signatures. -/
theorem starter_tokens_order : ∃ form ts, Registry.orders.getForm "t" = .ok form ∧
    scan (starter form).content = .ok ts ∧
    ts.map (fun t => (t.placeholder, t.placeholder.isRepeatable (some form))) =
      [(.field "number", false), (.member "lines" "amount", true), (.signatures, false)] ∧
    (starter form).unknownPlaceholders form = .ok [] := by
  obtain ⟨form, hform, hflagged, htexts⟩ : ∃ form, Registry.orders.getForm "t" = .ok form ∧
      flaggedTokens form =
        [(.field "number", false), (.member "lines" "amount", true), (.signatures, false)] ∧
      shownTexts form = ["Order", "Number", "Lines", "Amount"] := by
    refine ⟨_, rfl, ?_, ?_⟩ <;> decide +kernel
  have hclean : ∀ s ∈ shownTexts form, Token.all s = [] := by
    rw [htexts]
    decide +kernel
  obtain ⟨ts, hts, hmap, hunknown⟩ :=
    (starter_tokens_iff Registry.orders_reachable hform).2.mpr hclean
  exact ⟨form, ts, hform, hts, hmap.trans hflagged, hunknown⟩

/-- A registry with a type of letters whose name and whose only label have tokens in them. -/
def markedLetters : Registry :=
  let r := Registry.empty.after { given := some "t" } (.defineType (.named
    [("name", .text "Letter \x7b\x7bdocument.values.nope\x7d\x7d"), ("code", .text "LETTER")]))
  r.after { given := some "f" } (.defineField "t" (.named [("name", .text "client"),
    ("label", .text "Client \x7b\x7bsignatures\x7d\x7d")]) true)

theorem markedLetters_reachable : markedLetters.Reachable := by
  unfold markedLetters
  refine .step (.step .empty _ _ ?_) _ _ ?_
  · show Registry.type? _ "t" = none
    decide +kernel
  · show Registry.field? _ "f" = none
    decide +kernel

/-- The tokens in a name and in a label are tokens of the starter template, and one is unknown. -/
theorem starter_tokens_marked : markedLetters.Reachable ∧ ∃ form ts,
    markedLetters.getForm "t" = .ok form ∧ scan (starter form).content = .ok ts ∧
    ts.map (·.placeholder) = [.field "nope", .signatures, .field "client", .signatures] ∧
    ownTokens form = [.field "client", .signatures] ∧
    (starter form).unknownPlaceholders form =
      .ok ["\x7b\x7bdocument.values.nope\x7d\x7d"] := by
  refine ⟨markedLetters_reachable, ?_⟩
  obtain ⟨form, hform, htokens, hown, hunknown⟩ : ∃ form, markedLetters.getForm "t" = .ok form ∧
      (Token.all (starter form).content).map (·.placeholder) =
        [.field "nope", .signatures, .field "client", .signatures] ∧
      ownTokens form = [.field "client", .signatures] ∧
      (starter form).unknownPlaceholders form =
        .ok ["\x7b\x7bdocument.values.nope\x7d\x7d"] := by
    refine ⟨_, rfl, ?_, ?_, ?_⟩ <;> decide +kernel
  obtain ⟨unknown, hscan, -⟩ := bind_eq_ok.mp hunknown
  obtain ⟨ts, hts, -⟩ := bind_eq_ok.mp hscan
  obtain ⟨-, rfl⟩ := scan_eq_ok.mp hts
  exact ⟨form, _, hform, hts, htokens, hown, hunknown⟩

end Template
end DocForms
