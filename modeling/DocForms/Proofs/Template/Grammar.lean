import DocForms.Proofs.Registry.Naming
import DocForms.Template.Token
import Mathlib.Data.List.TakeWhile

/-! The token language of templates as a grammar. A token is read at the head of a text exactly when
a word of the language stands there, and no word begins inside another one. -/
namespace DocForms

namespace Text

theorem isDigit_iff {c : Char} : isDigit c = true ↔ ∃ n, digitValue? c = some n := by
  rw [isDigit, covers, List.any_eq_true, ← List.find?_isSome, Option.isSome_iff_exists]
  constructor
  · rintro ⟨span, h⟩
    exact ⟨_, congrArg (Option.map _) h⟩
  · rintro ⟨n, h⟩
    obtain ⟨span, hspan, -⟩ := Option.map_eq_some_iff.mp h
    exact ⟨span, hspan⟩

/-- The digits of a run, each with its value. -/
theorem map_digitValue? {cs : List Char} (h : ∀ c ∈ cs, isDigit c = true) :
    cs.map digitValue? = (cs.filterMap digitValue?).map some := by
  induction cs with
  | nil => rfl
  | cons c cs ih =>
    obtain ⟨n, hn⟩ := isDigit_iff.mp (h c (List.mem_cons_self ..))
    have hcs := ih fun d hd => h d (List.mem_cons_of_mem _ hd)
    rw [List.map_cons, List.filterMap_cons_some hn, List.map_cons, hn, hcs]

end Text

theorem isName_of_nameShape {s : String} (h : NameShape s) : isName s = true := by
  obtain ⟨c, cs, hs, hc, hcs⟩ := h
  simp only [isName, hs, isLowerLetter, isNameChar, Char.isDigit, Bool.and_eq_true, Bool.or_eq_true,
    decide_eq_true_eq, List.all_eq_true, beq_iff_eq]
  refine ⟨hc, ?_⟩
  intro d hd
  rcases hcs d hd with h | h | h
  · exact .inl (.inl h)
  · exact .inl (.inr h)
  · exact .inr h

namespace Placeholder

/-- The words of the token language, each with what it stands for. -/
inductive Word : List Char → Placeholder → Prop where
  | field {name : String} (h : NameShape name) :
    Word (fieldLead ++ name.toList ++ closing) (.field name)
  | member {group name : String} (hg : NameShape group) (hn : NameShape name) :
    Word (fieldLead ++ group.toList ++ '.' :: (name.toList ++ closing)) (.member group name)
  | signatures : Word signaturesToken .signatures
  | signature {cs : List Char} {digits : List Nat} (hne : cs ≠ [])
    (h : cs.map Text.digitValue? = digits.map some) :
    Word (signatureLead ++ cs ++ closing) (.signature digits)

variable {cs w w' a b rest : List Char} {p p' : Placeholder}

/-! ### Reading -/

theorem after?_append (lead cs : List Char) : after? lead (lead ++ cs) = some cs := by
  rw [after?, if_pos (List.isPrefixOf_iff_prefix.mpr ⟨cs, rfl⟩), List.drop_left]

theorem after?_eq_some {lead : List Char} (h : after? lead cs = some rest) : cs = lead ++ rest := by
  unfold after? at h
  split at h
  · rename_i hp
    obtain ⟨more, rfl⟩ := List.isPrefixOf_iff_prefix.mp hp
    rw [List.drop_left] at h
    rw [Option.some.inj h]
  · cases h

theorem name?_append {name : String} (h : NameShape name) (rest : List Char)
    (hrest : rest.takeWhile isNameChar = [] ∧ rest.dropWhile isNameChar = rest) :
    name? (name.toList ++ rest) = some (name.toList, rest) := by
  have hname := isName_of_nameShape h
  unfold isName at hname
  split at hname
  · cases hname
  · rename_i c cs hs
    rw [Bool.and_eq_true, List.all_eq_true] at hname
    rw [hs, List.cons_append, name?, if_pos hname.1, List.takeWhile_append_of_pos hname.2,
      List.dropWhile_append_of_pos hname.2, hrest.1, hrest.2, List.append_nil]

theorem name?_eq_some {name : List Char} (h : name? cs = some (name, rest)) :
    cs = name ++ rest ∧ NameShape (String.ofList name) := by
  unfold name? at h
  split at h
  · cases h
  · rename_i c more
    split at h
    · rename_i hc
      obtain ⟨rfl, rfl⟩ := Prod.mk.inj (Option.some.inj h)
      refine ⟨by simp, nameShape_of_isName ?_⟩
      rw [isName, String.toList_ofList]
      refine Bool.and_eq_true_iff.mpr ⟨hc, List.all_eq_true.mpr ?_⟩
      intro d hd
      exact List.mem_takeWhile_imp hd
    · cases h

theorem readField?_eq_some (h : readField? cs = some (p, rest)) :
    ∃ w, Word w p ∧ cs = w ++ rest := by
  obtain ⟨inner, hlead, hname⟩ := Option.bind_eq_some_iff.mp h
  obtain ⟨⟨first, more⟩, hfirst, hmore⟩ := Option.bind_eq_some_iff.mp hname
  obtain rfl := after?_eq_some hlead
  obtain ⟨rfl, hf⟩ := name?_eq_some hfirst
  dsimp only at hmore
  split at hmore
  · obtain ⟨⟨second, more⟩, hsecond, hend⟩ := Option.bind_eq_some_iff.mp hmore
    obtain ⟨rfl, hs⟩ := name?_eq_some hsecond
    obtain ⟨rest, hclose, hp⟩ := Option.bind_eq_some_iff.mp hend
    obtain rfl := after?_eq_some hclose
    obtain ⟨rfl, rfl⟩ := Prod.mk.inj (Option.some.inj hp)
    exact ⟨_, .member hf hs, by simp⟩
  · obtain ⟨rest, hclose, hp⟩ := Option.bind_eq_some_iff.mp hmore
    obtain rfl := after?_eq_some hclose
    obtain ⟨rfl, rfl⟩ := Prod.mk.inj (Option.some.inj hp)
    exact ⟨_, .field hf, by simp⟩

theorem readSignature?_eq_some (h : readSignature? cs = some (p, rest)) :
    ∃ w, Word w p ∧ cs = w ++ rest := by
  obtain ⟨inner, hlead, hdigits⟩ := Option.bind_eq_some_iff.mp h
  obtain rfl := after?_eq_some hlead
  dsimp only at hdigits
  split at hdigits
  · cases hdigits
  · rename_i hne
    obtain ⟨rest, hclose, hp⟩ := Option.bind_eq_some_iff.mp hdigits
    obtain ⟨rfl, rfl⟩ := Prod.mk.inj (Option.some.inj hp)
    have hmap := Text.map_digitValue? fun c (hc : c ∈ inner.takeWhile Text.isDigit) =>
      List.mem_takeWhile_imp hc
    refine ⟨_, .signature (fun hnil => hne ?_) hmap, ?_⟩
    · rw [hnil]
      rfl
    · rw [List.append_assoc, List.append_assoc, ← after?_eq_some hclose,
        List.takeWhile_append_dropWhile]

theorem readField?_field {name : String} (h : NameShape name) :
    readField? (fieldLead ++ name.toList ++ closing ++ rest) = some (.field name, rest) := by
  have hname := name?_append h (closing ++ rest) ⟨rfl, rfl⟩
  rw [List.append_assoc, List.append_assoc, readField?, after?_append]
  simp only [Option.bind_eq_bind, Option.bind_some, hname]
  rw [String.ofList_toList]
  exact congrArg (Option.map _) (after?_append closing rest)

theorem readField?_member {group name : String} (hg : NameShape group) (hn : NameShape name) :
    readField? (fieldLead ++ group.toList ++ '.' :: (name.toList ++ closing) ++ rest) =
      some (.member group name, rest) := by
  have hgroup := name?_append hg ('.' :: (name.toList ++ (closing ++ rest))) ⟨rfl, rfl⟩
  have hname := name?_append hn (closing ++ rest) ⟨rfl, rfl⟩
  have hclose := after?_append closing rest
  rw [List.append_assoc, List.append_assoc, List.cons_append, List.append_assoc, readField?,
    after?_append]
  simp [hgroup, hname, hclose]

theorem readSignature?_append {digits : List Nat} (hne : cs ≠ [])
    (h : cs.map Text.digitValue? = digits.map some) (rest : List Char) :
    readSignature? (signatureLead ++ cs ++ closing ++ rest) = some (.signature digits, rest) := by
  have hdigit : ∀ c ∈ cs, Text.isDigit c = true := by
    intro c hc
    have hmem : Text.digitValue? c ∈ digits.map some := h ▸ List.mem_map_of_mem hc
    obtain ⟨n, -, hn⟩ := List.mem_map.mp hmem
    exact Text.isDigit_iff.mpr ⟨n, hn.symm⟩
  have htake : (cs ++ (closing ++ rest)).takeWhile Text.isDigit = cs := by
    rw [List.takeWhile_append_of_pos hdigit]
    exact List.append_nil cs
  have hdrop : (cs ++ (closing ++ rest)).dropWhile Text.isDigit = closing ++ rest := by
    rw [List.dropWhile_append_of_pos hdigit]
    rfl
  have hvalues : cs.filterMap Text.digitValue? = digits := by
    have hid := congrArg (List.filterMap id) h
    simpa [List.filterMap_map] using hid
  have hsome : digits.isEmpty = false := by
    cases digits with
    | nil => exact absurd (List.map_eq_nil_iff.mp h) hne
    | cons => rfl
  rw [List.append_assoc, List.append_assoc, readSignature?, after?_append]
  simp only [Option.bind_eq_bind, Option.bind_some, htake, hdrop, hvalues, hsome]
  exact congrArg (Option.map _) (after?_append closing rest)

theorem read?_append (h : Word w p) (rest : List Char) : read? (w ++ rest) = some (p, rest) := by
  cases h with
  | field h =>
    rw [read?, readField?_field h]
    rfl
  | member hg hn =>
    rw [read?, readField?_member hg hn]
    rfl
  | signatures =>
    have hfield : readField? (signaturesToken ++ rest) = none := rfl
    rw [read?, hfield, readSignatures?, after?_append]
    rfl
  | signature hne h =>
    have hread := readSignature?_append hne h rest
    have hfield (cs : List Char) : readField? (signatureLead ++ cs) = none := rfl
    have hall (cs : List Char) : readSignatures? (signatureLead ++ cs) = none := rfl
    simp only [List.append_assoc] at hread ⊢
    rw [read?, hfield, hall, hread]
    rfl

/-- A token is read exactly where a word stands. -/
theorem read?_eq_some : read? cs = some (p, rest) ↔ ∃ w, Word w p ∧ cs = w ++ rest := by
  constructor
  · intro h
    simp only [read?, Option.orElse_eq_or, Option.or_eq_some_iff] at h
    rcases h with hf | ⟨-, hs | ⟨-, hs⟩⟩
    · exact readField?_eq_some hf
    · obtain ⟨rest, hafter, hp⟩ := Option.map_eq_some_iff.mp hs
      obtain ⟨rfl, rfl⟩ := Prod.mk.inj hp
      exact ⟨_, .signatures, after?_eq_some hafter⟩
    · exact readSignature?_eq_some hs
  · rintro ⟨w, hw, rfl⟩
    exact read?_append hw rest

/-! ### Words -/

/-- A text without curly braces. -/
def BraceFree (cs : List Char) : Prop := ∀ c ∈ cs, c ≠ '\x7b' ∧ c ≠ '\x7d'

instance (cs : List Char) : Decidable (BraceFree cs) :=
  List.decidableBAll (fun c => c ≠ '\x7b' ∧ c ≠ '\x7d') cs

theorem braceFree_append (ha : BraceFree a) (hb : BraceFree b) : BraceFree (a ++ b) := by
  intro c hc
  rcases List.mem_append.mp hc with hc | hc
  · exact ha c hc
  · exact hb c hc

theorem not_mem_name {name : String} {d : Char} (h : NameShape name)
    (hd : ¬ ('a' ≤ d ∧ d ≤ 'z' ∨ '0' ≤ d ∧ d ≤ '9' ∨ d = '_')) : d ∉ name.toList := by
  obtain ⟨c, cs, hs, hc, hcs⟩ := h
  rw [hs]
  intro hmem
  rcases List.mem_cons.mp hmem with rfl | hmem
  · exact hd (.inl hc)
  · exact hd (hcs d hmem)

theorem not_mem_digits {digits : List Nat} {d : Char}
    (h : cs.map Text.digitValue? = digits.map some) (hd : Text.digitValue? d = none) : d ∉ cs := by
  intro hmem
  have hvalue : Text.digitValue? d ∈ digits.map some := h ▸ List.mem_map_of_mem hmem
  obtain ⟨n, -, hn⟩ := List.mem_map.mp hvalue
  rw [hd] at hn
  cases hn

theorem braceFree_of_not_mem (hopen : '\x7b' ∉ cs) (hclose : '\x7d' ∉ cs) : BraceFree cs := by
  intro c hc
  constructor
  · rintro rfl
    exact hopen hc
  · rintro rfl
    exact hclose hc

theorem braceFree_name {name : String} (h : NameShape name) : BraceFree name.toList :=
  braceFree_of_not_mem (not_mem_name h (by decide)) (not_mem_name h (by decide))

theorem braceFree_digits {digits : List Nat} (h : cs.map Text.digitValue? = digits.map some) :
    BraceFree cs :=
  braceFree_of_not_mem (not_mem_digits h (by decide)) (not_mem_digits h (by decide))

/-- A word has braces at its two ends only, and a character between them. -/
theorem Word.braced (h : Word w p) : ∃ c inner,
    w = '\x7b' :: '\x7b' :: c :: (inner ++ closing) ∧ BraceFree (c :: inner) := by
  have hlead : BraceFree "document.values.".toList := by decide
  cases h with
  | @field name h =>
    exact ⟨'d', "ocument.values.".toList ++ name.toList, rfl,
      braceFree_append hlead (braceFree_name h)⟩
  | @member group name hg hn =>
    refine ⟨'d', "ocument.values.".toList ++ (group.toList ++ '.' :: name.toList), ?_, ?_⟩
    · rw [List.append_assoc, List.append_assoc, List.append_assoc]
      rfl
    · have hdot : BraceFree ['.'] := by decide
      exact braceFree_append hlead (braceFree_append (braceFree_name hg)
        (braceFree_append hdot (braceFree_name hn)))
  | signatures => exact ⟨'s', "ignatures".toList, rfl, by decide⟩
  | @signature cs digits hne h =>
    have hlead : BraceFree "signature_".toList := by decide
    exact ⟨'s', "ignature_".toList ++ cs, rfl, braceFree_append hlead (braceFree_digits h)⟩

theorem Word.ne_nil (h : Word w p) : w ≠ [] := by
  obtain ⟨c, inner, rfl, -⟩ := h.braced
  simp

/-- One word can stand at a place. -/
theorem Word.unique (h : Word w p) (h' : Word w' p') (heq : w ++ rest = w' ++ b) :
    w = w' ∧ p = p' ∧ rest = b := by
  have hread := read?_append h rest
  rw [heq, read?_append h' b] at hread
  obtain ⟨rfl, rfl⟩ := Prod.mk.inj (Option.some.inj hread)
  exact ⟨List.append_cancel_right heq, rfl, rfl⟩

theorem Word.functional (h : Word w p) (h' : Word w p') : p = p' := by
  have hread := read?_append h []
  rw [read?_append h' []] at hread
  exact (Prod.mk.inj (Option.some.inj hread)).1.symm

theorem Word.digits_le {digits : List Nat} (h : Word w (.signature digits)) :
    digits.length ≤ w.length := by
  generalize hp : Placeholder.signature digits = p at h
  cases h with
  | field => cases hp
  | member => cases hp
  | signatures => cases hp
  | signature hne h =>
    obtain rfl := Placeholder.signature.inj hp
    have hlen := congrArg List.length h
    rw [List.length_map, List.length_map] at hlen
    rw [List.length_append, List.length_append]
    omega

/-- The field, of a group if one is given, that a token refers to. -/
def ofNames (group : Option String) (name : String) : Placeholder :=
  match group with
  | none => .field name
  | some group => .member group name

theorem word_fieldToken {group : Option String} {name : String} (hn : isName name = true)
    (hg : ∀ g ∈ group, isName g = true) : Word (fieldToken group name).toList (ofNames group name) := by
  have hname := nameShape_of_isName hn
  cases group with
  | none =>
    rw [fieldToken, String.toList_ofList]
    exact .field hname
  | some group =>
    have hgroup := nameShape_of_isName (hg group rfl)
    have hword := Word.member hgroup hname
    rw [fieldToken, String.toList_ofList]
    simpa [ofNames] using hword

/-- No word begins inside another one. -/
theorem Word.apart (h : Word w p) (h' : Word w' p') (heq : w ++ rest = a ++ (w' ++ b))
    (hne : a ≠ []) : ∃ more, a = w ++ more := by
  obtain ⟨c, inner, rfl, hfree⟩ := h.braced
  obtain ⟨c', inner', rfl, -⟩ := h'.braced
  rcases List.append_eq_append_iff.mp heq with ⟨more, ha, -⟩ | ⟨tail, hw, htail⟩
  · exact ⟨more, ha⟩
  cases tail with
  | nil => exact ⟨[], by rw [hw, List.append_nil, List.append_nil]⟩
  | cons d tail =>
    -- the second word would begin with a brace after the first character of the first word
    exfalso
    obtain ⟨rfl, hsecond⟩ := List.cons.inj htail
    match a, hne with
    | [_], _ =>
      obtain ⟨-, hw⟩ := List.cons.inj hw
      obtain ⟨-, rfl⟩ := List.cons.inj hw
      obtain ⟨rfl, -⟩ := List.cons.inj hsecond
      exact (hfree _ (List.mem_cons_self ..)).1 rfl
    | _ :: _ :: a, _ =>
      obtain ⟨-, hw⟩ := List.cons.inj hw
      obtain ⟨-, hw⟩ := List.cons.inj hw
      have hmem : '\x7b' ∈ c :: inner ++ closing := by
        rw [List.cons_append, hw]
        simp
      rcases List.mem_append.mp hmem with hmem | hmem
      · exact (hfree _ hmem).1 rfl
      · revert hmem
        decide

end Placeholder
end DocForms
