import DocForms.Proofs.Definition.Endings
import DocForms.Proofs.Pattern.Lines
import DocForms.Proofs.Value.Entries

/-! What a clean check says of a definition: it has the right shape, no name occurs twice, no group
has the name of a field, and no group has a lower bound above the upper one. The check compares names
as they are written, where a line break may follow a name. -/
namespace DocForms.Definition
variable {raw es : Entries} {vs : List Value}

/-! ### The steps of the check -/

theorem exists_of_forall₂ {α β : Type} {R : α → β → Prop} {as : List α} {bs : List β}
    (h : List.Forall₂ R as bs) {a : α} (ha : a ∈ as) : ∃ b ∈ bs, R a b := by
  induction h with
  | nil => cases ha
  | cons hfirst _ ih =>
    rcases List.mem_cons.mp ha with rfl | ha
    · exact ⟨_, List.mem_cons_self .., hfirst⟩
    · obtain ⟨b, hb, hR⟩ := ih ha
      exact ⟨b, List.mem_cons_of_mem _ hb, hR⟩

/-- What the check has gone through when it finds nothing. -/
structure Passed (raw : Entries) (fs gs groupEntries : List Value) : Prop where
  shape : Definition.shape.Meets (.record raw)
  fields : fieldNames raw = .ok fs
  groups : groupNames raw = .ok gs
  entries : members raw "groups" = .ok groupEntries
  duplicates : duplicateProblem fs = .ok []
  clashes : clashProblem gs fs = .ok []
  twice : (distinct gs).length = gs.length
  bounds : ∀ g ∈ groupEntries, boundsProblem g = .ok []

theorem passed_of_problems (h : problems formats raw = .ok []) :
    ∃ fs gs entries, Passed raw fs gs entries := by
  obtain ⟨problem, hshape, h⟩ := bind_eq_ok.mp h
  cases problem with
  | some p => cases pure_eq_ok.mp h
  | none =>
    simp only [bind_eq_ok, pure_eq_ok, List.append_eq_nil_iff] at h
    obtain ⟨fs, hfields, duplicates, hduplicates, gs, hgroups, clashes, hclashes, entries, hentries,
      bounds, hbounds, ⟨⟨rfl, rfl⟩, htwice⟩, hflat⟩ := h
    refine ⟨fs, gs, entries, meets_of_shape hshape, hfields, hgroups, hentries, hduplicates,
      hclashes, ?_, fun g hg => ?_⟩
    · by_contra hne
      rw [if_neg hne] at htwice
      cases htwice
    · obtain ⟨bound, hmem, hbound⟩ := exists_of_forall₂ (mapM_eq_ok_forall₂.mp hbounds) hg
      rw [hbound, List.flatten_eq_nil_iff.mp hflat bound hmem]

/-! ### Names -/

theorem same_text_self (s : String) : (Value.text s).same (.text s) = true :=
  Value.same_text_iff.mpr rfl

theorem Texts.same_iff {v w : Value} (hv : Texts vs) (hw : w ∈ vs) : v.same w = true ↔ v = w := by
  obtain ⟨s, rfl⟩ := hv w hw
  exact Value.same_text_iff

theorem distinct_sublist (vs : List Value) : (distinct vs).Sublist vs := by
  induction vs with
  | nil => exact .slnil
  | cons v vs ih => exact (List.filter_sublist.trans ih).cons_cons v

theorem distinct_eq_nil : distinct vs = [] ↔ vs = [] := by
  cases vs <;> simp [distinct]

/-- Texts that are all kept as different ones differ. -/
theorem nodup_of_distinct (ht : Texts vs) (h : (distinct vs).length = vs.length) : vs.Nodup := by
  induction vs with
  | nil => exact List.nodup_nil
  | cons v vs ih =>
    obtain ⟨-, hrest⟩ := List.forall_mem_cons.mp ht
    have hle := (distinct_sublist vs).length_le
    have hfilter := List.length_filter_le (fun w => !w.same v) (distinct vs)
    rw [distinct, List.length_cons, List.length_cons] at h
    have hvs : distinct vs = vs := (distinct_sublist vs).eq_of_length (by omega)
    refine List.nodup_cons.mpr ⟨fun hv => ?_, ih hrest (by rw [hvs])⟩
    have hkept : vs.filter (fun w => !w.same v) = vs := by
      rw [hvs] at h hfilter
      exact List.filter_sublist.eq_of_length (by omega)
    have hv' := List.filter_eq_self.mp hkept v hv
    obtain ⟨s, rfl⟩ := hrest v hv
    simp [same_text_self] at hv'

/-- Texts of which none is counted twice differ. -/
theorem nodup_of_countP (ht : Texts vs) (h : ∀ v ∈ vs, vs.countP (·.same v) ≤ 1) : vs.Nodup := by
  induction vs with
  | nil => exact List.nodup_nil
  | cons v vs ih =>
    obtain ⟨⟨s, rfl⟩, hrest⟩ := List.forall_mem_cons.mp ht
    refine List.nodup_cons.mpr ⟨fun hv => ?_, ih hrest fun w hw => ?_⟩
    · have hself := h _ (List.mem_cons_self ..)
      have hpos : 0 < vs.countP (·.same (.text s)) :=
        List.countP_pos_iff.mpr ⟨_, hv, same_text_self s⟩
      rw [List.countP_cons, if_pos (same_text_self s)] at hself
      omega
    · have hle := h w (List.mem_cons_of_mem _ hw)
      rw [List.countP_cons] at hle
      omega

theorem nodup_of_duplicates (ht : Texts vs) (h : duplicateProblem vs = .ok []) : vs.Nodup := by
  obtain ⟨-, -, h⟩ := bind_eq_ok.mp h
  split at h
  · rename_i hnone
    have hnone := distinct_eq_nil.mp (List.isEmpty_iff.mp hnone)
    refine nodup_of_countP ht fun v hv => ?_
    simpa using List.filter_eq_nil_iff.mp hnone v hv
  · simp only [bind_eq_ok, pure_eq_ok] at h
    obtain ⟨_, -, _, -, h⟩ := h
    cases h

theorem disjoint_of_clashes {groups fields : List Value} (ht : Texts fields)
    (h : clashProblem groups fields = .ok []) : ∀ g ∈ groups, g ∉ fields := by
  obtain ⟨-, -, h⟩ := bind_eq_ok.mp h
  dsimp only at h
  split at h
  · rename_i hnone
    have hnone := distinct_eq_nil.mp (List.isEmpty_iff.mp hnone)
    intro g hg hfield
    refine List.filter_eq_nil_iff.mp hnone g hg (List.any_eq_true.mpr ⟨g, hfield, ?_⟩)
    exact (ht.same_iff hfield).mpr rfl
  · simp only [bind_eq_ok, pure_eq_ok] at h
    obtain ⟨_, -, _, -, h⟩ := h
    cases h

/-! ### Names of entries -/

/-- The name that an entry gives, once it is trimmed. -/
def nameOf (v : Value) : String := ((v.field "name" >>= Value.trimmed).toOption).getD ""

/-- The entries of the fields of a group. -/
def fieldsIn (v : Value) : List Value := ((v.entries >>= (members · "fields")).toOption).getD []

/-- A text once it is trimmed. -/
def trimmedText (v : Value) : String := v.trimmed.toOption.getD ""

theorem trimmed_text (s : String) : (Value.text s).trimmed = .ok (Text.trim s) := by
  have hsame : (Value.text s).orElse (.text "") = .text s := by
    rw [Value.orElse]
    split
    · rfl
    · rename_i hempty
      obtain rfl : s = "" := by simpa [Value.isTruthy] using hempty
      rfl
  rw [Value.trimmed, hsame]

theorem nameOf_of_trimmed {n : String} (h : (Entries.get es "name").trimmed = .ok n) :
    nameOf (.record es) = n := by
  show ((Entries.get es "name").trimmed.toOption).getD "" = n
  rw [h]
  rfl

theorem nameOf_record {s : String} (h : Entries.get? es "name" = some (.text s)) :
    nameOf (.record es) = Text.trim s :=
  nameOf_of_trimmed (by rw [get_of_get? h, trimmed_text])

theorem fieldsIn_record (h : members es "fields" = .ok vs) : fieldsIn (.record es) = vs := by
  show ((members es "fields").toOption).getD [] = vs
  rw [h]
  rfl

theorem nameOf_part {v n : Value} (h : part v "name" = .ok n) : nameOf v = trimmedText n := by
  cases v with
  | record es =>
    have hget := part_eq_ok h
    rw [nameOf, trimmedText, ← hget]
    rfl
  | _ => cases h

theorem names_eq {names : List Value} (h : vs.mapM (part · "name") = .ok names) :
    names.map trimmedText = vs.map nameOf := by
  have hall := mapM_eq_ok_forall₂.mp h
  clear h
  induction hall with
  | nil => rfl
  | cons hfirst _ ih => rw [List.map_cons, List.map_cons, ih, nameOf_part hfirst]

theorem fieldNames_eq {names : List Value} (h : fieldNames raw = .ok names) :
    ∃ vs gs, members raw "fields" = .ok vs ∧ members raw "groups" = .ok gs ∧
      names.map trimmedText = (vs ++ gs.flatMap fieldsIn).map nameOf := by
  simp only [fieldNames, bind_eq_ok, pure_eq_ok] at h
  obtain ⟨vs, hvs, top, htop, gs, hgs, inner, hinner, rfl⟩ := h
  refine ⟨vs, gs, hvs, hgs, ?_⟩
  rw [List.map_append, List.map_append, names_eq htop]
  congr 1
  have hall := mapM_eq_ok_forall₂.mp hinner
  clear hinner hgs
  induction hall with
  | nil => rfl
  | @cons g names gs inner hfirst _ ih =>
    obtain ⟨es, hes, hfirst⟩ := bind_eq_ok.mp hfirst
    obtain ⟨fs, hfs, hnames⟩ := bind_eq_ok.mp hfirst
    have hfields : fieldsIn g = fs := by
      cases g with
      | record => exact fieldsIn_record (Except.ok.inj hes ▸ hfs)
      | _ => cases hes
    rw [List.flatten_cons, List.map_append, ih, List.flatMap_cons, List.map_append, hfields,
      names_eq hnames]

/-- Names that are equal when they are trimmed are equal as they are written. -/
def TrimsApart (raw : Entries) : Prop :=
  ∀ fs gs, fieldNames raw = .ok fs → groupNames raw = .ok gs →
    ∀ a ∈ fs ++ gs, ∀ b ∈ fs ++ gs, a.trimmed = b.trimmed → a = b

/-- No two members of a definition that passes have the same name. -/
theorem names_apart (h : problems formats raw = .ok []) (ht : TrimsApart raw) :
    ∃ vs gs, members raw "fields" = .ok vs ∧ members raw "groups" = .ok gs ∧
      ((vs ++ gs.flatMap fieldsIn).map nameOf ++ gs.map nameOf).Nodup := by
  obtain ⟨fs₀, gs₀, groupEntries, hpassed⟩ := passed_of_problems h
  have hadmitted := admitted_of_meets hpassed.shape
  obtain ⟨fs, hfs, hfieldTexts⟩ := fieldNames_ok hadmitted
  obtain rfl : fs = fs₀ := Except.ok.inj (hfs.symm.trans hpassed.fields)
  obtain ⟨gs, hgs, hgroupTexts⟩ := groupNames_ok hadmitted
  obtain rfl : gs = gs₀ := Except.ok.inj (hgs.symm.trans hpassed.groups)
  have hwritten : (fs ++ gs).Nodup := by
    refine List.nodup_append.mpr ⟨nodup_of_duplicates hfieldTexts hpassed.duplicates,
      nodup_of_distinct hgroupTexts hpassed.twice, fun f hf g hg he => ?_⟩
    exact disjoint_of_clashes hfieldTexts hpassed.clashes g hg (he ▸ hf)
  have hall : Texts (fs ++ gs) := List.forall_mem_append.mpr ⟨hfieldTexts, hgroupTexts⟩
  have htrimmed : ((fs ++ gs).map trimmedText).Nodup := by
    refine hwritten.map_on fun a ha b hb he => ht fs gs hfs hgs a ha b hb ?_
    obtain ⟨s, rfl⟩ := hall a ha
    obtain ⟨t, rfl⟩ := hall b hb
    simpa [trimmedText, trimmed_text, Except.toOption] using he
  obtain ⟨vs, entries, hvs, hentries, hfieldNames⟩ := fieldNames_eq hfs
  obtain ⟨entries', hentries', hgroups⟩ := bind_eq_ok.mp hgs
  obtain rfl := Except.ok.inj (hentries.symm.trans hentries')
  refine ⟨vs, entries, hvs, hentries, ?_⟩
  rwa [List.map_append, hfieldNames, names_eq hgroups] at htrimmed

/-! ### Bounds -/

theorem lt_int_iff {a b : Int} : (Number.int a).lt (.int b) = true ↔ a < b := by
  simp [Number.lt, Number.compare?, Number.tier?, Number.parts?, Number.compareParts,
    Int.compare_eq_lt]

/-- Integers that pass as the bounds of a group are in order. -/
theorem le_of_bounds {a b : Int} (h : boundsProblem (.record es) = .ok [])
    (hlow : Entries.get es "min_repeats" = .int a) (hhigh : Entries.get es "max_repeats" = .int b) :
    a ≤ b := by
  obtain ⟨_, hes, h⟩ := bind_eq_ok.mp h
  obtain rfl := Except.ok.inj hes
  rw [hlow, hhigh] at h
  have hbefore : before? (.int b) (.int a) = some ((Number.int b).lt (.int a)) := rfl
  rw [if_neg (by simp [Value.isNull]), hbefore] at h
  cases hlt : (Number.int b).lt (.int a) with
  | false => exact Int.not_lt.mp fun hba => by simp [lt_int_iff.mpr hba] at hlt
  | true =>
    rw [hlt] at h
    simp only [bind_eq_ok, pure_eq_ok] at h
    obtain ⟨_, -, _, -, _, -, _, -, h⟩ := h
    cases h

end DocForms.Definition
