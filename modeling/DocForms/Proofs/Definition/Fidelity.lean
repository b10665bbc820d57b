import DocForms.Definition.Shipped
import DocForms.Proofs.Definition.Passes
import Mathlib.Data.List.Forall2

/-! When loading comes to types, they are those of the files in the order of the names, and the form
of each is the one that its file describes. -/
namespace DocForms.Definition
variable {formats : Formats} {strict : Bool} {r : Registry} {files : List File}

/-! ### The order of files -/

theorem inNameOrder_perm (files : List File) : (inNameOrder files).Perm files :=
  List.mergeSort_perm ..

theorem inNameOrder_sorted (files : List File) :
    (inNameOrder files).Pairwise fun a b => a.name ≤ b.name := by
  refine (List.pairwise_mergeSort ?_ ?_ files).imp fun h => of_decide_eq_true h
  · intro a b c hab hbc
    exact decide_eq_true (String.le_trans (of_decide_eq_true hab) (of_decide_eq_true hbc))
  · intro a b
    simpa using String.le_total a.name b.name

theorem inNameOrder_of_sorted (h : files.Pairwise fun a b => a.name ≤ b.name) :
    inNameOrder files = files :=
  List.mergeSort_of_pairwise (h.imp fun hle => decide_eq_true hle)

/-! ### What is registered -/

/-- The types that loading comes to, with their forms, are those of the definitions. -/
theorem loaded_faithful (formats : Formats) (files : List File) (n : Nat)
    {types : List DocumentType} {w : Workspace}
    (h : (load formats true (inNameOrder files)).run.run { ids := { count := n } } =
      (.ok types, w)) :
    w.registry.Consistent ∧ w.registry.types = types ∧ ∃ ordered : List File,
      ordered.Perm files ∧ ordered.Pairwise (fun a b => a.name ≤ b.name) ∧
        List.Forall₂ (Shows true w.registry types) ordered types := by
  rcases load_cases formats true (inNameOrder files) n with
    ⟨defined, lines, w', first, -, hloaded, -, hrun⟩ | ⟨m, w', -, hrun⟩
  · rw [hrun] at h
    obtain ⟨houtcome, rfl⟩ := Prod.mk.inj h
    split at houtcome
    · rename_i hnone
      obtain rfl := Except.ok.inj houtcome
      obtain ⟨first, second, hfirst, hsecond, hlines⟩ := hloaded.passes
      obtain ⟨rfl, rfl⟩ := List.append_eq_nil_iff.mp (hlines.symm.trans hnone)
      obtain ⟨htypes, hforms⟩ := hsecond.all_kept
      refine ⟨hloaded.consistent, rfl, inNameOrder files, inNameOrder_perm files,
        inNameOrder_sorted files, ?_⟩
      have hshown : ∀ p ∈ defined, Shows true w'.registry w'.registry.types p.1 p.2 := by
        intro p hp
        obtain ⟨raw, hraw, -, htype⟩ := hfirst.described p hp
        obtain ⟨raw', form, hraw', hform, hof, hmembers⟩ := hforms p hp
        obtain rfl := Except.ok.inj (hraw.symm.trans hraw')
        exact ⟨raw, form, hraw, htype, hform, hof, hmembers⟩
      have hall : List.Forall₂ (Shows true w'.registry w'.registry.types)
          (defined.map Prod.fst) (defined.map Prod.snd) := by
        rw [List.forall₂_map_left_iff, List.forall₂_map_right_iff, List.forall₂_same]
        exact hshown
      rwa [← hfirst.files_eq, ← htypes] at hall
    · cases houtcome
  · rw [hrun] at h
    cases congrArg Prod.fst h

theorem shipped_sorted : inNameOrder shipped = shipped := inNameOrder_of_sorted (by simp [shipped])

/-- The shipped definitions are loaded like this. -/
theorem loaded_faithful_shipped : ∃ types,
    (load Definition.formats true (inNameOrder shipped)).run.run { ids := { count := 0 } } =
      (.ok types, shippedWorkspace) ∧
    types.map (·.code) = ["INVOICE", "PURCHASE_ORDER"] ∧
    shippedWorkspace.registry.Consistent ∧ shippedWorkspace.registry.types = types ∧
    ∃ ordered : List File, ordered.Perm shipped ∧ ordered.Pairwise (fun a b => a.name ≤ b.name) ∧
      List.Forall₂ (Shows true shippedWorkspace.registry types) ordered types := by
  have hcodes : ((load Definition.formats true shipped).run.run {}).1.map (·.map (·.code)) =
      .ok ["INVOICE", "PURCHASE_ORDER"] := by decide +kernel
  rcases hrun : (load Definition.formats true shipped).run.run {} with ⟨e | types, w⟩
  · rw [hrun] at hcodes
    cases hcodes
  · have hload : (load Definition.formats true (inNameOrder shipped)).run.run
        { ids := { count := 0 } } = (.ok types, shippedWorkspace) := by
      rw [shipped_sorted, shippedWorkspace, hrun]
    rw [hrun] at hcodes
    exact ⟨types, hload, Except.ok.inj hcodes, loaded_faithful Definition.formats shipped 0 hload⟩

/-- An entry of a link field with options of its own. -/
def linkWithOptions : Entries := Entries.ofNames [("name", .text "ref"), ("label", .text "Ref"),
  ("type", .text "document_link"), ("options", .named [("linkType", .text "parent")])]

/-- A definition with nothing but this field. -/
def fileWithLink : File := ⟨"a.yml", .ok (Entries.ofNames [("code", .text "A"), ("name", .text "A"),
  ("fields", .list [.record linkWithOptions])])⟩

/-- The form that it is loaded to. -/
def formWithLink : Form where
  type := { id := "id-1", name := "A", code := "A" }
  fields := [{
    id := "id-2", typeId := "id-1", name := "ref", label := "Ref", kind := .documentLink
    options := some (.link { linkType := .reference }) }]

/-- The options of a link field come from its target code and its relation. Options of its own are
not read. -/
theorem link_options_not_own : ∃ w,
    (load Definition.formats true (inNameOrder [fileWithLink])).run.run { ids := { count := 0 } } =
      (.ok [formWithLink.type], w) ∧
    w.registry.getForm "id-1" = .ok formWithLink ∧
    Options.parse .documentLink (Entries.get linkWithOptions "options") (some "ref") =
      .ok (some (.link { linkType := .parent })) ∧
    formWithLink.fields.map (·.options) = [some (.link { linkType := .reference })] := by
  have hsorted : inNameOrder [fileWithLink] = [fileWithLink] := inNameOrder_of_sorted (by simp)
  have hcome : ((load Definition.formats true [fileWithLink]).run.run {}).1 =
      .ok [formWithLink.type] := by decide +kernel
  have hform : ((load Definition.formats true [fileWithLink]).run.run {}).2.registry.getForm
      "id-1" = .ok formWithLink := by decide +kernel
  rw [hsorted]
  exact ⟨_, Prod.ext hcome rfl, hform, by decide +kernel, rfl⟩

end DocForms.Definition
