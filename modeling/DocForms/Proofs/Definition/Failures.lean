import DocForms.Proofs.Definition.Endings
import DocForms.Proofs.Definition.Targets

/-! How loading ends: with all types, or with a line for each file that failed. In both cases every
registered type has all of its members. -/
namespace DocForms.Definition
variable {strict : Bool} {r : Registry} {files : List File} {lines : List String}
  {defined : List (File × DocumentType)}

/-! ### Files without a type -/

theorem Defined.settled {formats : Formats} (h : Defined formats files defined lines) :
    ∀ f ∈ files, (∃ t, (f, t) ∈ defined) ∨ ∃ message, f.problem message ∈ lines := by
  induction h with
  | nil => simp
  | @defined f files raw t types lines content check describes rest ih =>
    refine List.forall_mem_cons.mpr ⟨.inl ⟨t, List.mem_cons_self ..⟩, fun g hg => ?_⟩
    rcases ih g hg with ⟨u, hu⟩ | hline
    · exact .inl ⟨u, List.mem_cons_of_mem _ hu⟩
    · exact .inr hline
  | @refused f files types lines messages some rest ih =>
    refine List.forall_mem_cons.mpr ⟨.inr ?_, fun g hg => ?_⟩
    · obtain ⟨message, hmessage⟩ := List.exists_mem_of_ne_nil messages some
      exact ⟨message, List.mem_append_left _ (List.mem_map_of_mem hmessage)⟩
    · rcases ih g hg with hdefined | ⟨message, hline⟩
      · exact .inl hdefined
      · exact .inr ⟨message, List.mem_append_right _ hline⟩

theorem Completed.settled {before types : List DocumentType} {more : List (File × DocumentType)}
    (h : Completed strict r before more types lines) :
    ∀ p ∈ more, p.2 ∈ types ∨ ∃ message, p.1.problem message ∈ lines := by
  induction h with
  | nil => simp
  | kept content registered type describes rest ih =>
    refine List.forall_mem_cons.mpr ⟨.inl (List.mem_cons_self ..), fun p hp => ?_⟩
    rcases ih p hp with hkept | hline
    · exact .inl (List.mem_cons_of_mem _ hkept)
    · exact .inr hline
  | dropped reason rest ih =>
    refine List.forall_mem_cons.mpr ⟨.inr ⟨_, List.mem_cons_self ..⟩, fun p hp => ?_⟩
    rcases ih p hp with hkept | ⟨message, hline⟩
    · exact .inl hkept
    · exact .inr ⟨message, List.mem_cons_of_mem _ hline⟩

/-- A file is registered with all of its members, or it has a line. -/
theorem Loaded.settled {formats : Formats} (h : Loaded formats strict files r defined lines) :
    ∀ f ∈ files, (∃ t ∈ r.types, ∃ known, Shows strict r known f t) ∨
      ∃ message, f.problem message ∈ lines := by
  obtain ⟨first, second, hfirst, hsecond, rfl⟩ := h.passes
  intro f hf
  rcases hfirst.settled f hf with ⟨t, ht⟩ | ⟨message, hline⟩
  · rcases hsecond.settled (f, t) ht with hkept | ⟨message, hline⟩
    · obtain ⟨g, earlier, later, complete, rfl, -, hshows⟩ := h.shown hkept
      have hids := h.defining.identified.types
      rw [List.map_map] at hids
      obtain ⟨rfl, -⟩ := Prod.mk.inj
        (List.inj_on_of_nodup_map hids ht (y := (g, t)) (by simp) rfl)
      exact .inl ⟨t, hkept, _, hshows⟩
    · exact .inr ⟨message, List.mem_append_right _ hline⟩
  · exact .inr ⟨message, List.mem_append_left _ hline⟩

/-! ### The end of loading -/

/-- Loading ends if the payloads of fields are read or refused. When it ends, there is no other
outcome than the registered types and a line for each file that is not registered, and each
registered type has all members of its file. -/
theorem load_ends_cleanly (strict : Bool) (files : List File) (n : Nat) :
    let outcome := ((load formats strict files).run.run { ids := { count := n } }).1
    let r := ((load formats strict files).run.run { ids := { count := n } }).2.registry
    ((∀ f ∈ files, f.Payable) → Graceful outcome) ∧ (Graceful outcome →
      (∀ t ∈ r.types, ∃ f ∈ files, ∃ known, Shows strict r known f t) ∧
      (outcome = .ok r.types ∧ (∀ f ∈ files, ∃ t ∈ r.types, ∃ known, Shows strict r known f t) ∨
        ∃ lines, lines ≠ [] ∧ outcome = .error (.refused (.definitions lines)) ∧
          ∀ f ∈ files, (∃ t ∈ r.types, ∃ known, Shows strict r known f t) ∨
            ∃ message, f.problem message ∈ lines)) := by
  dsimp only
  rcases load_cases formats strict files n with
    ⟨defined, lines, w, first, w', hloaded, -, hrun⟩ | ⟨m, w, ⟨f, hf, hsticks⟩, hrun⟩
  · rw [hrun]
    refine ⟨fun _ => ?_, fun _ => ⟨fun t ht => ?_, ?_⟩⟩
    · split
      · exact graceful_ok _
      · exact graceful_refuse _
    · obtain ⟨f, earlier, later, complete, rfl, -, hshows⟩ := hloaded.shown ht
      obtain ⟨first, second, hfirst, -⟩ := hloaded.passes
      exact ⟨f, hfirst.sublist.subset (by simp), _, hshows⟩
    · have hsettled := hloaded.settled
      split
      · rename_i hnone
        subst hnone
        refine .inl ⟨rfl, fun f hf => ?_⟩
        rcases hsettled f hf with hshown | ⟨message, hline⟩
        · exact hshown
        · cases hline
      · rename_i hsome
        exact .inr ⟨lines, hsome, rfl, hsettled⟩
  · rw [hrun]
    exact ⟨fun hall => absurd hsticks (hall f hf).not_sticks, fun hends => absurd rfl (hends m)⟩

/-! ### Files that fail, and files that stick -/

/-- The one field of a definition. -/
theorem hasEntry_single {code name : Value} {es es' : Entries}
    (h : HasEntry (Entries.ofNames [("code", code), ("name", name),
      ("fields", .list [.record es])]) es') : es' = es := by
  cases h with
  | alone fields listed =>
    obtain rfl := Except.ok.inj fields
    exact Value.record.inj (List.mem_singleton.mp listed)
  | grouped groups listedGroup =>
    obtain rfl := Except.ok.inj groups
    cases listedGroup

theorem referring_payable (name : String) : (referring name).Payable where
  content := graceful_ok _
  texts raw h := by
    obtain rfl := Except.ok.inj h
    rfl
  fields raw es h hentry := by
    obtain rfl := Except.ok.inj h
    obtain rfl := hasEntry_single hentry
    refine ⟨fun kind hkind hlink => ?_, fun field => graceful_ok _⟩
    have hlinks : (Value.text "document_link").orElse (.text FieldKind.text.name) =
        .text kind.name := hkind
    exact absurd ((isLink_iff hlinks).mp rfl) hlink

theorem failing_payable (name : String) : (failing name).Payable where
  content := graceful_ok _
  texts raw h := by
    obtain rfl := Except.ok.inj h
    rfl
  fields raw es h hentry := by
    obtain rfl := Except.ok.inj h
    obtain rfl := hasEntry_single hentry
    refine ⟨fun kind hkind _ field => ?_, fun field => graceful_ok _⟩
    have hread : Json.read "not json" = .error ⟨.expectingValue, 8⟩ := by decide +kernel
    have hblank : Text.isBlankText "not json" = false := by decide +kernel
    have hdecode : decodePayload (.optionsNotJson field) (.text "not json") =
        refuse (.optionsNotJson field .expectingValue) := by
      rw [decodePayload, hblank, hread]
      rfl
    show Graceful (decodePayload (.optionsNotJson field) (.text "not json") >>= _)
    rw [hdecode]
    exact graceful_refuse _

/-- A definition that fails after all types have been defined. -/
theorem load_ends_cleanly_failing :
    let files := [referring "a.yml", failing "b.yml"]
    let outcome := ((load formats true files).run.run { ids := { count := 0 } }).1
    let r := ((load formats true files).run.run { ids := { count := 0 } }).2.registry
    (∀ f ∈ files, f.Payable) ∧ Graceful outcome ∧ r.types.map (·.code) = ["A"] ∧
      ∀ t ∈ r.types, ∃ f ∈ files, ∃ known, Shows true r known f t := by
  dsimp only
  have hpayable : ∀ f ∈ [referring "a.yml", failing "b.yml"], f.Payable := by
    simpa using ⟨referring_payable "a.yml", failing_payable "b.yml"⟩
  obtain ⟨hends, hclean⟩ := load_ends_cleanly true [referring "a.yml", failing "b.yml"] 0
  exact ⟨hpayable, hends hpayable, by decide +kernel, (hclean (hends hpayable)).1⟩

/-- A field with a day for options. -/
def datedEntry : Entries := Entries.ofNames [("name", .text "day"), ("label", .text "Day"),
  ("type", .text "text"), ("options", .date ⟨2020, 1, 1, by decide⟩)]

/-- A definition with nothing but this field. -/
def datedRaw : Entries := Entries.ofNames [("code", .text "A"), ("name", .text "A"),
  ("fields", .list [.record datedEntry])]

/-- Loading does not end in a refusal where the options have no canonical form, and the type stays
without its field. -/
theorem dated_options_stick : problems formats datedRaw = .ok [] ∧ ∃ w,
    (load formats true [⟨"a.yml", .ok datedRaw⟩]).run.run { ids := { count := 0 } } =
      (.error (.misuse .operand), w) ∧
    w.registry.types.map (·.code) = ["A"] ∧ w.registry.fields = [] := by
  refine ⟨?_, _, Prod.ext ?_ rfl, ?_, ?_⟩
  · decide +kernel
  · decide +kernel
  · decide +kernel
  · decide +kernel

end DocForms.Definition
