import DocForms.Proofs.Definition.Members

/-! The two passes over definition files. The first one defines the types of the files that pass the
check; the second one completes each type with its members, or deletes it. -/
namespace DocForms.Definition
open Registry (SameBeside)
variable {formats : Formats} {strict : Bool} {w w' : Workspace} {f : File} {files : List File}

/-- The type that a definition gives, under an identifier. -/
def typeOf (r : Registry) (id : String) (raw : Entries) : Except Fault DocumentType := do
  let spec ← typeSpec raw
  r.buildType id (← spec.entries)

/-- A file sticks when what it holds misuses an operation, which no refusal tells. -/
inductive Sticks (formats : Formats) (strict : Bool) (f : File) (m : Misuse) : Prop
  | unreadable (content : f.content = .error (.misuse m))
  | unchecked {raw : Entries} (content : f.content = .ok raw)
      (check : problems formats raw = .error (.misuse m))
  | type {raw : Entries} (content : f.content = .ok raw) (check : problems formats raw = .ok [])
      (r : Registry) (id : String) (type : typeOf r id raw = .error (.misuse m))
  | members {raw : Entries} (content : f.content = .ok raw)
      (check : problems formats raw = .ok []) (w : Workspace) (ready : w.Ready) (t : DocumentType)
      (typeId : String) (known : w.registry.requireType typeId = .ok t)
      (members : ((defineMembers strict typeId raw).run.run w).1 = .error (.misuse m))

/-! ### The first pass -/

/-- What the first pass makes of files: types that definitions describe, and a line for each problem
of the others. -/
inductive Defined (formats : Formats) : List File → List (File × DocumentType) → List String → Prop
  | nil : Defined formats [] [] []
  | defined {f : File} {files : List File} {raw : Entries} {t : DocumentType}
      {types : List (File × DocumentType)} {lines : List String} (content : f.content = .ok raw)
      (check : problems formats raw = .ok []) (describes : DescribesType raw t)
      (rest : Defined formats files types lines) :
      Defined formats (f :: files) ((f, t) :: types) lines
  | refused {f : File} {files : List File} {types : List (File × DocumentType)}
      {lines messages : List String} (some : messages ≠ [])
      (rest : Defined formats files types lines) :
      Defined formats (f :: files) types (messages.map f.problem ++ lines)

namespace Defined
variable {defined : List (File × DocumentType)} {lines : List String}

/-- The types come in the order of their files. -/
theorem sublist (h : Defined formats files defined lines) :
    (defined.map Prod.fst).Sublist files := by
  induction h with
  | nil => exact .slnil
  | defined content check describes rest ih => exact ih.cons_cons _
  | refused some rest ih => exact ih.cons _

theorem described (h : Defined formats files defined lines) :
    ∀ p ∈ defined, ∃ raw, p.1.content = .ok raw ∧ problems formats raw = .ok [] ∧
      DescribesType raw p.2 := by
  induction h with
  | nil => simp
  | defined content check describes rest ih =>
    exact List.forall_mem_cons.mpr ⟨⟨_, content, check, describes⟩, ih⟩
  | refused some rest ih => exact ih

/-- Without a line every file defines a type. -/
theorem files_eq (h : Defined formats files defined []) : files = defined.map Prod.fst := by
  generalize hlines : ([] : List String) = lines at h
  induction h with
  | nil => rfl
  | defined content check describes rest ih => rw [ih hlines, List.map_cons]
  | refused some rest ih => simp [some] at hlines

end Defined

theorem typeOf_describes {r : Registry} {id : String} {raw : Entries} {t : DocumentType}
    (h : typeOf r id raw = .ok t) : DescribesType raw t := by
  obtain ⟨spec, hspec, h⟩ := bind_eq_ok.mp h
  obtain ⟨es, hes, h⟩ := bind_eq_ok.mp h
  obtain ⟨es', rfl, hdescribes⟩ := typeSpec_describes hspec
  obtain rfl := Except.ok.inj hes
  exact hdescribes _ _ _ h

/-- A type that a definition gives comes after all others. -/
theorem run_typeOf (hw : w.Ready) (raw : Entries) :
    let define : Building (Except (List String) DocumentType) := do
      let spec ← Building.plain (typeSpec raw)
      return .ok (← Building.mint (·.defineType spec))
    (∃ t, typeOf w.registry w.nextId raw = .ok t ∧
      define.run.run w =
        (.ok (.ok t), ⟨{ w.registry with types := w.registry.types ++ [t] }, w.nextIds⟩) ∧
      Workspace.Ready ⟨{ w.registry with types := w.registry.types ++ [t] }, w.nextIds⟩) ∨
    ∃ e ids, typeOf w.registry w.nextId raw = .error e ∧
      define.run.run w = (.error e, ⟨w.registry, ids⟩) ∧ Workspace.Ready ⟨w.registry, ids⟩ := by
  dsimp only
  cases hspec : typeSpec raw with
  | error e =>
    refine .inr ⟨e, w.ids, ?_, ?_, hw⟩
    · rw [typeOf, hspec]
      rfl
    · rw [Building.run_bind, Building.run_plain]
  | ok spec =>
    obtain ⟨es, rfl, -⟩ := typeSpec_describes hspec
    have htype : typeOf w.registry w.nextId raw = w.registry.buildType w.nextId es := by
      rw [typeOf, hspec]
      rfl
    rw [htype, Building.run_bind, Building.run_plain]
    simp only [Building.run_bind, Building.run_defineType hw]
    cases ht : w.registry.buildType w.nextId es with
    | error e => exact .inr ⟨e, w.nextIds, rfl, rfl, hw.skip⟩
    | ok t => exact .inl ⟨t, rfl, rfl, hw.addType ht⟩

/-- A file gives a type, or messages, or it sticks. -/
theorem defineType_cases (formats : Formats) (strict : Bool) (hw : w.Ready) (f : File) :
    (∃ raw t, f.content = .ok raw ∧ problems formats raw = .ok [] ∧ DescribesType raw t ∧
      Workspace.Ready ⟨{ w.registry with types := w.registry.types ++ [t] }, w.nextIds⟩ ∧
      (defineType formats f).run.run w =
        (.ok (.ok t), ⟨{ w.registry with types := w.registry.types ++ [t] }, w.nextIds⟩)) ∨
    (∃ messages ids, messages ≠ [] ∧ Workspace.Ready ⟨w.registry, ids⟩ ∧
      (defineType formats f).run.run w =
        (.ok (.error (messages.map f.problem)), ⟨w.registry, ids⟩)) ∨
    ∃ m w', Sticks formats strict f m ∧
      (defineType formats f).run.run w = (.error (.misuse m), w') := by
  unfold defineType
  rw [Building.run_bind, Building.run_attempt, Building.run_bind, Building.run_plain]
  cases hcontent : f.content with
  | error e =>
    cases e with
    | refused r => exact .inr (.inl ⟨[r.message], w.ids, by simp, hw, rfl⟩)
    | misuse m => exact .inr (.inr ⟨m, w, .unreadable hcontent, rfl⟩)
  | ok raw =>
    simp only [Building.run_bind, Building.run_plain]
    cases hcheck : problems formats raw with
    | error e =>
      cases e with
      | refused r => exact .inr (.inl ⟨[r.message], w.ids, by simp, hw, rfl⟩)
      | misuse m => exact .inr (.inr ⟨m, w, .unchecked hcontent hcheck, rfl⟩)
    | ok messages =>
      cases messages with
      | cons p ps => exact .inr (.inl ⟨p :: ps, w.ids, by simp, hw, rfl⟩)
      | nil =>
        rcases run_typeOf hw raw with ⟨t, ht, hrun, hready⟩ | ⟨e, ids, ht, hrun, hready⟩
        · refine .inl ⟨raw, t, rfl, hcheck, typeOf_describes ht, hready, ?_⟩
          simp only [hrun]
          rfl
        · cases e with
          | refused r =>
            refine .inr (.inl ⟨[r.message], ids, by simp, hready, ?_⟩)
            simp only [hrun]
            rfl
          | misuse m =>
            refine .inr (.inr ⟨m, ⟨w.registry, ids⟩, .type hcontent hcheck _ _ ht, ?_⟩)
            simp only [hrun]

/-- The types that the first pass defines come after all others. -/
theorem defineTypes_cases (formats : Formats) (strict : Bool) (hw : w.Ready) (files : List File) :
    (∃ defined lines w', Defined formats files defined lines ∧ Workspace.Ready w' ∧
      w'.registry = { w.registry with types := w.registry.types ++ defined.map Prod.snd } ∧
      (defineTypes formats files).run.run w = (.ok (defined, lines), w')) ∨
    ∃ m w', (∃ f ∈ files, Sticks formats strict f m) ∧
      (defineTypes formats files).run.run w = (.error (.misuse m), w') := by
  induction files generalizing w with
  | nil => exact .inl ⟨[], [], w, .nil, hw, by simp, rfl⟩
  | cons f files ih =>
    rw [defineTypes, Building.run_bind]
    rcases defineType_cases formats strict hw f with
      ⟨raw, t, hcontent, hcheck, hdescribes, hready, hrun⟩ | ⟨messages, ids, hsome, hready, hrun⟩ |
      ⟨m, w', hsticks, hrun⟩
    · rw [hrun]
      rcases ih hready with
        ⟨defined, lines, w', hrest, hready, hregistry, hruns⟩ | ⟨m, w', ⟨g, hg, hsticks⟩, hruns⟩
      · refine .inl ⟨(f, t) :: defined, lines, w', .defined hcontent hcheck hdescribes hrest,
          hready, ?_, ?_⟩
        · simp [hregistry]
        · simp only [Building.run_bind, hruns]
          rfl
      · refine .inr ⟨m, w', ⟨g, List.mem_cons_of_mem _ hg, hsticks⟩, ?_⟩
        simp only [Building.run_bind, hruns]
    · rw [hrun]
      rcases ih hready with
        ⟨defined, lines, w', hrest, hready, hregistry, hruns⟩ | ⟨m, w', ⟨g, hg, hsticks⟩, hruns⟩
      · refine .inl ⟨defined, messages.map f.problem ++ lines, w', .refused hsome hrest, hready,
          hregistry, ?_⟩
        simp only [Building.run_bind, hruns]
        rfl
      · refine .inr ⟨m, w', ⟨g, List.mem_cons_of_mem _ hg, hsticks⟩, ?_⟩
        simp only [Building.run_bind, hruns]
    · exact .inr ⟨m, w', ⟨f, List.mem_cons_self .., hsticks⟩, by rw [hrun]⟩

/-! ### The second pass -/

/-- What the second pass makes of types that come after some complete ones: types whose forms
definitions describe, where all but the types deleted so far are known, and a line for each of the
others. -/
inductive Completed (strict : Bool) (r : Registry) : List DocumentType →
    List (File × DocumentType) → List DocumentType → List String → Prop
  | nil {before : List DocumentType} : Completed strict r before [] [] []
  | kept {before : List DocumentType} {f : File} {t : DocumentType}
      {more : List (File × DocumentType)} {types : List DocumentType} {lines : List String}
      {raw : Entries} {form : Form} (content : f.content = .ok raw)
      (registered : r.getForm t.id = .ok form) (type : form.type = t)
      (describes : DescribesMembers strict (before ++ t :: more.map Prod.snd) raw form)
      (rest : Completed strict r (before ++ [t]) more types lines) :
      Completed strict r before ((f, t) :: more) (t :: types) lines
  | dropped {before : List DocumentType} {f : File} {t : DocumentType}
      {more : List (File × DocumentType)} {types : List DocumentType} {lines : List String}
      (reason : Refusal) (rest : Completed strict r before more types lines) :
      Completed strict r before ((f, t) :: more) types (f.problem reason.message :: lines)

namespace Completed
variable {r : Registry} {before types : List DocumentType} {more : List (File × DocumentType)}
  {lines : List String}

theorem types_sublist (h : Completed strict r before more types lines) :
    types.Sublist (more.map Prod.snd) := by
  induction h with
  | nil => exact .slnil
  | kept content registered type describes rest ih => exact ih.cons_cons _
  | dropped reason rest ih => exact ih.cons _

/-- The types that are known to the definition of a registered type are registered ones, and those
of later files. -/
theorem known (h : Completed strict r before more types lines) {t : DocumentType} (ht : t ∈ types) :
    ∃ f earlier later complete raw form, more = earlier ++ (f, t) :: later ∧ complete ⊆ types ∧
      f.content = .ok raw ∧ r.getForm t.id = .ok form ∧ form.type = t ∧
      DescribesMembers strict (before ++ complete ++ t :: later.map Prod.snd) raw form := by
  induction h with
  | nil => cases ht
  | @kept before f u more types lines raw form content registered type describes rest ih =>
    rcases List.mem_cons.mp ht with rfl | ht
    · refine ⟨f, [], more, [], raw, form, rfl, by simp, content, registered, type, ?_⟩
      rwa [List.append_nil]
    · obtain ⟨g, earlier, later, complete, raw, form, rfl, hcomplete, hg⟩ := ih ht
      rw [List.append_assoc before] at hg
      exact ⟨g, (f, u) :: earlier, later, u :: complete, raw, form, rfl,
        List.cons_subset_cons u hcomplete, hg⟩
  | @dropped before f u more types lines reason rest ih =>
    obtain ⟨g, earlier, later, complete, raw, form, rfl, hcomplete, hg⟩ := ih ht
    exact ⟨g, (f, u) :: earlier, later, complete, raw, form, rfl, hcomplete, hg⟩

/-- Without a line no type is deleted, and links lead to all of the types. -/
theorem all_kept (h : Completed strict r before more types []) :
    types = more.map Prod.snd ∧ ∀ p ∈ more, ∃ raw form, p.1.content = .ok raw ∧
      r.getForm p.2.id = .ok form ∧ form.type = p.2 ∧
      DescribesMembers strict (before ++ types) raw form := by
  generalize hlines : ([] : List String) = lines at h
  induction h with
  | nil => simp
  | kept content registered type describes rest ih =>
    obtain ⟨rfl, hrest⟩ := ih hlines
    rw [List.append_assoc] at hrest
    exact ⟨rfl, List.forall_mem_cons.mpr ⟨⟨_, _, content, registered, type, describes⟩, hrest⟩⟩
  | dropped reason rest ih => cases hlines

end Completed

/-- The types of some files come last and have no members yet. -/
structure Awaiting (formats : Formats) (before : List DocumentType)
    (more : List (File × DocumentType)) (w : Workspace) : Prop where
  ready : w.Ready
  types : w.registry.types = before ++ more.map Prod.snd
  content : ∀ p ∈ more, ∃ raw, p.1.content = .ok raw ∧ problems formats raw = .ok []
  fields : ∀ p ∈ more, w.registry.fieldsOf p.2.id = []
  groups : ∀ p ∈ more, w.registry.groupsOf p.2.id = []

namespace Awaiting
variable {before : List DocumentType} {t : DocumentType} {more : List (File × DocumentType)}

theorem apart (h : Awaiting formats before ((f, t) :: more) w) :
    (∀ u ∈ before, u.id ≠ t.id) ∧ ∀ p ∈ more, p.2.id ≠ t.id := by
  have hids := h.ready.consistent.identified.types
  rw [h.types, List.map_append, List.map_cons, List.map_cons, List.nodup_append] at hids
  obtain ⟨-, hlast, hbefore⟩ := hids
  refine ⟨fun u hu => ?_, fun p hp he => ?_⟩
  · exact hbefore _ (List.mem_map_of_mem hu) _ (List.mem_cons_self ..)
  · refine (List.nodup_cons.mp hlast).1 ?_
    rw [← he, List.map_map]
    exact List.mem_map.mpr ⟨p, hp, rfl⟩

theorem known (h : Awaiting formats before ((f, t) :: more) w) :
    w.registry.requireType t.id = .ok t :=
  Registry.requireType_of_mem h.ready.consistent.identified (by simp [h.types])

/-- What is done to the type at hand leaves the others without members. -/
theorem beside {before' : List DocumentType} (h : Awaiting formats before ((f, t) :: more) w)
    (hw : w'.Ready) (htypes : w'.registry.types = before' ++ more.map Prod.snd)
    (hbeside : SameBeside t.id w.registry w'.registry) : Awaiting formats before' more w' where
  ready := hw
  types := htypes
  content p hp := h.content p (List.mem_cons_of_mem _ hp)
  fields p hp :=
    (hbeside.fieldsOf (h.apart.2 p hp)).trans (h.fields p (List.mem_cons_of_mem _ hp))
  groups p hp :=
    (hbeside.groupsOf (h.apart.2 p hp)).trans (h.groups p (List.mem_cons_of_mem _ hp))

theorem kept (h : Awaiting formats before ((f, t) :: more) w) (hmembers : Extends t.id w w') :
    Awaiting formats (before ++ [t]) more w' :=
  h.beside hmembers.ready (by simp [hmembers.types, h.types]) hmembers.beside

/-- The type at hand can be deleted, whatever members it has. -/
theorem dropped (h : Awaiting formats before ((f, t) :: more) w) (hmembers : Extends t.id w w') :
    ∃ r, w'.registry.deleteType t.id = .ok r ∧
      Awaiting formats before more { w' with registry := r } ∧ SameBeside t.id w.registry r := by
  have hknown : w'.registry.requireType t.id = .ok t :=
    (requireType_congr hmembers.types t.id).trans h.known
  obtain ⟨r, hr⟩ : ∃ r, w'.registry.deleteType t.id = .ok r := by
    rw [Registry.deleteType, hknown]
    exact ⟨_, rfl⟩
  have hbeside := hmembers.beside.trans (Registry.deleteType_isolated hr)
  refine ⟨r, hr, h.beside (hmembers.ready.deleteType hr) ?_ hbeside, hbeside⟩
  have hbefore : before.filter (·.id != t.id) = before :=
    List.filter_eq_self.mpr fun u hu => by simpa using h.apart.1 u hu
  have hmore : (more.map Prod.snd).filter (·.id != t.id) = more.map Prod.snd := by
    refine List.filter_eq_self.mpr fun u hu => ?_
    obtain ⟨p, hp, rfl⟩ := List.mem_map.mp hu
    simpa using h.apart.2 p hp
  simp only [Registry.deleteType, hknown, bind_eq_ok, pure_eq_ok] at hr
  obtain ⟨_, -, rfl⟩ := hr
  rw [hmembers.types, h.types, List.filter_append, List.map_cons,
    List.filter_cons_of_neg (by simp), hbefore, hmore]

end Awaiting

/-- The types that the second pass completes come after the complete ones, and the others are
deleted. Forms that it does not come to stay as they are. -/
theorem completeTypes_cases (strict : Bool) {before : List DocumentType}
    {more : List (File × DocumentType)} (hw : Awaiting formats before more w) :
    (∃ types lines w', Completed strict w'.registry before more types lines ∧ w'.Ready ∧
      w'.registry.types = before ++ types ∧
      (∀ id, (∀ p ∈ more, p.2.id ≠ id) → w'.registry.getForm id = w.registry.getForm id) ∧
      (completeTypes strict more).run.run w = (.ok (types, lines), w')) ∨
    ∃ m w', (∃ p ∈ more, Sticks formats strict p.1 m) ∧
      (completeTypes strict more).run.run w = (.error (.misuse m), w') := by
  induction more generalizing before w with
  | nil => exact .inl ⟨[], [], w, .nil, hw.ready, by simpa using hw.types, fun _ _ => rfl, rfl⟩
  | cons p more ih =>
    obtain ⟨f, t⟩ := p
    obtain ⟨raw, hcontent, hcheck⟩ := hw.content (f, t) (List.mem_cons_self ..)
    have hmembers := defineMembers_extending strict t.id raw w hw.ready t hw.known
    have hattempt : (Building.plain f.content >>= defineMembers strict t.id).run.run w =
        (defineMembers strict t.id raw).run.run w := by
      rw [Building.run_bind, Building.run_plain, hcontent]
    rw [completeTypes, Building.run_bind, Building.run_attempt, hattempt]
    rcases hrun : (defineMembers strict t.id raw).run.run w with ⟨(reason | m) | u, w₁⟩
    · have hmembers : Extends t.id w w₁ := by simpa [hrun] using hmembers
      obtain ⟨r, hr, hrest, hbeside⟩ := hw.dropped hmembers
      simp only [Building.run_bind, Building.run_change, hr, Except.map]
      rcases ih hrest with ⟨types, lines, w', hdone, hready, htypes, hsame, hruns⟩ |
        ⟨m, w', ⟨p, hp, hsticks⟩, hruns⟩
      · refine .inl ⟨types, _, w', .dropped reason hdone, hready, htypes, fun id hid => ?_, ?_⟩
        · obtain ⟨hne, hid⟩ := List.forall_mem_cons.mp hid
          exact (hsame id hid).trans (hbeside.getForm hne.symm)
        · rw [hruns]
          rfl
      · refine .inr ⟨m, w', ⟨p, List.mem_cons_of_mem _ hp, hsticks⟩, ?_⟩
        rw [hruns]
    · refine .inr ⟨m, w₁, ⟨(f, t), List.mem_cons_self .., ?_⟩, rfl⟩
      exact .members hcontent hcheck w hw.ready t t.id hw.known (congrArg Prod.fst hrun)
    · have hmembers : Extends t.id w w₁ := by simpa [hrun] using hmembers
      simp only [Building.run_bind]
      rcases ih (hw.kept hmembers) with ⟨types, lines, w', hdone, hready, htypes, hsame, hruns⟩ |
        ⟨m, w', ⟨p, hp, hsticks⟩, hruns⟩
      · obtain ⟨form, hform, htype, hdescribes⟩ := defineMembers_ok hw.ready hw.known
          (hw.fields _ (List.mem_cons_self ..)) (hw.groups _ (List.mem_cons_self ..)) hrun
        refine .inl ⟨t :: types, lines, w', .kept hcontent ?_ htype ?_ hdone, hready, ?_,
          fun id hid => ?_, ?_⟩
        · exact (hsame t.id (hw.apart).2).trans hform
        · simpa [hw.types] using hdescribes
        · simpa using htypes
        · obtain ⟨hne, hid⟩ := List.forall_mem_cons.mp hid
          exact (hsame id hid).trans (hmembers.beside.getForm hne.symm)
        · rw [hruns]
          rfl
      · refine .inr ⟨m, w', ⟨p, List.mem_cons_of_mem _ hp, hsticks⟩, ?_⟩
        rw [hruns]

/-! ### Both passes -/

/-- A type is registered with the form that the definition in a file describes. -/
def Shows (strict : Bool) (r : Registry) (types : List DocumentType) (f : File)
    (t : DocumentType) : Prop :=
  ∃ raw form, f.content = .ok raw ∧ DescribesType raw t ∧ r.getForm t.id = .ok form ∧
    form.type = t ∧ DescribesMembers strict types raw form

/-- What both passes make of files: the registered types, and a line for each problem. -/
structure Loaded (formats : Formats) (strict : Bool) (files : List File) (r : Registry)
    (defined : List (File × DocumentType)) (lines : List String) : Prop where
  defining : Registry.Consistent { types := defined.map Prod.snd }
  consistent : r.Consistent
  passes : ∃ first second, Defined formats files defined first ∧
    Completed strict r [] defined r.types second ∧ lines = first ++ second

namespace Loaded
variable {r : Registry} {defined : List (File × DocumentType)} {lines : List String}

/-- Every registered type is that of a file, and it has all of its members. -/
theorem shown (h : Loaded formats strict files r defined lines) {t : DocumentType}
    (ht : t ∈ r.types) :
    ∃ f earlier later complete, defined = earlier ++ (f, t) :: later ∧ complete ⊆ r.types ∧
      Shows strict r (complete ++ t :: later.map Prod.snd) f t := by
  obtain ⟨first, second, hfirst, hsecond, -⟩ := h.passes
  obtain ⟨f, earlier, later, complete, raw, form, hdefined, hcomplete, hraw, hform, hof,
    hmembers⟩ := hsecond.known ht
  obtain ⟨raw', hraw', -, htype⟩ := hfirst.described (f, t) (by simp [hdefined])
  obtain rfl := Except.ok.inj (hraw.symm.trans hraw')
  exact ⟨f, earlier, later, complete, hdefined, hcomplete, raw, form, hraw, htype, hform, hof,
    hmembers⟩

end Loaded

/-- Loading comes to types or to lines, unless a file sticks. -/
theorem load_cases (formats : Formats) (strict : Bool) (files : List File) (n : Nat) :
    (∃ defined lines w first w', Loaded formats strict files w.registry defined lines ∧
      (defineTypes formats files).run.run { ids := { count := n } } = (.ok (defined, first), w') ∧
      (load formats strict files).run.run { ids := { count := n } } =
        (if lines = [] then .ok w.registry.types else .error (.refused (.definitions lines)), w)) ∨
    ∃ m w, (∃ f ∈ files, Sticks formats strict f m) ∧
      (load formats strict files).run.run { ids := { count := n } } = (.error (.misuse m), w) := by
  unfold load
  rw [Building.run_bind]
  rcases defineTypes_cases formats strict (Workspace.ready_empty n) files with
    ⟨defined, first, w, hfirst, hready, hregistry, hrun⟩ | ⟨m, w, hsticks, hrun⟩
  · rw [hrun]
    have hknown : Registry.Consistent { types := defined.map Prod.snd } := by
      simpa [hregistry] using hready.consistent
    have hawaiting : Awaiting formats [] defined w := by
      refine ⟨hready, hregistry ▸ rfl, fun p hp => ?_, fun p hp => by rw [hregistry]; rfl,
        fun p hp => by rw [hregistry]; rfl⟩
      obtain ⟨raw, hcontent, hcheck, -⟩ := hfirst.described p hp
      exact ⟨raw, hcontent, hcheck⟩
    rcases completeTypes_cases strict hawaiting with
      ⟨types, second, w', hsecond, hready, htypes, -, hruns⟩ | ⟨m, w', ⟨p, hp, hsticks⟩, hruns⟩
    · rw [List.nil_append] at htypes
      subst htypes
      refine .inl ⟨defined, first ++ second, w', first, w,
        ⟨hknown, hready.consistent, first, second, hfirst, hsecond, rfl⟩, rfl, ?_⟩
      simp only [Building.run_bind, hruns]
      cases hlines : first ++ second with
      | nil => rfl
      | cons line lines => rfl
    · refine .inr ⟨m, w', ⟨p.1, hfirst.sublist.subset (List.mem_map_of_mem hp), hsticks⟩, ?_⟩
      simp only [Building.run_bind, hruns]
  · exact .inr ⟨m, w, hsticks, by rw [hrun]⟩

end DocForms.Definition
