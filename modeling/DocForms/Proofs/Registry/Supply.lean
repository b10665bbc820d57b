import DocForms.Proofs.Registry.Building
import DocForms.Proofs.Registry.Isolation
import Std.Data.String.ToNat

/-! Numbered identifiers are new ones as long as nothing else hands identifiers out. So what is
defined under them comes after everything that has been defined before. -/
namespace DocForms

namespace Ids

/-- The identifier with a number. -/
def numbered (k : Nat) : String := "id-" ++ toString k

theorem numbered_inj {j k : Nat} (h : numbered j = numbered k) : j = k := by
  have hdigits : (toString j).toList = (toString k).toList := by
    have hlist := congrArg String.toList h
    simpa [numbered] using hlist
  exact Nat.repr_inj.mp (String.toList_inj.mp hdigits)

theorem numbered_ne_empty (k : Nat) : numbered k ≠ "" := by
  intro h
  have hlist := congrArg String.toList h
  simp [numbered] at hlist

/-- An identifier that is none of those that are yet to be handed out. -/
structure Past (s : Ids) (id : String) : Prop where
  some : id ≠ ""
  old : ∀ k, s.count < k → id ≠ numbered k

theorem take_numbered {s : Ids} (h : s.given = none) :
    s.take = (numbered (s.count + 1), { s with count := s.count + 1 }) := by
  rw [take, h]
  rfl

end Ids

theorem upsert_new {α : Type} {id : α → String} {r : α} {as : List α}
    (h : ∀ a ∈ as, id a ≠ id r) : upsert id r as = as ++ [r] := by
  induction as with
  | nil => rfl
  | cons a as ih =>
    rw [upsert, if_neg (by simpa using h a (List.mem_cons_self ..)),
      ih fun b hb => h b (List.mem_cons_of_mem _ hb), List.cons_append]

/-- A workspace in which every identifier that is yet to be handed out is a new one. -/
structure Workspace.Ready (w : Workspace) : Prop where
  consistent : w.registry.Consistent
  given : w.ids.given = none
  type : ∀ t ∈ w.registry.types, w.ids.Past t.id
  group : ∀ g ∈ w.registry.groups, w.ids.Past g.id
  field : ∀ f ∈ w.registry.fields, w.ids.Past f.id

namespace Workspace
variable {w : Workspace} {r : Registry} {typeId : String}

/-- The identifier for the next record. -/
def nextId (w : Workspace) : String := w.ids.take.1

/-- The supply after the next identifier has been handed out. -/
def nextIds (w : Workspace) : Ids := w.ids.take.2

namespace Ready

theorem nextId_eq (hw : w.Ready) : w.nextId = Ids.numbered (w.ids.count + 1) := by
  rw [nextId, Ids.take_numbered hw.given]

theorem nextIds_eq (hw : w.Ready) : w.nextIds = { w.ids with count := w.ids.count + 1 } := by
  rw [nextIds, Ids.take_numbered hw.given]

theorem nextId_ne_empty (hw : w.Ready) : w.nextId ≠ "" := by
  rw [hw.nextId_eq]
  exact Ids.numbered_ne_empty _

/-- No number that has been handed out comes again. -/
theorem ne_nextId (hw : w.Ready) {id : String} (h : w.ids.Past id) : id ≠ w.nextId := by
  rw [hw.nextId_eq]
  exact h.old _ (Nat.lt_succ_self _)

theorem fresh_group (hw : w.Ready) : w.registry.group? w.nextId = none :=
  List.find?_eq_none.mpr fun g hg => by simpa using hw.ne_nextId (hw.group g hg)

/-- What is kept, and what is defined under the next identifier, leaves a workspace ready. -/
theorem define (hw : w.Ready) (hc : r.Consistent)
    (types : ∀ t ∈ r.types, t ∈ w.registry.types ∨ t.id = w.nextId)
    (groups : ∀ g ∈ r.groups, g ∈ w.registry.groups ∨ g.id = w.nextId)
    (fields : ∀ f ∈ r.fields, f ∈ w.registry.fields ∨ f.id = w.nextId) :
    Ready ⟨r, w.nextIds⟩ := by
  have past {id : String} {known : Prop} (hknown : known → w.ids.Past id)
      (h : known ∨ id = w.nextId) : Ids.Past { w.ids with count := w.ids.count + 1 } id := by
    rcases h with h | rfl
    · exact ⟨(hknown h).some, fun k hk => (hknown h).old k (Nat.lt_of_succ_lt hk)⟩
    · rw [hw.nextId_eq]
      refine ⟨Ids.numbered_ne_empty _, fun k hk he => ?_⟩
      exact Nat.ne_of_lt hk (Ids.numbered_inj he)
  rw [hw.nextIds_eq]
  exact {
    consistent := hc
    given := hw.given
    type := fun t ht => past (hw.type t) (types t ht)
    group := fun g hg => past (hw.group g) (groups g hg)
    field := fun f hf => past (hw.field f) (fields f hf) }

/-- Handing out an identifier in vain leaves a workspace ready. -/
theorem skip (hw : w.Ready) : Ready ⟨w.registry, w.nextIds⟩ :=
  hw.define hw.consistent (fun _ => .inl) (fun _ => .inl) fun _ => .inl

/-- Dropping records leaves a workspace ready. -/
theorem drop (hw : w.Ready) (hc : r.Consistent) (types : r.types ⊆ w.registry.types)
    (groups : r.groups ⊆ w.registry.groups) (fields : r.fields ⊆ w.registry.fields) :
    Ready { w with registry := r } where
  consistent := hc
  given := hw.given
  type t ht := hw.type t (types ht)
  group g hg := hw.group g (groups hg)
  field f hf := hw.field f (fields hf)

end Ready

theorem ready_empty (n : Nat) : Ready { ids := { count := n } } where
  consistent := Registry.consistent_empty
  given := rfl
  type := by simp
  group := by simp
  field := by simp

end Workspace

namespace Registry
variable {r : Registry} {id typeId : String}

/-- No field lies in a group that does not exist. -/
theorem scope_of_fresh (ho : r.Owned) (fresh : r.group? id = none) (typeId : String) :
    r.scope typeId (some id) = [] := by
  refine List.filter_eq_nil_iff.mpr fun f hf hgroup => ?_
  obtain ⟨g, hg, hid, -⟩ := ho.grouped f (List.mem_filter.mp hf).1 id (by simpa using hgroup)
  simpa [hid] using List.find?_eq_none.mp fresh g hg

/-! ### Definitions under new identifiers -/

/-- A registry to which groups and fields have been added, after all others. -/
def extend (r : Registry) (gs : List Group) (fs : List Field) : Registry :=
  { r with groups := r.groups ++ gs, fields := r.fields ++ fs }

@[simp] theorem extend_types (gs : List Group) (fs : List Field) :
    (r.extend gs fs).types = r.types := rfl

@[simp] theorem extend_groups (gs : List Group) (fs : List Field) :
    (r.extend gs fs).groups = r.groups ++ gs := rfl

@[simp] theorem extend_fields (gs : List Group) (fs : List Field) :
    (r.extend gs fs).fields = r.fields ++ fs := rfl

@[simp] theorem extend_nil : r.extend [] [] = r := by simp [extend]

@[simp] theorem extend_extend (gs gs' : List Group) (fs fs' : List Field) :
    (r.extend gs fs).extend gs' fs' = r.extend (gs ++ gs') (fs ++ fs') := by
  simp [extend, List.append_assoc]

theorem addType_new (es : Entries) (fresh : ∀ t ∈ r.types, t.id ≠ id) :
    r.addType id (.record es) =
    (fun t => ({ r with types := r.types ++ [t] }, t)) <$> r.buildType id es := by
  show (r.buildType id es >>= fun t => _) = _
  cases ht : r.buildType id es with
  | error e => rfl
  | ok t =>
    have hput : upsert DocumentType.id t r.types = r.types ++ [t] :=
      upsert_new fun u hu => buildType_id ht ▸ fresh u hu
    simp [bind, Except.bind, pure, Except.pure, Functor.map, Except.map, hput]

theorem addField_new (es : Entries) (strict : Bool) {t : DocumentType}
    (ht : r.requireType typeId = .ok t) (fresh : ∀ f ∈ r.fields, f.id ≠ id) :
    r.addField typeId id (.record es) strict =
    (fun f => (r.extend [] [f], f)) <$> r.buildField typeId id es strict := by
  rw [addField, ht]
  show (r.buildField typeId id es strict >>= fun f => _) = _
  cases hf : r.buildField typeId id es strict with
  | error e => rfl
  | ok f =>
    have hput : upsert Field.id f r.fields = r.fields ++ [f] :=
      upsert_new fun g hg => (buildField_owner hf).1 ▸ fresh g hg
    simp [bind, Except.bind, pure, Except.pure, Functor.map, Except.map, hput, extend]

theorem addGroup_new (es : Entries) {t : DocumentType} (ht : r.requireType typeId = .ok t)
    (fresh : ∀ g ∈ r.groups, g.id ≠ id) :
    r.addGroup typeId id (.record es) =
    (fun g => (r.extend [g] [], g)) <$> r.buildGroup typeId id es := by
  rw [addGroup, ht]
  show (r.buildGroup typeId id es >>= fun g => _) = _
  cases hg : r.buildGroup typeId id es with
  | error e => rfl
  | ok g =>
    have hput : upsert Group.id g r.groups = r.groups ++ [g] :=
      upsert_new fun g' hg' => (buildGroup_owner hg).1 ▸ fresh g' hg'
    simp [bind, Except.bind, pure, Except.pure, Functor.map, Except.map, hput, extend]

end Registry

namespace Building
variable {w : Workspace} {typeId : String} {es : Entries} {strict : Bool}

theorem run_defineType (hw : w.Ready) : (mint (·.defineType (.record es))).run.run w =
    match w.registry.buildType w.nextId es with
    | .ok t => (.ok t, ⟨{ w.registry with types := w.registry.types ++ [t] }, w.nextIds⟩)
    | .error e => (.error e, ⟨w.registry, w.nextIds⟩) := by
  have hrun : (w.registry.defineType (.record es)).run.run w.ids =
      (w.registry.addType w.nextId (.record es), w.nextIds) := rfl
  rw [run_mint, hrun, Registry.addType_new es fun t ht => hw.ne_nextId (hw.type t ht)]
  cases w.registry.buildType w.nextId es <;> rfl

theorem run_defineField (hw : w.Ready) {t : DocumentType}
    (ht : w.registry.requireType typeId = .ok t) :
    (mint (·.defineField typeId (.record es) strict)).run.run w =
      match w.registry.buildField typeId w.nextId es strict with
      | .ok f => (.ok f, ⟨w.registry.extend [] [f], w.nextIds⟩)
      | .error e => (.error e, ⟨w.registry, w.nextIds⟩) := by
  have hrun : (w.registry.defineField typeId (.record es) strict).run.run w.ids =
      (w.registry.addField typeId w.nextId (.record es) strict, w.nextIds) := by
    unfold Registry.defineField
    rw [ht]
    rfl
  rw [run_mint, hrun, Registry.addField_new es strict ht fun f hf => hw.ne_nextId (hw.field f hf)]
  cases w.registry.buildField typeId w.nextId es strict <;> rfl

theorem run_defineGroup (hw : w.Ready) {t : DocumentType}
    (ht : w.registry.requireType typeId = .ok t) :
    (mint (·.defineGroup typeId (.record es))).run.run w =
      match w.registry.buildGroup typeId w.nextId es with
      | .ok g => (.ok g, ⟨w.registry.extend [g] [], w.nextIds⟩)
      | .error e => (.error e, ⟨w.registry, w.nextIds⟩) := by
  have hrun : (w.registry.defineGroup typeId (.record es)).run.run w.ids =
      (w.registry.addGroup typeId w.nextId (.record es), w.nextIds) := by
    unfold Registry.defineGroup
    rw [ht]
    rfl
  rw [run_mint, hrun, Registry.addGroup_new es ht fun g hg => hw.ne_nextId (hw.group g hg)]
  cases w.registry.buildGroup typeId w.nextId es <;> rfl

end Building

namespace Workspace.Ready
variable {w : Workspace} {typeId : String} {es : Entries} {strict : Bool}

theorem addType (hw : w.Ready) {t : DocumentType}
    (h : w.registry.buildType w.nextId es = .ok t) :
    Ready ⟨{ w.registry with types := w.registry.types ++ [t] }, w.nextIds⟩ := by
  have hadd := Registry.addType_new es fun t ht => hw.ne_nextId (hw.type t ht)
  rw [h] at hadd
  refine hw.define (hw.consistent.change (Registry.addType_change hadd)) ?_ (fun _ => .inl)
    fun _ => .inl
  intro u hu
  rcases List.mem_append.mp hu with hu | hu
  · exact .inl hu
  · exact .inr (List.mem_singleton.mp hu ▸ Registry.buildType_id h)

theorem addField (hw : w.Ready) {t : DocumentType} (ht : w.registry.requireType typeId = .ok t)
    {f : Field} (h : w.registry.buildField typeId w.nextId es strict = .ok f) :
    Ready ⟨w.registry.extend [] [f], w.nextIds⟩ := by
  have hadd := Registry.addField_new es strict ht
    fun f hf => hw.ne_nextId (hw.field f hf)
  rw [h] at hadd
  refine hw.define (hw.consistent.change (Registry.addField_change hadd)) (fun _ => .inl)
    (by simp +contextual) ?_
  intro g hg
  rcases List.mem_append.mp hg with hg | hg
  · exact .inl hg
  · exact .inr (List.mem_singleton.mp hg ▸ (Registry.buildField_owner h).1)

theorem addGroup (hw : w.Ready) {t : DocumentType} (ht : w.registry.requireType typeId = .ok t)
    {g : Group} (h : w.registry.buildGroup typeId w.nextId es = .ok g) :
    Ready ⟨w.registry.extend [g] [], w.nextIds⟩ := by
  have hadd := Registry.addGroup_new es ht fun g hg => hw.ne_nextId (hw.group g hg)
  rw [h] at hadd
  refine hw.define (hw.consistent.change (Registry.addGroup_change hw.fresh_group hadd))
    (fun _ => .inl) ?_ (by simp +contextual)
  intro g' hg'
  rcases List.mem_append.mp hg' with hg' | hg'
  · exact .inl hg'
  · exact .inr (List.mem_singleton.mp hg' ▸ (Registry.buildGroup_owner h).1)

theorem deleteType (hw : w.Ready) {r : Registry} (h : w.registry.deleteType typeId = .ok r) :
    Ready { w with registry := r } := by
  have hc := hw.consistent.change (Registry.deleteType_change h)
  simp only [Registry.deleteType, bind_eq_ok, pure_eq_ok] at h
  obtain ⟨_, -, rfl⟩ := h
  exact hw.drop hc (List.filter_subset_self _) (List.filter_subset_self _)
    (List.filter_subset_self _)

end Workspace.Ready
end DocForms
