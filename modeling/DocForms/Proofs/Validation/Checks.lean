import DocForms.Proofs.Fault
import DocForms.Validation.Engine

/-! Validation as a list of checks. They are made in order, and the messages of those that fail are
collected in an error map. -/
namespace DocForms.Validation

/-- The message if the value of a group is not of the shape that the group asks for. -/
def shapeProblem? (g : FieldGroup) (v : Value) : Option String :=
  match g.repeatable, v with
  | true, .null => none
  | true, .list _ => none
  | true, _ => some (g.label ++ " must be a list of rows")
  | false, .null => none
  | false, .record _ => none
  | false, _ => some (g.label ++ " must be a single row")

/-- What is checked: the value of a field at a place, the number of rows of a group, and the shape
of the value of a group. -/
inductive Check where
  | field (f : Field) (v : Value) (a : Address)
  | count (g : FieldGroup) (rows : Nat)
  | shape (g : FieldGroup) (v : Value)
deriving DecidableEq

namespace Check

/-- The key that a failing check is reported under. -/
def path : Check → String
  | field _ _ a => a.key
  | count g _ => countKey g
  | shape g _ => g.name

/-- The message of a check, if it fails. -/
def problem? (vs : Validators) (links : ResolvedLinks) : Check → Except Fault (Option String)
  | field f v a => fieldProblem? vs f v a.key links
  | count g rows => countProblem? g rows
  | shape g v => .ok (shapeProblem? g v)

/-- Reports the message of a check. Only the message of a field gives way to an earlier one. -/
def report (c : Check) (m : String) (es : ErrorMap) : ErrorMap :=
  match c with
  | field _ _ a => es.report a.key m
  | count g _ => es.overwrite (countKey g) m
  | shape g _ => es.overwrite g.name m

/-- Makes a check. -/
def run (vs : Validators) (links : ResolvedLinks) (es : ErrorMap) (c : Check) :
    Except Fault ErrorMap := do
  match ← c.problem? vs links with
  | some m => return c.report m es
  | none => return es

end Check

/-! ### The checks of a snapshot -/

/-- The rows in the value of a repeatable group. -/
def rowValues : Value → List Value
  | .list rows => rows
  | _ => []

def rowChecks (g : FieldGroup) (address : String → Address) (row : Entries) : List Check :=
  g.fields.map fun f => .field f (Entries.get row f.name) (address f.name)

def rowsChecks (g : FieldGroup) (rows : List Value) : List Check :=
  .count g rows.length ::
    rows.zipIdx.flatMap fun (row, i) => rowChecks g (.cell g.name i) (rowEntries row)

/-- Of a value of the wrong shape nothing but the shape is checked. -/
def groupChecks (g : FieldGroup) (v : Value) : List Check :=
  .shape g v ::
    if (shapeProblem? g v).isSome then []
    else if g.repeatable then rowsChecks g (rowValues v)
    else rowChecks g (.member g.name) (rowEntries v)

/-- The checks of a snapshot: ungrouped fields first, then group by group. -/
def checks (form : Form) (s : Snapshot) : List Check :=
  form.fields.map (fun f => .field f (Entries.get (rowEntries s.simple) f.name) (.top f.name)) ++
    form.groups.flatMap fun g => groupChecks g (Entries.get (rowEntries s.groups) g.name)

/-- The parts of the snapshot that the form has something to look for in are records. -/
def Readable (form : Form) (s : Snapshot) : Prop :=
  (form.fields = [] ∨ ∃ es, s.simple = .record es) ∧
    (form.groups = [] ∨ ∃ es, s.groups = .record es)

variable {vs : Validators} {links : ResolvedLinks} {g : FieldGroup} {form : Form} {s : Snapshot}
  {es es' : ErrorMap}

/-! ### Validation makes the checks -/

theorem foldlM_flatMap {α β γ : Type} (h : α → List β) (k : γ → β → Except Fault γ) (as : List α)
    (c : γ) : (as.flatMap h).foldlM k c = as.foldlM (fun c a => (h a).foldlM k c) c := by
  induction as generalizing c with
  | nil => rfl
  | cons a as ih =>
    rw [List.flatMap_cons, List.foldlM_append, List.foldlM_cons]
    exact bind_congr fun c => ih c

theorem checkRow_eq (address : String → Address) (row : Entries) (es : ErrorMap) :
    checkRow vs links g address row es = (rowChecks g address row).foldlM (Check.run vs links) es := by
  rw [rowChecks, List.foldlM_map]
  rfl

theorem checkRows_eq (rows : List Value) (es : ErrorMap) :
    checkRows vs links g rows es = (rowsChecks g rows).foldlM (Check.run vs links) es := by
  rw [rowsChecks, List.foldlM_cons, checkRows, Check.run, Check.problem?]
  cases countProblem? g rows.length with
  | error e => rfl
  | ok o =>
    have rest (es : ErrorMap) : (rows.zipIdx.foldlM (fun es (row, i) =>
        checkRow vs links g (.cell g.name i) (rowEntries row) es) es) =
        (rows.zipIdx.flatMap fun (row, i) => rowChecks g (.cell g.name i) (rowEntries row)).foldlM
          (Check.run vs links) es := by
      rw [foldlM_flatMap]
      exact foldlM_congr (fun e _ es => checkRow_eq _ _ es) es
    cases o with
    | none => exact rest es
    | some m => exact rest (es.overwrite (countKey g) m)

theorem checkGroup_eq (v : Value) (es : ErrorMap) :
    checkGroup vs links g v es = (groupChecks g v).foldlM (Check.run vs links) es := by
  have shape (o : Option String) (ho : shapeProblem? g v = o) : (groupChecks g v).foldlM
      (Check.run vs links) es = (if o.isSome then [] else if g.repeatable then
        rowsChecks g (rowValues v) else rowChecks g (.member g.name) (rowEntries v)).foldlM
          (Check.run vs links) (o.elim es fun m => es.overwrite g.name m) := by
    rw [groupChecks, List.foldlM_cons, ho, Check.run, Check.problem?, ho]
    cases o <;> rfl
  -- the cases are those of the definition: whether the group is repeatable, and its value
  unfold checkGroup
  split
  · rename_i hr
    rw [shape none (by simp [shapeProblem?, hr])]
    simpa [hr, rowValues] using checkRows_eq [] es
  · rename_i rows hr
    rw [shape none (by simp [shapeProblem?, hr])]
    simpa [hr, rowValues] using checkRows_eq rows es
  · rename_i hr hnull hlist
    rw [shape (some (g.label ++ " must be a list of rows"))]
    · rfl
    · unfold shapeProblem?
      split <;> simp_all
  · rename_i hr
    rw [shape none (by simp [shapeProblem?, hr])]
    simpa [hr, rowEntries] using checkRow_eq (.member g.name) [] es
  · rename_i row hr
    rw [shape none (by simp [shapeProblem?, hr])]
    simpa [hr, rowEntries] using checkRow_eq (.member g.name) row es
  · rename_i hr hnull hrecord
    rw [shape (some (g.label ++ " must be a single row"))]
    · rfl
    · unfold shapeProblem?
      split <;> simp_all

theorem problems_of_readable (h : Readable form s) :
    problems vs form s links = (checks form s).foldlM (Check.run vs links) [] := by
  have top (es : ErrorMap) : form.fields.foldlM (fun es f => do
      let v ← s.simple.field f.name
      checkField vs links f v (Address.top f.name).key es) es = (form.fields.map fun f =>
        Check.field f (Entries.get (rowEntries s.simple) f.name) (.top f.name)).foldlM
          (Check.run vs links) es := by
    rw [List.foldlM_map]
    rcases h.1 with hf | ⟨entries, hs⟩
    · rw [hf]
      rfl
    · rw [hs]
      rfl
  have group (es : ErrorMap) : form.groups.foldlM (fun es g => do
      let v ← s.groups.field g.name
      checkGroup vs links g v es) es = (form.groups.flatMap fun g =>
        groupChecks g (Entries.get (rowEntries s.groups) g.name)).foldlM
          (Check.run vs links) es := by
    rw [foldlM_flatMap]
    rcases h.2 with hg | ⟨entries, hs⟩
    · rw [hg]
      rfl
    · rw [hs]
      exact foldlM_congr (fun g _ es => checkGroup_eq _ es) es
  rw [problems, checks, List.foldlM_append, top]
  exact bind_congr group

theorem field_eq_ok {v w : Value} {name : String} (h : v.field name = .ok w) :
    ∃ es, v = .record es := by
  obtain ⟨es, hes, -⟩ := bind_eq_ok.mp h
  unfold Value.entries at hes
  split at hes
  · exact ⟨_, rfl⟩
  · cases hes

theorem readable_of_problems (h : problems vs form s links = .ok es) : Readable form s := by
  obtain ⟨es₁, htop, hgroup⟩ := bind_eq_ok.mp h
  constructor
  · cases hf : form.fields with
    | nil => exact .inl rfl
    | cons f fs =>
      rw [hf, List.foldlM_cons] at htop
      obtain ⟨_, hstep, -⟩ := bind_eq_ok.mp htop
      obtain ⟨v, hv, -⟩ := bind_eq_ok.mp hstep
      exact .inr (field_eq_ok hv)
  · cases hg : form.groups with
    | nil => exact .inl rfl
    | cons g gs =>
      rw [hg, List.foldlM_cons] at hgroup
      obtain ⟨_, hstep, -⟩ := bind_eq_ok.mp hgroup
      obtain ⟨v, hv, -⟩ := bind_eq_ok.mp hstep
      exact .inr (field_eq_ok hv)

/-! ### The checks that fail -/

/-- The checks that fail, with their messages. -/
def failures (vs : Validators) (links : ResolvedLinks) (cs : List Check) : List (Check × String) :=
  cs.filterMap fun c => (c.problem? vs links).toOption.join.map (c, ·)

/-- Adds the message of a failing check. -/
def put (es : ErrorMap) (e : Check × String) : ErrorMap := e.1.report e.2 es

theorem failures_cons {c : Check} {cs : List Check} {o : Option String}
    (h : c.problem? vs links = .ok o) :
    failures vs links (c :: cs) = (o.map (c, ·)).toList ++ failures vs links cs := by
  cases o <;> simp [failures, h, Except.toOption]

theorem foldlM_run_eq_ok {cs : List Check} : cs.foldlM (Check.run vs links) es = .ok es' ↔
    (∀ c ∈ cs, ∃ o, c.problem? vs links = .ok o) ∧ (failures vs links cs).foldl put es = es' := by
  induction cs generalizing es with
  | nil => simp [failures, pure_eq_ok]
  | cons c cs ih =>
    rw [List.foldlM_cons, List.forall_mem_cons, Check.run]
    cases hp : c.problem? vs links with
    | error e => simp [bind, Except.bind]
    | ok o =>
      rw [failures_cons hp]
      cases o with
      | none => simpa [bind, Except.bind, pure, Except.pure] using ih
      | some m => simpa [bind, Except.bind, pure, Except.pure, put] using ih

/-- Validation ends if every check can be made, and then it has collected those that fail. -/
theorem problems_eq_ok_iff : problems vs form s links = .ok es ↔
    Readable form s ∧ (∀ c ∈ checks form s, ∃ o, c.problem? vs links = .ok o) ∧
      (failures vs links (checks form s)).foldl put [] = es := by
  constructor
  · intro h
    have hr := readable_of_problems h
    rw [problems_of_readable hr, foldlM_run_eq_ok] at h
    exact ⟨hr, h⟩
  · rintro ⟨hr, h⟩
    rw [problems_of_readable hr]
    exact foldlM_run_eq_ok.mpr h

theorem mem_failures {cs : List Check} {c : Check} {m : String} :
    (c, m) ∈ failures vs links cs ↔ c ∈ cs ∧ c.problem? vs links = .ok (some m) := by
  rw [failures, List.mem_filterMap]
  constructor
  · rintro ⟨c', hc, h⟩
    obtain ⟨m', hm, he⟩ := Option.map_eq_some_iff.mp h
    obtain ⟨rfl, rfl⟩ := Prod.mk.inj he
    refine ⟨hc, ?_⟩
    cases hp : c'.problem? vs links with
    | error e => simp [hp, Except.toOption] at hm
    | ok o =>
      obtain rfl : o = some m' := by simpa [hp, Except.toOption] using hm
      rfl
  · rintro ⟨hc, h⟩
    exact ⟨c, hc, by simp [h, Except.toOption]⟩

end DocForms.Validation
