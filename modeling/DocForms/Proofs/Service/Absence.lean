import DocForms.Proofs.Registry.Refusing
import DocForms.Proofs.Rendering.Legible
import DocForms.Service.Handler

/-! Refusals on account of something that does not exist. Only lookups by an identifier come to
them: what is checked, built, loaded, validated or bound is refused for other reasons. -/
namespace DocForms

/-- Whether something that was asked for does not exist, and the refusal blames no part of the
body for it. -/
def Refusal.isAbsence (e : Refusal) : Bool := e.isNotFound && e.field?.isNone

/-- A computation that is refused on account of nothing that does not exist. -/
abbrev Present {α : Type} (x : Except Fault α) : Prop := RefusesOnly (fun e => !e.isAbsence) x

/-! ### Records -/

namespace Registry
variable (r : Registry) (typeId id : String)

theorem constraints_present (strict : Bool) (kind : FieldKind) (options rules : Value)
    (field : Option String) : Present (Constraints.parse strict kind options rules field) := by
  have record {α : Type} {own : Refusal → Bool} {x : Except Fault (Option α)} (hx : Present x) :
      Present (recordRefusal strict own x) := by
    intro e he
    unfold recordRefusal at he
    split at he
    · cases he
    · split at he
      · cases he
      · obtain rfl := Fault.refused.inj (Except.error.inj he)
        exact hx _ rfl
    · rename_i hno
      exact absurd (Except.error.inj he) (hno e)
  have hoptions : Present (Options.parse kind options field) :=
    (options_refusesOnly kind options field).mono fun e he => by
      cases e <;> first | rfl | cases he
  have hrules : Present (Rules.parse rules field) :=
    (rules_refusesOnly rules field).mono fun e he => by
      cases e <;> first | rfl | cases he
  unfold Constraints.parse
  exact (record hoptions).bind fun _ _ => (record hrules).bind fun _ _ => .pure _

theorem fieldOrder_present (group : Option String) (order : Value) :
    Present (r.fieldOrder typeId id group order) := by
  unfold fieldOrder
  split
  · exact .ok _
  · exact toInteger_refusesOnly order

theorem buildField_present (es : Entries) (strict : Bool) :
    Present (r.buildField typeId id es strict) := by
  unfold buildField
  refine (trimmed_refusesOnly _).bind fun name _ => (trimmed_refusesOnly _).bind fun label _ => ?_
  refine .check rfl (.check rfl ?_)
  refine (groupIdOf_refusesOnly es).bind fun group _ => ?_
  refine (checkGroup_refusesOnly r typeId group fun _ => rfl).bind fun _ _ => ?_
  refine (checkFieldName_refusesOnly r typeId id group rfl rfl).bind fun _ _ => ?_
  refine (kind_refusesOnly _ _ fun _ _ => rfl).bind fun kind _ => ?_
  refine (constraints_present strict kind _ _ _).bind fun _ _ => ?_
  exact (fieldOrder_present r typeId id group _).bind fun _ _ => .pure _

theorem rowBounds_present (repeatable : Bool) (es : Entries) : Present (rowBounds repeatable es) := by
  have bound (b : RowBound) (v : Value) : Present (rowBound b v) := by
    unfold rowBound
    split
    · exact .ok _
    · split
      · exact .refuse rfl
      · exact .ok _
    · exact .refuse rfl
  unfold rowBounds
  split
  · exact .pure _
  · refine (bound _ _).bind fun low _ => (bound _ _).bind fun high _ => ?_
    split
    · split
      · exact .refuse rfl
      · exact .pure _
    · exact .pure _

theorem buildGroup_present (es : Entries) : Present (r.buildGroup typeId id es) := by
  unfold buildGroup
  refine (trimmed_refusesOnly _).bind fun name _ => (trimmed_refusesOnly _).bind fun label _ => ?_
  refine .check rfl (.check rfl (.check rfl (.check rfl ?_)))
  refine (rowBounds_present _ es).bind fun bounds _ => ?_
  split
  dsimp only
  split
  · exact .pure _
  · exact (toInteger_refusesOnly _).bind fun _ _ => .pure _

theorem buildType_present (es : Entries) : Present (r.buildType id es) := by
  unfold buildType
  refine (trimmed_refusesOnly _).bind fun name _ => (trimmed_refusesOnly _).bind fun code _ => ?_
  refine .check rfl (.check rfl (.check rfl ?_))
  split
  · exact .refuse rfl
  · exact .pure _

theorem completeOrder_present (scope : List String) (ids : Value) {incomplete : Refusal}
    (h : incomplete.isAbsence = false) : Present (completeOrder scope ids incomplete) := by
  have hrefuse {α : Type} : Present (refuse incomplete : Except Fault α) := .refuse (by rw [h]; rfl)
  unfold completeOrder
  refine (elements_refusesOnly ids).bind fun ids _ => .check (by rw [h]; rfl) ?_
  refine (RefusesOnly.mapM fun v _ => key_refusesOnly v).bind fun keys _ => ?_
  dsimp only
  split
  · exact .pure _
  · exact hrefuse

end Registry

/-! ### Values -/

theorem signers_present (v : Value) : Present (Signers.ofValue v) := by
  have order (v : Value) : Present (Signers.orderOf v) := by
    unfold Signers.orderOf
    split
    · exact .ok _
    · exact .refuse rfl
    · split
      · exact .ok _
      · exact .misuse _
      · exact .refuse rfl
  have entry (v : Value) : Present (Signers.entryOf v) := by
    unfold Signers.entryOf
    split
    · dsimp only
      split
      · exact (order _).bind fun _ _ => (written_refusesOnly _).bind fun _ _ => .pure _
      · exact .refuse rfl
    · exact .refuse rfl
  have add (s : Signers String) (user : String) : Present (s.add user .null) :=
    .check rfl (.pure _)
  unfold Signers.ofValue
  split
  · refine (RefusesOnly.mapM fun v _ => entry v).bind fun entries _ => ?_
    exact .foldlM (fun e _ s => add s e.2) _
  · exact .refuse rfl

/-! ### Validation -/

section Validation
variable {own : Refusal → Bool}

theorem lookup_refusesOnly (v key : Value) : RefusesOnly own (Snapshot.lookup v key) := by
  unfold Snapshot.lookup
  refine entries_refusesOnly.bind fun es _ => (key_refusesOnly key).bind fun k _ => ?_
  split <;> exact .pure _

theorem field_refusesOnly (v : Value) (name : String) : RefusesOnly own (v.field name) :=
  entries_refusesOnly.bind fun _ _ => .pure _

theorem snapshotGet_refusesOnly (s : Snapshot) (field group row : Value) :
    RefusesOnly own (s.get field group row) := by
  have rowAt (count : Nat) (index : Value) : RefusesOnly own (Snapshot.rowAt? count index) := by
    unfold Snapshot.rowAt?
    dsimp only
    split
    · exact .ok _
    · exact .ok _
    · exact .ok _
    · split
      · exact .misuse _
      · exact .ok _
    · exact .misuse _
  unfold Snapshot.get
  split
  · exact lookup_refusesOnly _ _
  · refine (lookup_refusesOnly _ _).bind fun v _ => ?_
    split
    · refine (rowAt _ _).bind fun i _ => ?_
      split
      · exact .pure _
      · exact lookup_refusesOnly _ _
    · exact lookup_refusesOnly _ _
    · exact .pure _

theorem validator_refusesOnly (kind : FieldKind) (f : Field) (v : Value) (key : String)
    (links : ResolvedLinks) : RefusesOnly own (Validators.standard kind f v key links) := by
  have shown (v : Value) : RefusesOnly own (Validation.shown v) := written_refusesOnly _
  have lengthText (n : Number) : RefusesOnly own (Validation.lengthText n) := written_refusesOnly _
  have boundText (n : Number) : RefusesOnly own (Validation.boundText n) := by
    unfold Validation.boundText
    split
    · exact .ok _
    · split
      · exact .ok _
      · exact .misuse _
  have lengthAndPattern (s : String) : RefusesOnly own (Validation.lengthAndPattern f s) := by
    unfold Validation.lengthAndPattern
    split
    · exact .ok _
    · dsimp only
      split
      · exact (lengthText _).bind fun _ _ => .ok _
      · split
        · exact (lengthText _).bind fun _ _ => .ok _
        · split <;> exact .ok _
  have text : RefusesOnly own (Validation.text f v key links) := by
    unfold Validation.text
    split
    · exact .ok _
    · exact .ok _
    · exact (shown _).bind fun _ _ => lengthAndPattern _
  cases kind with
  | text | textarea => exact text
  | number =>
    show RefusesOnly own (Validation.number f v key links)
    unfold Validation.number Validation.range
    split
    · exact .ok _
    · split
      · exact .ok _
      · split
        · exact (boundText _).bind fun _ _ => .ok _
        · split
          · exact (boundText _).bind fun _ _ => .ok _
          · exact .ok _
  | date =>
    show RefusesOnly own (Validation.date f v key links)
    unfold Validation.date
    split <;> exact .ok _
  | datetime =>
    show RefusesOnly own (Validation.moment f v key links)
    unfold Validation.moment
    split <;> exact .ok _
  | select =>
    show RefusesOnly own (Validation.select f v key links)
    unfold Validation.select
    split
    · exact .ok _
    · refine (shown _).bind fun _ _ => ?_
      split <;> exact .ok _
  | checkbox =>
    show RefusesOnly own (Validation.checkbox f v key links)
    have either (ok : Bool) : RefusesOnly own (if ok then Validation.accept else
        Validation.reject f " must be checked or unchecked") := by
      split <;> exact .ok _
    exact either _
  | file =>
    show RefusesOnly own (Validation.file f v key links)
    unfold Validation.file
    split <;> exact .ok _
  | documentLink =>
    show RefusesOnly own (Validation.link f v key links)
    unfold Validation.link
    dsimp only
    split
    · exact .ok _
    · repeat' split
      all_goals exact .ok _

theorem problems_refusesOnly (form : Form) (s : Snapshot) (links : ResolvedLinks) :
    RefusesOnly own (Validation.problems .standard form s links) := by
  have checkField (f : Field) (v : Value) (key : String) (es : ErrorMap) :
      RefusesOnly own (Validation.checkField .standard links f v key es) := by
    refine RefusesOnly.bind ?_ fun m _ => ?_
    · unfold Validation.fieldProblem?
      split
      · exact .ok _
      · split
        · exact .ok _
        · split
          · exact .ok _
          · exact validator_refusesOnly f.kind f v key links
    · split <;> exact .pure _
  have checkRow (g : FieldGroup) (address : String → Address) (row : Entries) (es : ErrorMap) :
      RefusesOnly own (Validation.checkRow .standard links g address row es) :=
    .foldlM (fun f _ es => checkField f _ _ es) es
  have countMessage (g : FieldGroup) (verb : String) (bound : Int) (count : Nat) :
      RefusesOnly own (Validation.countMessage g verb bound count) :=
    (written_refusesOnly _).bind fun _ _ => (written_refusesOnly _).bind fun _ _ => .pure _
  have countProblem (g : FieldGroup) (count : Nat) :
      RefusesOnly own (Validation.countProblem? g count) := by
    unfold Validation.countProblem?
    split
    split
    · exact countMessage g _ _ _
    · split
      · split
        · exact countMessage g _ _ _
        · exact .ok _
      · exact .ok _
  have checkRows (g : FieldGroup) (rows : List Value) (es : ErrorMap) :
      RefusesOnly own (Validation.checkRows .standard links g rows es) :=
    (countProblem g _).bind fun _ _ => .foldlM (fun x _ es => checkRow g _ _ es) _
  have checkGroup (g : FieldGroup) (v : Value) (es : ErrorMap) :
      RefusesOnly own (Validation.checkGroup .standard links g v es) := by
    unfold Validation.checkGroup
    split
    · exact checkRows g _ es
    · exact checkRows g _ es
    · exact .ok _
    · exact checkRow g _ _ es
    · exact checkRow g _ _ es
    · exact .ok _
  unfold Validation.problems
  refine RefusesOnly.bind (.foldlM (fun f _ es => ?_) _) fun es _ => .foldlM (fun g _ es => ?_) _
  · exact (field_refusesOnly _ _).bind fun v _ => checkField f v _ es
  · exact (field_refusesOnly _ _).bind fun v _ => checkGroup g v es

theorem prepare_present (c : Catalog) (r : Resolver) (s : Store) (known : List DocumentType)
    (signers : Signers String) : Present (Submission.prepare .standard c r s known signers).2 := by
  have places (g : Option FieldGroup) (f : Field) :
      Present (Submission.places s.snapshot g f) := by
    unfold Submission.places
    split
    · exact .ok _
    · split
      · refine entries_refusesOnly.bind fun es _ => ?_
        split <;> exact .pure _
      · exact .ok _
  have query (types : List String) (a : Address) :
      Present (Submission.linkQuery? s.snapshot types a) := by
    have value : Present (Submission.valueAt s.snapshot a) := by
      cases a <;> exact snapshotGet_refusesOnly _ _ _ _
    refine value.bind fun v _ => ?_
    split
    · split <;> exact .pure _
    · exact .pure _
  have start : Present (Submission.begin r s known) := by
    refine RefusesOnly.bind ?_ fun _ _ => .pure _
    refine RefusesOnly.bind (.mapM fun x _ => ?_) fun _ _ => .pure _
    exact (places x.1 x.2).bind fun as _ => .mapM fun a _ => query _ a
  unfold Submission.prepare
  split
  · rename_i e he
    intro d hd
    exact start d (he.trans (congrArg Except.error (Except.error.inj hd)))
  · refine (problems_refusesOnly _ _ _).bind fun es _ => ?_
    split
    · exact .pure _
    · exact .refuse rfl

end Validation

/-! ### Templates -/

section Templates
variable {own : Refusal → Bool}

theorem scan_refusesOnly (template : String) : RefusesOnly own (Template.scan template) := by
  unfold Template.scan
  dsimp only
  split
  · exact .misuse _
  · exact .ok _

theorem unknownPlaceholders_refusesOnly (t : Template) (form : Form) :
    RefusesOnly own (t.unknownPlaceholders form) :=
  ((scan_refusesOnly _).bind fun _ _ => .pure _).bind fun _ _ => .pure _

theorem bindTemplate_refusesOnly (template : String) (s : Snapshot) (form : Option Form)
    (escape : Bool) : RefusesOnly own (Template.bind .standard template s form escape) := by
  have value (p : Placeholder) : RefusesOnly own (p.value s) := by
    unfold Placeholder.value
    split
    · exact field_refusesOnly _ _
    · refine (field_refusesOnly _ _).bind fun v _ => ?_
      split <;> exact .pure _
    · exact .ok _
  have substitute (p : Piece) : RefusesOnly own (Template.substitute .standard s form escape p) := by
    unfold Template.substitute
    split
    · exact .ok _
    · split
      · exact .ok _
      · split
        · exact .misuse _
        · exact .ok _
      · refine (value _).bind fun v _ => ?_
        exact (Rendering.writes_render v _).refusesOnly.bind fun _ _ => .pure _
  exact (RefusesOnly.mapM fun p _ => substitute p).bind fun _ _ => .pure _

theorem templateOfValue_present (v : Value) : Present (Template.ofValue v) := by
  unfold Template.ofValue
  split
  · exact .refuse rfl
  · exact entries_refusesOnly.bind fun _ _ => .pure _

end Templates

namespace Service

theorem storeOf_present (form : Form) (v : Value) : Present (storeOf form v) := by
  have groupOf (g : FieldGroup) (v : Value) : Present (Store.groupOf g v) := by
    unfold Store.groupOf
    split
    · split
      · split
        · exact .ok _
        · exact .refuse rfl
      · exact .refuse rfl
    · split
      · exact .ok _
      · exact .refuse rfl
  have loadEntry (s : Store) (key : Atom) (v : Value) : Present (s.loadEntry key v) := by
    unfold Store.loadEntry
    split
    · split
      · split <;> exact .ok _
      · split
        · exact .ok _
        · exact (groupOf _ v).bind fun _ _ => .pure _
    · exact .ok _
  have loadEntries (es : Entries) (s : Store) (e : Refusal)
      (he : (s.loadEntries es).2 = some (.refused e)) : (!e.isAbsence) = true := by
    induction es generalizing s with
    | nil => cases he
    | cons x es ih =>
      rw [Store.loadEntries] at he
      split at he
      · exact ih _ he
      · rename_i e' he'
        obtain rfl := Option.some.inj he
        exact loadEntry s x.1 x.2 e he'
  unfold storeOf
  split
  · exact .ok _
  · rename_i es
    split
    · exact .ok _
    · rename_i e he
      intro d hd
      obtain rfl := Except.error.inj hd
      exact loadEntries es (Store.empty form) d (congrArg Prod.snd he)
  · exact .refuse rfl

end Service
end DocForms
