import DocForms.Proofs.Json.Reader
import DocForms.Proofs.Shape.Meeting
import DocForms.Proofs.Snapshot
import DocForms.Proofs.Submission.Instances
import DocForms.Template.Starter

/-! Templates that are written as payloads and read again. What is written of a template has the
shape of a payload when no margin is below zero and the sections are records. It is read as the same
template when the sections are in plain form too, as all sections that come from JSON are. -/
namespace DocForms

theorem Value.IsJson.portable {v : Value} (h : v.IsJson) : v.Portable := by
  induction h with
  | @atom a ha =>
    refine .atom ?_ ?_ <;> rintro x rfl <;> cases ha
  | list _ ih => exact .list ih
  | record _ _ ih => exact .record ih

/-- What is looked up in JSON is JSON, or it is missing. -/
theorem Value.IsJson.get {es : Entries} (h : (Value.record es).IsJson) (name : String) :
    (Entries.get es name).IsJson := by
  cases h with
  | record _ hvalues =>
    rw [Entries.get, Entries.get?, Entries.lookup?]
    cases hfind : List.find? (fun e => (Atom.text name).same e.1) es with
    | none => exact .atom rfl
    | some e => exact hvalues e (List.mem_of_find?_eq_some hfind)

theorem Value.IsJson.named {es : List (String × Value)} (h : ∀ e ∈ es, e.2.IsJson) :
    (Value.named es).IsJson := by
  refine .record ?_ ?_ <;> intro e he <;> obtain ⟨x, hx, rfl⟩ := List.mem_map.mp he
  · exact ⟨x.1, rfl⟩
  · exact h x hx

@[simp] theorem Value.number?_ofNumber (n : Number) : (Value.ofNumber n).number? = some n := by
  cases n <;> rfl

theorem PageSize.ofName?_name (p : PageSize) : ofName? p.name = some p := by
  cases p <;> decide

theorem Orientation.ofName?_name (o : Orientation) : ofName? o.name = some o := by
  cases o <;> decide

/-- The margins, one for each side. -/
def Margins.sides (m : Margins) : List Number := [m.top, m.right, m.bottom, m.left]

namespace Template
variable {t t' : Template} {data : Value} {es : Entries} {form : Form}

/-- Templates whose payload says what they are. -/
structure Sound (t : Template) : Prop where
  margins : ∀ n ∈ t.margins.sides, n.lt (.int 0) = false
  records : ∀ v ∈ t.sections, ∃ es, v = .record es
  plain : Value.plainItems t.sections = t.sections

/-! ### Margins -/

/-- The shape of a margin. -/
def sideShape : Shape := [.type [.number], .minimum (.int 0)]

/-- The sides that a payload names, with the shape of each. -/
def sideShapes : List (String × Shape) :=
  [("top", sideShape), ("right", sideShape), ("bottom", sideShape), ("left", sideShape)]

theorem sideShape_meets {n : Number} (h : n.lt (.int 0) = false) :
    sideShape.Meets (.ofNumber n) := by
  refine List.forall_mem_cons.mpr ⟨?_, List.forall_mem_singleton.mpr ?_⟩
  · rw [Shape.met_type]
    exact ⟨.number, List.mem_singleton_self _, by cases n <;> rfl⟩
  · rw [Shape.Met, Shape.ruleViolations, Value.number?_ofNumber]
    simp [h]

theorem lt_of_sideShape {v : Value} {n : Number} (h : sideShape.Meets v) (hn : v.number? = some n) :
    n.lt (.int 0) = false := by
  have hmin := h _ (List.mem_cons_of_mem _ (List.mem_singleton_self _))
  rw [Shape.Met, Shape.ruleViolations, hn] at hmin
  simpa using hmin

theorem marginsOf_marginsValue (m : Margins) : marginsOf (marginsValue m) = m := by
  show Margins.mk ((Value.ofNumber m.top).number?.getD (.int 20))
    ((Value.ofNumber m.right).number?.getD (.int 20))
    ((Value.ofNumber m.bottom).number?.getD (.int 20))
    ((Value.ofNumber m.left).number?.getD (.int 20)) = m
  simp only [Value.number?_ofNumber, Option.getD_some]

theorem meets_properties {ps : List (String × Shape)} {es : List (String × Value)}
    (h : ∀ e ∈ ps, ∀ w, es.lookup e.1 = some w → e.2.Meets w) :
    Shape.Met (.named es) (.properties ps) := by
  rw [Value.named, Shape.met_properties]
  intro e he w hw
  exact h e he w ((Entries.lookup?_ofNames ..).symm.trans hw)

theorem marginsValue_meets {m : Margins} (h : ∀ n ∈ m.sides, n.lt (.int 0) = false) :
    Shape.Meets [.type [.object], .properties sideShapes] (marginsValue m) := by
  refine List.forall_mem_cons.mpr ⟨rfl, List.forall_mem_singleton.mpr (meets_properties ?_)⟩
  have hvalue (n : Number) (hn : n ∈ m.sides) (w : Value) (hw : some (.ofNumber n) = some w) :
      sideShape.Meets w := by
    obtain rfl := Option.some.inj hw
    exact sideShape_meets (h n hn)
  refine List.forall_mem_cons.mpr ⟨hvalue m.top (by simp [Margins.sides]), ?_⟩
  refine List.forall_mem_cons.mpr ⟨hvalue m.right (by simp [Margins.sides]), ?_⟩
  refine List.forall_mem_cons.mpr ⟨hvalue m.bottom (by simp [Margins.sides]), ?_⟩
  exact List.forall_mem_singleton.mpr (hvalue m.left (by simp [Margins.sides]))

theorem marginsOf_nonneg {v : Value}
    (h : Shape.Meets [.type [.object], .properties sideShapes] v) :
    ∀ n ∈ (marginsOf v).sides, n.lt (.int 0) = false := by
  obtain ⟨es, rfl⟩ := Shape.record_of_met (h _ (List.mem_cons_self ..))
  have hside (name : String) (hname : (name, sideShape) ∈ sideShapes) :
      (((Entries.get? es name).bind Value.number?).getD (.int 20)).lt (.int 0) = false := by
    cases hw : (Entries.get? es name).bind Value.number? with
    | none => rfl
    | some n =>
      obtain ⟨w, hget, hn⟩ := Option.bind_eq_some_iff.mp hw
      have hmeets : sideShape.Meets w :=
        h.property (e := (name, sideShape)) (by simp) hname hget
      exact lt_of_sideShape hmeets hn
  refine List.forall_mem_cons.mpr ⟨hside "top" (by simp [sideShapes]), ?_⟩
  refine List.forall_mem_cons.mpr ⟨hside "right" (by simp [sideShapes]), ?_⟩
  refine List.forall_mem_cons.mpr ⟨hside "bottom" (by simp [sideShapes]), ?_⟩
  exact List.forall_mem_singleton.mpr (hside "left" (by simp [sideShapes]))

/-! ### Payloads -/

/-- The entries that a payload may have, with the shape of each. -/
def entryShapes : List (String × Shape) :=
  [("content", [.type [.string]]),
   ("sections", [.type [.array], .items [.type [.object]]]),
   ("pageSize", [.oneOf (PageSize.all.map fun p => .text p.name)]),
   ("orientation", [.oneOf (Orientation.all.map fun o => .text o.name)]),
   ("margins", [.type [.object], .properties sideShapes])]

theorem shape_eq : shape = [.type [.object], .required ["content"], .properties entryShapes] := rfl

/-- An entry of a payload has the shape that is asked of it. -/
theorem entry_meets {name : String} {s : Shape} {v : Value} (h : shape.Meets (.record es))
    (hs : (name, s) ∈ entryShapes) (hv : Entries.get? es name = some v) : s.Meets v :=
  h.property (e := (name, s)) (by simp [shape_eq]) hs hv

/-- What is read from a payload. -/
theorem ofValue_eq_ok (h : ofValue data = .ok t) : ∃ es, data = .record es ∧ shape.Meets data ∧
    t.margins = marginsOf (Entries.get es "margins") ∧
    (t.sections = [] ∨ Entries.get es "sections" = .list t.sections) := by
  unfold ofValue at h
  split at h
  · exact absurd h refuse_ne_ok
  · rename_i hnone
    have hmeets := Shape.violation?_eq_none.mp hnone
    obtain ⟨es, hes, h⟩ := bind_eq_ok.mp h
    obtain ⟨es', rfl⟩ := Shape.record_of_met (hmeets _ (List.mem_cons_self ..))
    obtain rfl := Except.ok.inj hes
    obtain rfl := pure_eq_ok.mp h
    refine ⟨es', rfl, hmeets, rfl, ?_⟩
    dsimp only
    split
    · rename_i vs hvs
      exact .inr hvs
    · exact .inl rfl

/-- The margins that are read are not below zero, and the sections are records. -/
theorem margins_of_ofValue (h : ofValue data = .ok t) :
    (∀ n ∈ t.margins.sides, n.lt (.int 0) = false) ∧ ∀ v ∈ t.sections, ∃ es, v = .record es := by
  obtain ⟨es, rfl, hmeets, hmargins, hsections⟩ := ofValue_eq_ok h
  constructor
  · rw [hmargins]
    cases hv : Entries.get? es "margins" with
    | none =>
      rw [Entries.get, hv]
      decide
    | some v =>
      rw [Entries.get, hv]
      exact marginsOf_nonneg (entry_meets hmeets (by simp [entryShapes]) hv)
  · rcases hsections with hnil | hlist
    · simp [hnil]
    · cases hv : Entries.get? es "sections" with
      | none => simp [Entries.get, hv] at hlist
      | some v =>
        rw [Entries.get, hv] at hlist
        obtain rfl : v = .list t.sections := hlist
        have hshape : Shape.Meets [.type [.array], .items [.type [.object]]] (.list t.sections) :=
          entry_meets hmeets (by simp [entryShapes]) hv
        intro w hw
        have hitems := Shape.met_items.mp (hshape (.items [.type [.object]]) (by simp)) w hw
        exact Shape.record_of_met (hitems _ (List.mem_singleton_self _))

/-- The sections of a payload, if there are any. -/
def sectionEntries (vs : List Value) : List (String × Value) :=
  if vs.isEmpty then [] else [("sections", .list (Value.plainItems vs))]

theorem records_plainItems {vs : List Value} (h : ∀ v ∈ vs, ∃ es, v = .record es) :
    ∀ v ∈ Value.plainItems vs, ∃ es, v = .record es := by
  intro v hv
  rw [Value.plainItems_eq_map] at hv
  obtain ⟨w, hw, rfl⟩ := List.mem_map.mp hv
  obtain ⟨es, rfl⟩ := h w hw
  exact ⟨_, Value.plain_record es⟩

theorem lookup_sectionEntries {vs : List Value} {name : String} {v : Value}
    (h : (sectionEntries vs).lookup name = some v) :
    name = "sections" ∧ v = .list (Value.plainItems vs) := by
  unfold sectionEntries at h
  split at h
  · cases h
  · rw [List.lookup_cons] at h
    split at h
    · rename_i hname
      exact ⟨beq_iff_eq.mp hname, (Option.some.inj h).symm⟩
    · cases h

/-- What is written has the shape of a payload. -/
theorem toValue_meets (hmargins : ∀ n ∈ t.margins.sides, n.lt (.int 0) = false)
    (hrecords : ∀ v ∈ t.sections, ∃ es, v = .record es) : shape.Meets t.toValue := by
  rw [shape_eq]
  refine List.forall_mem_cons.mpr ⟨rfl, List.forall_mem_cons.mpr ⟨?_, ?_⟩⟩
  · rw [toValue, Value.named, Shape.met_required]
    exact List.forall_mem_singleton.mpr rfl
  refine List.forall_mem_singleton.mpr (meets_properties ?_)
  refine List.forall_mem_cons.mpr ⟨?content, List.forall_mem_cons.mpr ⟨?sections,
    List.forall_mem_cons.mpr ⟨?size, List.forall_mem_cons.mpr ⟨?orientation,
      List.forall_mem_singleton.mpr ?margins⟩⟩⟩⟩
  case content =>
    intro w hw
    obtain rfl := Option.some.inj hw
    exact List.forall_mem_singleton.mpr rfl
  case sections =>
    intro w hw
    have hsections : (sectionEntries t.sections).lookup "sections" = some w := hw
    obtain ⟨-, rfl⟩ := lookup_sectionEntries hsections
    refine List.forall_mem_cons.mpr ⟨rfl, List.forall_mem_singleton.mpr (Shape.met_items.mpr ?_)⟩
    intro v hv
    obtain ⟨es, rfl⟩ := records_plainItems hrecords v hv
    exact List.forall_mem_singleton.mpr rfl
  case size =>
    intro w hw
    obtain rfl := Option.some.inj hw
    refine List.forall_mem_singleton.mpr (Shape.met_oneOf.mpr ⟨.text t.pageSize.name, ?_, ?_⟩)
    · exact List.mem_map.mpr ⟨t.pageSize, by cases t.pageSize <;> decide, rfl⟩
    · exact beq_self_eq_true t.pageSize.name
  case orientation =>
    intro w hw
    obtain rfl := Option.some.inj hw
    refine List.forall_mem_singleton.mpr (Shape.met_oneOf.mpr ⟨.text t.orientation.name, ?_, ?_⟩)
    · exact List.mem_map.mpr ⟨t.orientation, by cases t.orientation <;> decide, rfl⟩
    · exact beq_self_eq_true t.orientation.name
  case margins =>
    intro w hw
    obtain rfl := Option.some.inj hw
    exact marginsValue_meets hmargins

/-- What is written is read with the sections in plain form. -/
theorem ofValue_toValue (hmargins : ∀ n ∈ t.margins.sides, n.lt (.int 0) = false)
    (hrecords : ∀ v ∈ t.sections, ∃ es, v = .record es) :
    ofValue t.toValue = .ok { t with sections := Value.plainItems t.sections } := by
  have hparts (vs : List Value) : Template.mk t.content
      ((PageSize.ofName? t.pageSize.name).getD .a4)
      ((Orientation.ofName? t.orientation.name).getD .portrait)
      (marginsOf (marginsValue t.margins)) vs = { t with sections := vs } := by
    rw [PageSize.ofName?_name, Orientation.ofName?_name, marginsOf_marginsValue]
    rfl
  rw [ofValue, Shape.violation?_eq_none.mpr (toValue_meets hmargins hrecords)]
  cases hsections : t.sections with
  | nil =>
    rw [toValue, hsections]
    exact congrArg Except.ok (hparts [])
  | cons v vs =>
    rw [toValue, hsections]
    exact congrArg Except.ok (hparts (Value.plainItems (v :: vs)))

/-- The templates whose payload is read as what they are. -/
theorem reread_iff : ofValue t.toValue = .ok t ↔ t.Sound := by
  constructor
  · intro h
    obtain ⟨hmargins, hrecords⟩ := margins_of_ofValue h
    refine ⟨hmargins, hrecords, ?_⟩
    rw [ofValue_toValue hmargins hrecords] at h
    exact congrArg Template.sections (Except.ok.inj h)
  · intro h
    rw [ofValue_toValue h.margins h.records, h.plain]

/-! ### Templates that come from JSON -/

theorem sound_of_ofValue (hdata : data.IsJson) (h : ofValue data = .ok t) : t.Sound := by
  obtain ⟨hmargins, hrecords⟩ := margins_of_ofValue h
  refine ⟨hmargins, hrecords, ?_⟩
  obtain ⟨es, rfl, -, -, hnil | hlist⟩ := ofValue_eq_ok h
  · rw [hnil]
    rfl
  · have hjson : (Value.list t.sections).IsJson := by
      rw [← hlist]
      exact hdata.get "sections"
    exact Value.list.inj hjson.portable.plain

theorem sound_starter (form : Form) : (starter form).Sound := by
  have hmargins : ∀ n ∈ ({} : Margins).sides, n.lt (.int 0) = false := by decide
  exact ⟨hmargins, by simp [starter], rfl⟩

/-- Binding changes the content only. -/
theorem Sound.bound {rs : Renderers} {s : Snapshot} {form : Option Form} (h : t.Sound)
    (hb : t.bound rs s form = .ok t') : t'.Sound := by
  obtain ⟨content, -, hb⟩ := bind_eq_ok.mp hb
  obtain rfl := pure_eq_ok.mp hb
  exact ⟨h.margins, h.records, h.plain⟩

/-- The templates that are read from JSON, the starter templates, and what binding makes of them. -/
inductive Produced : Template → Prop
  | read {data : Value} {t : Template} : data.IsJson → ofValue data = .ok t → Produced t
  | starter (form : Form) : Produced (starter form)
  | bound {t t' : Template} {rs : Renderers} {s : Snapshot} {form : Option Form} : Produced t →
      t.bound rs s form = .ok t' → Produced t'

theorem Produced.sound (h : Produced t) : t.Sound := by
  induction h with
  | read hdata h => exact sound_of_ofValue hdata h
  | starter form => exact sound_starter form
  | bound _ hb ih => exact ih.bound hb

/-- The payload of the template that a payload describes. -/
def normalised (data : Value) : Except Fault Value := do
  return (← ofValue data).toValue

/-- Templates are read from their payloads as what they are, and so a payload that has been
normalised stays as it is. -/
theorem payload_roundtrip : (∀ t, Produced t → ofValue t.toValue = .ok t) ∧
    ∀ data p, data.IsJson → normalised data = .ok p → normalised p = .ok p := by
  constructor
  · intro t h
    exact reread_iff.mpr h.sound
  · intro data p hdata h
    obtain ⟨t, ht, h⟩ := bind_eq_ok.mp h
    obtain rfl := pure_eq_ok.mp h
    rw [normalised, reread_iff.mpr (sound_of_ofValue hdata ht)]
    rfl

/-- A letter in the older layout, printed up to the upper edge of the page. -/
def legacyLetter : Value :=
  .named [("content", .text "<p>Dear</p>"),
    ("sections", .list [.named [("rows", .list [.int 1, .null])]]),
    ("margins", .named [("top", .int 0)])]

theorem legacyLetter_isJson : legacyLetter.IsJson := by
  have hrows : (Value.list [.int 1, .null]).IsJson := by
    refine .list (List.forall_mem_cons.mpr ⟨.atom rfl, List.forall_mem_singleton.mpr (.atom rfl)⟩)
  refine .named (List.forall_mem_cons.mpr ⟨.atom rfl, List.forall_mem_cons.mpr ⟨?_, ?_⟩⟩)
  · exact .list (List.forall_mem_singleton.mpr (.named (List.forall_mem_singleton.mpr hrows)))
  · exact List.forall_mem_singleton.mpr (.named (List.forall_mem_singleton.mpr (.atom rfl)))

theorem payload_roundtrip_legacyLetter : ∃ t p, ofValue legacyLetter = .ok t ∧
    t.margins.sides = [.int 0, .int 20, .int 20, .int 20] ∧
    t.sections = [.named [("rows", .list [.int 1, .null])]] ∧
    ofValue t.toValue = .ok t ∧ normalised legacyLetter = .ok p ∧ normalised p = .ok p := by
  obtain ⟨hread, hnormal⟩ := payload_roundtrip
  have ht : ofValue legacyLetter = .ok {
      content := "<p>Dear</p>", margins := { top := .int 0 },
      sections := [.named [("rows", .list [.int 1, .null])]] } := by decide +kernel
  have hp := congrArg (fun r => r >>= fun t => pure t.toValue) ht
  exact ⟨_, _, ht, rfl, rfl, hread _ (.read legacyLetter_isJson ht), hp,
    hnormal _ _ legacyLetter_isJson hp⟩

end Template
end DocForms
