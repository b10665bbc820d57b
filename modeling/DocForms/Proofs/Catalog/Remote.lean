import DocForms.Catalog.Remote
import DocForms.Proofs.Fault
import DocForms.Proofs.Value.Entries

/-! What a remote catalog makes of the answers that reach it. An answer lists values of any kind.
The first record among them with just the number asked for is the document that is given back,
whatever stands before it; a search fails only as searches in a catalog do, and just when no answer
can be read. The number is compared, the type is not: a record that names a type is a document of
that type, so the document can be of another type than the one asked for. -/
namespace DocForms
variable {d : Delivery} {address : String} {vs : List Value} {e : Fault} {t n : String}
  {v : Value} {es : Entries}

/-- A failure of a search in a catalog. -/
def Fault.OfCatalog (e : Fault) : Prop :=
  ∃ problem status body, e = .refused (.catalog problem status body)

namespace Delivery

/-- An answer tells a value: its status is no error, and its body is read as the value. -/
structure Tells (d : Delivery) (address : String) (v : Value) : Prop where
  accepted : d.statusProblem? address = none
  legible : d.obstacle = none
  read : Json.read d.body = .ok v

theorem documents_eq_ok : d.documents address = .ok vs ↔ ∃ v, d.Tells address v ∧ listed v = vs := by
  constructor
  · intro h
    unfold documents at h
    split at h
    · cases h
    · cases h
    · rename_i v hstatus hobstacle hread
      exact ⟨v, ⟨hstatus, hobstacle, hread⟩, Except.ok.inj h⟩
    · split at h <;> cases h
  · rintro ⟨v, ⟨hstatus, hobstacle, hread⟩, rfl⟩
    rw [documents, hstatus, hobstacle, hread]

theorem documents_eq_error (h : d.documents address = .error e) : e.OfCatalog := by
  unfold documents at h
  split at h
  · exact ⟨_, _, _, (Except.error.inj h).symm⟩
  · exact ⟨_, _, _, (Except.error.inj h).symm⟩
  · cases h
  · split at h
    · exact ⟨_, _, _, (Except.error.inj h).symm⟩
    · exact ⟨_, _, _, (Except.error.inj h).symm⟩

/-- What a line brings tells a value. -/
def Brings (x : Except String Delivery) (address : String) (v : Value) : Prop :=
  ∃ d, x = .ok d ∧ d.Tells address v

theorem received_eq_ok {x : Except String Delivery} :
    received address x = .ok vs ↔ ∃ v, Brings x address v ∧ listed v = vs := by
  cases x with
  | error problem =>
    refine iff_of_false nofun ?_
    rintro ⟨v, ⟨d, hd, -⟩, -⟩
    cases hd
  | ok d =>
    refine documents_eq_ok.trans (exists_congr fun v => and_congr_left fun _ => ?_)
    constructor
    · exact fun h => ⟨d, rfl, h⟩
    · rintro ⟨d', hd, h⟩
      exact Except.ok.inj hd ▸ h

theorem received_eq_error {x : Except String Delivery} (h : received address x = .error e) :
    e.OfCatalog := by
  cases x with
  | error problem => exact ⟨_, _, _, (Except.error.inj h).symm⟩
  | ok d => exact documents_eq_error h

end Delivery

/-- The values begin with some that are no records with the number, and the record is next, which
has it. -/
def FirstWith (n : String) (vs : List Value) (es : Entries) : Prop :=
  ∃ before after, vs = before ++ .record es :: after ∧
    (∀ fs, .record fs ∈ before → Entries.get? fs "documentNumber" ≠ some (.text n)) ∧
    Entries.get? es "documentNumber" = some (.text n)

/-- The type that a record names, as a text. -/
def Entries.typeNamed (es : Entries) : Option String :=
  (es.get? "documentTypeId").map (·.display .loose)

/-- The document with a number that a record describes, of a type if the record names none. -/
def Document.described (t n : String) (es : Entries) : Document where
  number := .text n
  typeId := es.typeNamed.getD t
  status := es.get "status"
  id := if (es.get "id").isNull then none else some ((es.get "id").display .loose)
  extra := es.filter fun e => !Document.known.any fun name => e.1.same (.text name)

namespace Remote
variable {r : Remote} {line : Line}

theorem hasNumber_iff : hasNumber (.text n) v = true ↔
    ∃ es, v = .record es ∧ Entries.get? es "documentNumber" = some (.text n) := by
  cases v with
  | record es =>
    refine Value.same_text_iff.trans (Entries.get_eq_text.trans ?_)
    simp
  | _ => exact iff_of_false nofun nofun

theorem ofValue_typed {own : Value} (hnumber : Entries.get? es "documentNumber" = some (.text n))
    (htype : Entries.get? es "documentTypeId" = some own) :
    Document.ofValue (.record es) = .ok (Document.described t n es) := by
  simp only [Document.ofValue, hnumber, htype]
  simp only [Document.described, Entries.typeNamed, htype, Option.map_some, Option.getD_some]

/-- A record with the number is always a document. -/
theorem describe_eq (h : Entries.get? es "documentNumber" = some (.text n)) :
    describe (.text t) (.record es) = .ok (Document.described t n es) := by
  cases hown : Entries.get? es "documentTypeId" with
  | some own =>
    have hhas : es.has "documentTypeId" = true :=
      Bool.ne_false_iff.mp fun hno => nomatch hown.symm.trans (Entries.get?_eq_none.mpr hno)
    simp only [describe, Value.entries, bind, Except.bind, hhas, if_true]
    rw [ofValue_typed h hown]
    rfl
  | none =>
    have hhas := Entries.get?_eq_none.mp hown
    -- the record with the type that was asked for put last
    let fs : Entries := es ++ [(.text "documentTypeId", .text t)]
    have hsame (name : String) (hname : name ≠ "documentTypeId") : fs.get? name = es.get? name := by
      have hlast : Entries.get? [(.text "documentTypeId", .text t)] name = none := by
        simp [Entries.get?, Entries.lookup?, Atom.same, hname]
      rw [Entries.get?_append, hlast, Option.or_none]
    have htype : fs.get? "documentTypeId" = some (.text t) := by
      rw [Entries.get?_append, hown]
      rfl
    have hdescribed : Document.described t n fs = Document.described t n es := by
      have hextra : (fs.filter fun e => !Document.known.any fun name => e.1.same (.text name)) =
          es.filter fun e => !Document.known.any fun name => e.1.same (.text name) := by
        rw [List.filter_append]
        exact List.append_nil _
      simp only [Document.described, Entries.typeNamed, Entries.get, htype, hown, hextra,
        hsame "status" (by decide), hsame "id" (by decide)]
      rfl
    have hnumber := (hsame "documentNumber" (by decide)).trans h
    simp only [describe, Value.entries, bind, Except.bind, hhas, Bool.false_eq_true, if_false,
      Entries.set_of_absent hhas]
    rw [ofValue_typed hnumber htype, hdescribed]
    rfl

theorem find?_hasNumber_eq_some : vs.find? (hasNumber (.text n)) = some v ↔
    ∃ es, v = .record es ∧ FirstWith n vs es := by
  rw [List.find?_eq_some_iff_append, hasNumber_iff]
  constructor
  · rintro ⟨⟨es, rfl, hnumber⟩, before, after, rfl, hbefore⟩
    refine ⟨es, rfl, before, after, rfl, fun fs hfs hfs' => ?_, hnumber⟩
    have hno := hbefore (.record fs) hfs
    rw [hasNumber_iff.mpr ⟨fs, rfl, hfs'⟩] at hno
    cases hno
  · rintro ⟨es, rfl, before, after, rfl, hbefore, hnumber⟩
    refine ⟨⟨es, rfl, hnumber⟩, before, after, rfl, fun w hw => ?_⟩
    refine Bool.not_eq_true' _ |>.mpr (Bool.eq_false_iff.mpr fun hno => ?_)
    obtain ⟨fs, rfl, hfs⟩ := hasNumber_iff.mp hno
    exact hbefore fs hw hfs

theorem find?_hasNumber_eq_none : vs.find? (hasNumber (.text n)) = none ↔
    ∀ es, .record es ∈ vs → Entries.get? es "documentNumber" ≠ some (.text n) := by
  rw [List.find?_eq_none]
  constructor
  · exact fun h es hes hnumber => h _ hes (hasNumber_iff.mpr ⟨es, rfl, hnumber⟩)
  · intro h v hv hno
    obtain ⟨es, rfl, hnumber⟩ := hasNumber_iff.mp hno
    exact h es hv hnumber

theorem find?_eq_none (h : r.search line (.text t) (.text n) = .ok vs)
    (hvs : vs.find? (hasNumber (.text n)) = none) :
    r.find? line (.text t) (.text n) = .ok none := by
  simp only [find?, h, bind, Except.bind, hvs]
  rfl

theorem find?_eq_some (h : r.search line (.text t) (.text n) = .ok vs) (hes : FirstWith n vs es) :
    r.find? line (.text t) (.text n) = .ok (some (Document.described t n es)) := by
  have hfind := find?_hasNumber_eq_some.mpr ⟨es, rfl, hes⟩
  obtain ⟨-, -, -, -, hnumber⟩ := hes
  simp only [find?, h, bind, Except.bind, hfind, describe_eq hnumber]
  rfl

theorem firstWith_unique {fs : Entries} (hes : FirstWith n vs es) (hfs : FirstWith n vs fs) :
    es = fs := by
  have hsome := (find?_hasNumber_eq_some.mpr ⟨es, rfl, hes⟩).symm.trans
    (find?_hasNumber_eq_some.mpr ⟨fs, rfl, hfs⟩)
  exact Value.record.inj (Option.some.inj hsome)

/-- Values that have been brought hold the document or they do not. -/
theorem find?_of_search (h : r.search line (.text t) (.text n) = .ok vs) :
    (r.find? line (.text t) (.text n) = .ok none ∧
      ∀ es, .record es ∈ vs → Entries.get? es "documentNumber" ≠ some (.text n)) ∨
    ∃ es, FirstWith n vs es ∧
      r.find? line (.text t) (.text n) = .ok (some (Document.described t n es)) := by
  cases hfind : vs.find? (hasNumber (.text n)) with
  | none => exact .inl ⟨find?_eq_none h hfind, find?_hasNumber_eq_none.mp hfind⟩
  | some v =>
    obtain ⟨es, rfl, hes⟩ := find?_hasNumber_eq_some.mp hfind
    exact .inr ⟨es, hes, find?_eq_some h hes⟩

/-- The search alone decides whether there is a result. -/
theorem find?_eq_error : r.find? line (.text t) (.text n) = .error e ↔
    r.search line (.text t) (.text n) = .error e := by
  refine ⟨fun he => ?_, fun he => bind_eq_error.mpr (.inl he)⟩
  cases hs : r.search line (.text t) (.text n) with
  | error e' =>
    obtain rfl := Except.error.inj ((bind_eq_error.mpr (.inl hs)).symm.trans he)
    rfl
  | ok vs =>
    obtain ⟨hnone, -⟩ | ⟨es, -, hsome⟩ := find?_of_search hs
    · cases hnone.symm.trans he
    · cases hsome.symm.trans he

theorem search_fails_iff : (∃ e, r.search line (.text t) (.text n) = .error e) ↔
    ∀ v, ¬ Delivery.Brings (line (r.enquiry (.text t) (.text n)))
      (r.enquiry (.text t) (.text n)).address v := by
  cases hs : r.search line (.text t) (.text n) with
  | error e =>
    refine iff_of_true ⟨e, rfl⟩ fun v hv => ?_
    cases hs.symm.trans (Delivery.received_eq_ok.mpr ⟨v, hv, rfl⟩)
  | ok vs =>
    obtain ⟨v, hv, -⟩ := Delivery.received_eq_ok.mp hs
    exact iff_of_false nofun fun h => h v hv

theorem typeId_described : (Document.described t n es).typeId = t ↔ ∀ own ∈ es.typeNamed, own = t := by
  cases h : es.typeNamed with
  | none => exact iff_of_true (by simp [Document.described, h]) nofun
  | some own => simp [Document.described, h]

/-- A search fails only as a search in a catalog, and just when no answer can be read. What it then
finds is what the first record with the number describes, and nothing if there is none. That is a
document of the type asked for unless the record names another type. -/
theorem find?_first_with_number (r : Remote) (line : Line) (t n : String) :
    let q := r.enquiry (.text t) (.text n)
    let outcome := r.find? line (.text t) (.text n)
    (∀ e, outcome = .error e → e.OfCatalog) ∧
    ((∃ e, outcome = .error e) ↔ ∀ v, ¬ Delivery.Brings (line q) q.address v) ∧
    ∀ v, Delivery.Brings (line q) q.address v →
      (outcome = .ok none ↔ ∀ es, .record es ∈ Delivery.listed v →
        Entries.get? es "documentNumber" ≠ some (.text n)) ∧
      (∀ d, outcome = .ok (some d) ↔
        ∃ es, FirstWith n (Delivery.listed v) es ∧ d = Document.described t n es) ∧
      ∀ d, outcome = .ok (some d) → d.number = .text n ∧
        (d.typeId = t ↔ ∀ es, FirstWith n (Delivery.listed v) es → ∀ own ∈ es.typeNamed, own = t) := by
  intro q outcome
  refine ⟨fun e he => Delivery.received_eq_error (find?_eq_error.mp he),
    (exists_congr fun e => find?_eq_error).trans search_fails_iff, fun v hv => ?_⟩
  have hs : r.search line (.text t) (.text n) = .ok (Delivery.listed v) :=
    Delivery.received_eq_ok.mpr ⟨v, hv, rfl⟩
  have hnone : outcome = .ok none → ∀ es, .record es ∈ Delivery.listed v →
      Entries.get? es "documentNumber" ≠ some (.text n) := by
    intro hnone
    obtain ⟨-, h⟩ | ⟨es, -, hsome⟩ := find?_of_search hs
    · exact h
    · cases hsome.symm.trans hnone
  have hsome (d : Document) (hd : outcome = .ok (some d)) :
      ∃ es, FirstWith n (Delivery.listed v) es ∧ d = Document.described t n es := by
    obtain ⟨hnone, -⟩ | ⟨es, hes, hsome⟩ := find?_of_search hs
    · cases hnone.symm.trans hd
    · exact ⟨es, hes, Option.some.inj (Except.ok.inj (hd.symm.trans hsome))⟩
  refine ⟨⟨hnone, fun h => find?_eq_none hs (find?_hasNumber_eq_none.mpr h)⟩,
    fun d => ⟨hsome d, ?_⟩, fun d hd => ?_⟩
  · rintro ⟨es, hes, rfl⟩
    exact find?_eq_some hs hes
  · obtain ⟨es, hes, rfl⟩ := hsome d hd
    refine ⟨rfl, typeId_described.trans ⟨fun h fs hfs => ?_, fun h => h es hes⟩⟩
    exact firstWith_unique hes hfs ▸ h

/-- A catalog at an address. -/
private def archive : Remote where
  base := "https://d.example/api"
  timeout := .int 30

/-- A line that brings one document with the number X-1, which names type b. -/
private def looseLine : Line := fun _ =>
  .ok { body := "[7, \x7b\"documentNumber\": \"X-1\", \"documentTypeId\": \"b\"\x7d]" }

theorem find?_first_with_number_loose :
    let q := archive.enquiry (.text "a") (.text "X-1")
    let entry : Entries := [(.text "documentNumber", .text "X-1"), (.text "documentTypeId", .text "b")]
    Delivery.Brings (looseLine q) q.address (.list [.int 7, .record entry]) ∧
    archive.find? looseLine (.text "a") (.text "X-1") =
      .ok (some (Document.described "a" "X-1" entry)) := by
  intro q entry
  have hbrings : Delivery.Brings (looseLine q) q.address (.list [.int 7, .record entry]) :=
    ⟨_, rfl, by decide +kernel, rfl, by decide +kernel⟩
  have h := (find?_first_with_number archive looseLine "a" "X-1").2.2 _ hbrings
  have hfirst : FirstWith "X-1" [.int 7, .record entry] entry :=
    ⟨[.int 7], [], rfl, by simp, rfl⟩
  exact ⟨hbrings, (h.2.1 _).mpr ⟨entry, hfirst, rfl⟩⟩

/-- A document that is found need not be of the type that was asked for. -/
theorem foreign_type_found : ¬ ∀ (r : Remote) (line : Line) (t n : String) (d : Document),
    r.find? line (.text t) (.text n) = .ok (some d) → d.number = .text n ∧ d.typeId = t := by
  intro h
  have hfound : archive.find? looseLine (.text "a") (.text "X-1") =
      .ok (some { number := .text "X-1", typeId := "b" }) := by decide +kernel
  exact absurd (h _ _ _ _ _ hfound).2 (by decide)

end Remote
end DocForms
