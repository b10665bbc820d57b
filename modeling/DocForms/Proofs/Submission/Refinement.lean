import DocForms.Proofs.Links.Freshness
import DocForms.Proofs.Submission.Waiting
import DocForms.Proofs.Validation.Places

/-! Submitting a document comes to what one would expect without a resolver: the values are
validated with the first hits for the numbers of their links. -/
namespace DocForms.Submission
open Resolver (Fair Move Turns reached reached_undisturbed)
open Board (Sound Settling Undisturbed)

variable {reply : String → String → Reply} {s : Store} {known : List DocumentType}
  {signers : Signers String} {ms : List Move} {vs : Validators}

/-- What the catalogs say about the places of links: the first hit for the number without the white
space around it, among the types that the field can refer to. -/
def referenceLinks (reply : String → String → Reply) (s : Store) (known : List DocumentType) :
    ResolvedLinks :=
  (s.instances.filter (·.1.kind = .documentLink)).map fun (f, a) =>
    (a.key, (s.linkAt? a).bind fun l =>
      firstHit reply (Text.trim l.documentNumber) (f.candidates s.form.type.id known))

/-- A link of the store with a number. -/
structure Linked (s : Store) (f : Field) (a : Address) (l : LinkValue) : Prop where
  mem : (f, a) ∈ s.instances
  kind : f.kind = .documentLink
  link : s.linkAt? a = some l
  number : Text.isBlankText l.documentNumber = false

theorem mem_linkQueries {e : String × LinkQuery} : e ∈ s.linkQueries known ↔
    ∃ f a l, Linked s f a l ∧
      e = (a.key, ⟨.text l.documentNumber, f.candidates s.form.type.id known⟩) := by
  constructor
  · intro h
    obtain ⟨⟨f, a⟩, hmem, hq⟩ := List.mem_filterMap.mp h
    obtain ⟨hmem, hkind⟩ := List.mem_filter.mp hmem
    simp only [Store.linkQuery?] at hq
    split at hq
    · rename_i l hl
      split at hq
      · cases hq
      · rename_i hb
        exact ⟨f, a, l, ⟨hmem, by simpa using hkind, hl, by simpa using hb⟩, (Option.some.inj hq).symm⟩
    · cases hq
  · rintro ⟨f, a, l, h, rfl⟩
    refine List.mem_filterMap.mpr ⟨(f, a), List.mem_filter.mpr ⟨h.mem, by simpa using h.kind⟩, ?_⟩
    simp [Store.linkQuery?, h.link, h.number]

theorem linkQueries_functional (hn : s.form.WellNamed) (known : List DocumentType) :
    ∀ e ∈ s.linkQueries known, ∀ e' ∈ s.linkQueries known, e.1 = e'.1 → e.2 = e'.2 := by
  intro e he e' he' hk
  obtain ⟨f, a, l, h, rfl⟩ := mem_linkQueries.mp he
  obtain ⟨f', a', l', h', rfl⟩ := mem_linkQueries.mp he'
  obtain ⟨rfl, rfl⟩ := Store.instance_of_key hn h.mem h'.mem hk
  obtain rfl : l = l' := Option.some.inj (h.link.symm.trans h'.link)
  rfl

theorem linkQueries_wanted : ∀ e ∈ s.linkQueries known,
    ∃ number, LinkQuery.wanted? e.2.number = .ok (some number) := by
  intro e he
  obtain ⟨f, a, l, h, rfl⟩ := mem_linkQueries.mp he
  exact ⟨_, LinkQuery.wanted?_text h.number⟩

theorem referenceLinks_document? (hn : s.form.WellNamed) {f : Field} {a : Address} {l : LinkValue}
    (h : Linked s f a l) : (referenceLinks reply s known).document? a.key =
      firstHit reply (Text.trim l.documentNumber) (f.candidates s.form.type.id known) := by
  have hget : Keyed.get? (referenceLinks reply s known) a.key = some
      (firstHit reply (Text.trim l.documentNumber) (f.candidates s.form.type.id known)) := by
    refine Keyed.get?_of_unique ?_ fun b hb => ?_
    · refine List.mem_map.mpr ⟨(f, a), List.mem_filter.mpr ⟨h.mem, by simpa using h.kind⟩, ?_⟩
      simp [h.link]
    · obtain ⟨⟨f', a'⟩, hmem, he⟩ := List.mem_map.mp hb
      obtain ⟨hk, rfl⟩ := Prod.mk.inj he
      obtain ⟨rfl, rfl⟩ := Store.instance_of_key hn (List.mem_filter.mp hmem).1 h.mem hk
      simp [h.link]
  exact congrArg Option.join hget

/-- An answered query is answered by the first hit. -/
theorem resolved_document? {r : Resolver} (hs : Sound (Saying reply) r.board) {key : String}
    {q : LinkQuery} {number : String} (hw : LinkQuery.wanted? q.number = .ok (some number))
    (ha : r.board.answers key q = true) :
    ResolvedLinks.document? r.resolved key = firstHit reply number q.types := by
  obtain ⟨e, he, rfl⟩ := Board.answers_iff.mp ha
  have hfound : r.resolved.get? key = some e.document := by
    rw [Resolver.resolved_get?, ← Resolver.board_cache, he]
    rfl
  have hfirst := (hs.found key e he).eq_firstHit hw
  rw [← hfirst]
  exact congrArg Option.join hfound

/-- Once the wait is over, the resolver knows of the links of the store what the catalogs say. -/
theorem settled_sameLinks (hn : s.form.WellNamed) {r : Resolver} {t : Nat}
    (hs : Settling (Saying reply) (s.linkQueries known) t r.board) (hf : r.isFinished t = true) :
    s.SameLinks r.resolved (referenceLinks reply s known) := by
  intro f a hmem hkind l hl hb
  have h : Linked s f a l := ⟨hmem, hkind, hl, hb⟩
  obtain ⟨k, hk, -, -, hdone⟩ := hs.task
  rw [Resolver.isFinished_eq hk] at hf
  have ha := hdone hf _ (mem_linkQueries.mpr ⟨f, a, l, h, rfl⟩)
  rw [referenceLinks_document? hn h]
  exact resolved_document? hs.sound (LinkQuery.wanted?_text hb) ha

/-- Whatever the resolver has been used for before, and in whatever order the lookups go on, a
submission is decided by the validation of its values with what the catalogs say about its links:
it accepts the document if that finds no problem, and refuses it with just the problems that it
finds. In every fair order the wait for the lookups ends. The validators are the standard ones, or
others that do not use more of the links than they do. -/
theorem prepare_refines_reference {registry : Registry} (hreg : registry.Reachable) {typeId : String}
    {form : Form} (hform : registry.getForm typeId = .ok form) (hs : s.form = form)
    (hvs : vs.Local) (hr : Steadfast reply) (hms : ∀ c t, .turn c t ∈ ms → Saying reply c)
    (hx : ∀ t, .cancel t ∉ ms) {es : ErrorMap}
    (hes : Validation.problems vs form s.snapshot (referenceLinks reply s known) = .ok es) :
    let verdict : Except Fault Submission :=
      if es.isEmpty then .ok ⟨form.type.id, s.snapshot, signers⟩ else refuse (.valuesInvalid es)
    ∃ r t, begin (reached ms) s known = .ok (r, t) ∧
      (∀ r', Turns reply r r' → r'.isFinished t = true →
        judge vs s signers r'.resolved = verdict) ∧
      (∀ order, Fair reply r order → ∃ n, (r.after order n).isFinished t = true) ∧
      ((∀ u, ¬ r.Calls u) → ∃ order, Fair reply r order) ∧
      ∀ c, Saying reply c → ∀ p, prepare vs c (reached ms) s known signers = p →
        ((∀ u, ¬ r.Calls u) → p.1.isFinished t = true → p.2 = verdict) ∧
        ((∀ number, c.isOpen number = true) → (reached ms).AtRest →
          p.1.isFinished t = true ∧ p.2 = verdict) := by
  intro verdict
  -- keys tell the links of the store apart, so that each of them has a lookup of its own
  have hn : s.form.WellNamed := hs ▸ Registry.getForm_wellNamed hreg hform
  have hsound : Sound (Saying reply) (reached ms).board := Resolver.reached_sound ms hms
  have hsettling := start_settling hsound (reached_undisturbed hms hx)
    (linkQueries_functional hn known)
  have hbegin : begin (reached ms) s known =
      .ok (waiting (reached ms) (s.linkQueries known)) := by
    simp [begin, s.linkQueries_snapshot known, bind, Except.bind, pure, Except.pure]
  have decided (r' : Resolver)
      (h : Turns reply (waiting (reached ms) (s.linkQueries known)).1 r')
      (hf : r'.isFinished (waiting (reached ms) (s.linkQueries known)).2 = true) :
      judge vs s signers r'.resolved = verdict := by
    have hsame := settled_sameLinks hn (h.settling hr linkQueries_wanted hsettling) hf
    rw [judge, Validation.problems_congr hvs hsame, hs, hes]
    rfl
  refine ⟨_, _, hbegin, decided, fun order hfair => hfair.ends hr linkQueries_wanted hsettling,
    Resolver.exists_fair hsettling.sound, ?_⟩
  -- the run of a submission is one of these orders
  rintro c hc p rfl
  simp only [prepare, hbegin]
  have run (hq : ∀ u, ¬ Resolver.Calls (waiting (reached ms) (s.linkQueries known)).1 u) :=
    Resolver.turns_turns hsettling.sound hc hq
  refine ⟨fun hq hf => decided _ (run hq _) hf, fun ho hrest => ?_⟩
  have hf := run_ends hr linkQueries_wanted hrest hsettling hsound hc ho
  exact ⟨hf, decided _ (run (start_lined hrest hsound _).quiet _) hf⟩

/-- Orders that refer to a contract, and with every line to a delivery. -/
def linkedOrders : Registry :=
  let r := Registry.orders.after {} (.updateField "n" (.named [("name", .text "contract"),
    ("label", .text "Contract"), ("type", .text "document_link")]))
  r.after {} (.updateField "a" (.named [("name", .text "delivery"), ("label", .text "Delivery"),
    ("type", .text "document_link")]))

/-- An order with one line. -/
def linkedOrder : Store where
  form := (linkedOrders.getForm "t").toOption.getD ⟨⟨"t", "", "", .null, .null, .active⟩, [], []⟩
  simple := [("contract", .link ⟨" C-1 ", "c", .reference⟩)]
  groups := [("lines", .rows [[("delivery", .link ⟨"D-7", "d", .reference⟩)]])]

/-- The catalog of contracts; there is none of deliveries. -/
def contracts (type number : String) : Reply :=
  if type = "d" then .failed
  else if number = "C-1" then .found { number := .text "C-1", typeId := "c" } else .missing

/-- A lookup for another contract is in flight when the order is submitted. -/
def slowLookup : List Move :=
  [.schedule "contract" ⟨.text "C-0", ["c"]⟩, .turn { replyTo := contracts, isOpen _ := false } 0]

theorem prepare_refines_reference_linkedOrder :
    let known : List DocumentType := [⟨"c", "Contract", "C", .null, .null, .active⟩,
      ⟨"d", "Delivery", "D", .null, .null, .active⟩]
    ∃ r t, begin (reached slowLookup) linkedOrder known = .ok (r, t) ∧
      (∃ order, Fair contracts r order) ∧
      (∀ order, Fair contracts r order → ∃ n, (r.after order n).isFinished t = true) ∧
      ∀ r', Turns contracts r r' → r'.isFinished t = true →
        judge .standard linkedOrder {} r'.resolved =
          refuse (.valuesInvalid [("lines[0].delivery", "Document 'D-7' was not found")]) := by
  intro known
  have hreach : linkedOrders.Reachable := by
    unfold linkedOrders
    exact .step (.step Registry.orders_reachable _ _ (by exact trivial)) _ _ (by exact trivial)
  have hform : linkedOrders.getForm "t" = .ok linkedOrder.form := by decide +kernel
  have hsteady : Steadfast contracts := by
    intro type number
    unfold contracts
    split
    · simp
    · split <;> simp
  have hsaying : ∀ c t, .turn c t ∈ slowLookup → Saying contracts c := by
    rintro c t h
    obtain ⟨rfl, -⟩ : c = { replyTo := contracts, isOpen _ := false } ∧ t = 0 := by
      simpa [slowLookup] using h
    rfl
  have hproblems : Validation.problems .standard linkedOrder.form linkedOrder.snapshot
      (referenceLinks contracts linkedOrder known) =
        .ok [("lines[0].delivery", "Document 'D-7' was not found")] := by decide +kernel
  obtain ⟨r, t, hbegin, hverdict, hends, hfair, -⟩ := prepare_refines_reference hreach hform rfl
    Validators.standard_local hsteady hsaying (by simp [slowLookup]) hproblems
  refine ⟨r, t, hbegin, hfair ?_, hends, hverdict⟩
  have hjobs : (begin (reached slowLookup) linkedOrder known).map (·.1.tasks.map Task.job) =
      .ok [.lookup "contract" ⟨.text "C-0", ["c"]⟩, .lookup "contract" ⟨.text " C-1 ", ["c", "d"]⟩,
        .lookup "lines[0].delivery" ⟨.text "D-7", ["c", "d"]⟩, .settle] := by decide +kernel
  rw [hbegin] at hjobs
  -- none of the tasks is a call
  replace hjobs : r.tasks.map Task.job = _ := Except.ok.inj hjobs
  rintro u ⟨k, key, number, types, hk, -, hj⟩
  have hmem : k.job ∈ r.tasks.map Task.job := List.mem_map_of_mem (List.mem_of_getElem? hk)
  rw [hjobs] at hmem
  simp [hj] at hmem

end DocForms.Submission
