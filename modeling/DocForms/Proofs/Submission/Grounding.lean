import DocForms.Proofs.Catalog.Memory
import DocForms.Proofs.Links.Requests
import DocForms.Proofs.Registry.Parsing
import DocForms.Proofs.Submission.Acceptance
import DocForms.Proofs.Submission.Refinement

/-! What a catalog in memory holds for the links of an accepted document. The document found for a
link is of a type that the link was searched in. If its field has a target, this is the type that the
link names; otherwise the link may name any type. -/
namespace DocForms

theorem LinkQuery.Resolves.held {shelf : Shelf} {q : LinkQuery} {d : Document}
    (h : q.Resolves shelf.Backs (some d)) :
    ∃ number, d.number = .text number ∧ ∃ type ∈ q.types, shelf.Holds type number := by
  unfold LinkQuery.Resolves at h
  split at h
  · cases h
  · rename_i number _
    obtain ⟨type, htype, c, hc, hfound⟩ := Finds.found h
    obtain ⟨hnumber, hheld⟩ := hc.found hfound
    exact ⟨number, hnumber, type, htype, hheld⟩
  · exact h.elim

/-- Something holds of every link of a store that is not blank. -/
def Store.EveryLink (s : Store) (P : Field → Address → LinkValue → Prop) : Prop :=
  ∀ f a, (f, a) ∈ s.instances → f.kind = .documentLink → ¬ (s.valueAt a).Blank →
    ∃ l, s.linkAt? a = some l ∧ P f a l

namespace Submission
open Resolver (Move reached asked? asked?_eq_some wanted)
open Board (Sound)

variable {shelf : Shelf} {r : Resolver} {s : Store} {known : List DocumentType} {f : Field}
  {a : Address} {l : LinkValue} {key : String} {signers : Signers String} {ms : List Move}

/-- A document with the number of the link is held. If its field has a target, the document is of just
the type that the link names, the target; otherwise it is of some known type but that of the form. -/
def Grounded (shelf : Shelf) (form : Form) (known : List DocumentType) (f : Field)
    (l : LinkValue) : Prop :=
  match f.linkOptions.target with
  | some target =>
    l.documentTypeId = target ∧ shelf.Holds l.documentTypeId (Text.trim l.documentNumber)
  | none => ∃ t ∈ known, t.id ≠ form.type.id ∧ shelf.Holds t.id (Text.trim l.documentNumber)

theorem cached_of_document? {d : Document}
    (h : ResolvedLinks.document? r.resolved key = some d) :
    ∃ e, r.cache.get? key = some e ∧ e.document = some d := by
  have hjoin : (r.resolved.get? key).join = some d := h
  rw [Resolver.resolved_get?, Option.join_eq_some_iff, Option.map_eq_some_iff] at hjoin
  exact hjoin

/-- What vouches for a link is held under one of the types that were last asked for at its key. -/
theorem held_of_vouched (hs : Sound shelf.Backs r.board)
    (hv : l.Vouched f.linkOptions.target key r.resolved) :
    ∃ q, r.asked? key = some q ∧ ∃ type ∈ q.types, shelf.Holds type (Text.trim l.documentNumber) := by
  obtain ⟨d, hfound, hnumber⟩ := hv.found
  obtain ⟨e, he, hd⟩ := cached_of_document? hfound
  obtain ⟨n, hn, hq⟩ := hs.cached key e he
  have hresolves : e.query.Resolves shelf.Backs (some d) := hd ▸ hs.found key e he
  obtain ⟨number, hd, type, htype, hheld⟩ := hresolves.held
  obtain rfl : number = Text.trim l.documentNumber := by simpa [hnumber] using hd.symm
  exact ⟨e.query, asked?_eq_some.mpr ⟨n, hn, hq⟩, type, htype, hheld⟩

theorem grounded_of_held {form : Form} (hproper : f.linkOptions.target ≠ some "")
    {links : ResolvedLinks} (hv : l.Vouched f.linkOptions.target key links) {type : String}
    (hmem : type ∈ f.candidates form.type.id known)
    (hheld : shelf.Holds type (Text.trim l.documentNumber)) : Grounded shelf form known f l := by
  unfold Grounded
  unfold Field.candidates at hmem
  cases htarget : f.linkOptions.target with
  | some target =>
    rw [htarget] at hmem hproper
    obtain rfl := List.mem_singleton.mp hmem
    have hne : type ≠ "" := fun he => hproper (congrArg some he)
    have hsame : l.documentTypeId = type := hv.target type htarget hne
    exact ⟨hsame, hsame ▸ hheld⟩
  | none =>
    rw [htarget] at hmem
    obtain ⟨t, ht, rfl⟩ := List.mem_map.mp hmem
    obtain ⟨hknown, hother⟩ := List.mem_filter.mp ht
    exact ⟨t, hknown, bne_iff_ne.mp hother, hheld⟩

/-! ### The lookups of a submission -/

theorem begin_eq (r : Resolver) (s : Store) (known : List DocumentType) :
    begin r s known = .ok (waiting r (s.linkQueries known)) := by
  rw [begin, s.linkQueries_snapshot known]
  rfl

/-- What is asked for at the key of a link is its number, in the types that its field can refer to. -/
theorem asked?_waiting (hn : s.form.WellNamed) (r : Resolver) (h : Linked s f a l) :
    (waiting r (s.linkQueries known)).1.asked? a.key =
      some ⟨.text l.documentNumber, f.candidates s.form.type.id known⟩ := by
  have hmem : (a.key, ⟨.text l.documentNumber, f.candidates s.form.type.id known⟩) ∈
      s.linkQueries known := mem_linkQueries.mpr ⟨f, a, l, h, rfl⟩
  obtain ⟨n, hnewest, hq, -⟩ := scheduleAll_serves r (linkQueries_functional hn known) _ hmem
  exact asked?_eq_some.mpr ⟨n, hnewest, hq⟩

/-! ### Accepted documents -/

theorem accepted_after (hn : s.form.WellNamed)
    (ht : ∀ f a, (f, a) ∈ s.instances → f.linkOptions.target ≠ some "")
    (hs : Sound shelf.Backs r.board) {es : List Move}
    (hes : ∀ c t, .turn c t ∈ es → shelf.Backs c) {d : Submission}
    (h : judge .standard s signers ((waiting r (s.linkQueries known)).1.play es).resolved = .ok d) :
    let r' := (waiting r (s.linkQueries known)).1
    s.EveryLink fun f a l => (∃ type, shelf.Holds type (Text.trim l.documentNumber)) ∧
      (wanted a.key r' (r'.asked? a.key) es = r'.asked? a.key →
        Grounded shelf s.form known f l) := by
  intro r' f a hmem hkind hblank
  obtain ⟨l, hlink, hv⟩ := accepted_vouched h hmem hkind hblank
  have hnumber : Text.isBlankText l.documentNumber = false := by
    rw [← Bool.not_eq_true, ← Value.blank_text_iff]
    exact hv.number
  have hbegun : Sound shelf.Backs r'.board := waiting_sound hs (s.linkQueries known)
  have hplayed : Sound shelf.Backs (r'.play es).board :=
    hbegun.steps (Resolver.play_steps (X := True) hbegun es hes fun _ _ => trivial)
  obtain ⟨q, hq, type, htype, hheld⟩ := held_of_vouched hplayed hv
  refine ⟨l, hlink, ⟨type, hheld⟩, fun hwanted => ?_⟩
  -- nothing else has been asked for, so the types are those that the field can refer to
  rw [Resolver.asked?_play hbegun a.key es hes, hwanted,
    asked?_waiting hn r ⟨hmem, hkind, hlink, hnumber⟩] at hq
  obtain rfl := Option.some.inj hq
  exact grounded_of_held (ht f a hmem) hv htype hheld

/-- The links of an accepted document do not dangle, whatever the resolver has been used for before:
the catalog holds a document with the number of each link, of the type that the link names if its
field has a target. If something else is asked for at the place of a link while the submission waits,
it is a document of some type. -/
theorem accepted_links_held {registry : Registry} (hreg : registry.Reachable) {typeId : String}
    {form : Form} (hform : registry.getForm typeId = .ok form) (hs : s.form = form)
    (hms : ∀ c t, .turn c t ∈ ms → shelf.Backs c) :
    ∃ r t, begin (reached ms) s known = .ok (r, t) ∧
      (∀ es d, (∀ c t, .turn c t ∈ es → shelf.Backs c) →
        judge .standard s signers (r.play es).resolved = .ok d →
        d.snapshot = s.snapshot ∧ s.EveryLink fun f a l =>
          (∃ type, shelf.Holds type (Text.trim l.documentNumber)) ∧
          (wanted a.key r (r.asked? a.key) es = r.asked? a.key → Grounded shelf form known f l)) ∧
      ∀ c d, shelf.Backs c → (prepare .standard c (reached ms) s known signers).2 = .ok d →
        (∀ u, ¬ (reached ms).Calls u) →
        d.snapshot = s.snapshot ∧ s.EveryLink fun f _ l => Grounded shelf form known f l := by
  subst hs
  have hn : s.form.WellNamed := Registry.getForm_wellNamed hreg hform
  have htarget : ∀ f a, (f, a) ∈ s.instances → f.linkOptions.target ≠ some "" := fun f a hmem =>
    Registry.getForm_target hreg hform (Store.places_of_mem_instances hmem)
  have hsound : Sound shelf.Backs (reached ms).board := Resolver.reached_sound ms hms
  have hbegun := waiting_sound hsound (s.linkQueries known)
  refine ⟨_, _, begin_eq (reached ms) s known, fun es d hes h => ⟨?_, ?_⟩, fun c d hc h hq => ?_⟩
  · rw [(judge_eq_ok h).2]
  · exact accepted_after hn htarget hsound hes h
  -- the run of a submission is one of these plays, and its turns ask for nothing
  · simp only [prepare, begin_eq] at h
    obtain ⟨es, hturns, hplay⟩ := Resolver.turns_eq_play c _
      (waiting (reached ms) (s.linkQueries known)).1
    rw [Resolver.run, hplay] at h
    have hmet : ∀ c' t, .turn c' t ∈ es → shelf.Backs c' := by
      intro c' t hm
      obtain ⟨t', he⟩ := hturns _ hm
      cases he
      exact hc
    refine ⟨by rw [(judge_eq_ok h).2], fun f a hmem hkind hblank => ?_⟩
    obtain ⟨l, hlink, -, hgrounded⟩ := accepted_after hn htarget hsound hmet h f a hmem hkind hblank
    refine ⟨l, hlink, hgrounded ?_⟩
    apply Resolver.wanted_of_quiet hbegun hc
    · exact fun u hu => hq u (calls_waiting hu)
    · exact hturns

/-- Orders whose deliveries are documents of the type d. -/
def deliveryOrders : Registry :=
  linkedOrders.after {} (.updateField "a" (.named [("options",
    .named [("targetDocumentTypeId", .text "d")])]))

theorem linkedOrders_reachable : linkedOrders.Reachable := by
  unfold linkedOrders
  exact .step (.step Registry.orders_reachable _ _ (by exact trivial)) _ _ (by exact trivial)

/-- An order with a contract and one delivery. -/
def deliveryOrder : Store :=
  { linkedOrder with form := (deliveryOrders.getForm "t").toOption.getD linkedOrder.form }

/-- A contract and a delivery. -/
def archive : Shelf :=
  [{ number := .text "C-1", typeId := "c" }, { number := .text "D-7", typeId := "d" }]

theorem accepted_links_held_deliveryOrder :
    let known : List DocumentType := [⟨"c", "Contract", "C", .null, .null, .active⟩,
      ⟨"d", "Delivery", "D", .null, .null, .active⟩]
    -- the contract is looked up before the delivery is added
    let earlier : Shelf := [{ number := .text "C-1", typeId := "c" }]
    let ms : List Move :=
      [.schedule "contract" ⟨.text "C-1", ["c"]⟩, .turn (Service.catalogOf earlier) 0]
    (prepare .standard (Service.catalogOf archive) (reached ms) deliveryOrder known {}).2 =
        .ok ⟨"t", deliveryOrder.snapshot, {}⟩ ∧
      deliveryOrder.EveryLink fun f _ l => Grounded archive deliveryOrder.form known f l := by
  intro known earlier ms
  have hreach : deliveryOrders.Reachable := by
    unfold deliveryOrders
    exact .step linkedOrders_reachable _ _ (by exact trivial)
  have hform : deliveryOrders.getForm "t" = .ok deliveryOrder.form := by decide +kernel
  have hadd : earlier.add { number := .text "D-7", typeId := "d" } = .ok archive := rfl
  have hms : ∀ c t, .turn c t ∈ ms → archive.Backs c := by
    rintro c t h
    obtain ⟨rfl, -⟩ : c = Service.catalogOf earlier ∧ t = 0 := by simpa [ms] using h
    exact ⟨earlier, .single ⟨_, hadd⟩, rfl⟩
  have hquiet : ∀ u, ¬ (reached ms).Calls u := by
    rintro u ⟨k, key, number, types, hk, -, hj⟩
    have hjobs : (reached ms).tasks.map Task.job = [.lookup "contract" ⟨.text "C-1", ["c"]⟩] := by
      decide +kernel
    have hmem : k.job ∈ (reached ms).tasks.map Task.job :=
      List.mem_map_of_mem (List.mem_of_getElem? hk)
    rw [hjobs] at hmem
    simp [hj] at hmem
  have haccepted : (prepare .standard (Service.catalogOf archive) (reached ms) deliveryOrder known
      {}).2 = .ok ⟨"t", deliveryOrder.snapshot, {}⟩ := by decide +kernel
  obtain ⟨r, t, -, -, h⟩ := accepted_links_held hreach hform rfl hms
  exact ⟨haccepted, (h _ _ archive.backs_catalogOf haccepted hquiet).2⟩

/-- An order that calls its contract a delivery. -/
def misnamedOrder : Store :=
  { linkedOrder with
    simple := [("contract", .link ⟨"C-1", "d", .reference⟩)]
    groups := [("lines", .rows [[]])] }

/-- A field without a target does not see to it that its link names the type of the document that was
found. -/
theorem accepted_link_of_another_type :
    let known : List DocumentType := [⟨"c", "Contract", "C", .null, .null, .active⟩,
      ⟨"d", "Delivery", "D", .null, .null, .active⟩]
    let contracts : Shelf := [{ number := .text "C-1", typeId := "c" }]
    linkedOrders.Reachable ∧ linkedOrders.getForm "t" = .ok misnamedOrder.form ∧
      (prepare .standard (Service.catalogOf contracts) {} misnamedOrder known {}).2 =
        .ok ⟨"t", misnamedOrder.snapshot, {}⟩ ∧
      ¬ misnamedOrder.EveryLink fun _ _ l =>
        contracts.Holds l.documentTypeId (Text.trim l.documentNumber) := by
  intro known contracts
  refine ⟨linkedOrders_reachable, by decide +kernel, by decide +kernel, fun hevery => ?_⟩
  have hmem : ∃ e ∈ misnamedOrder.instances, e.2 = .top "contract" ∧ e.1.kind = .documentLink := by
    decide +kernel
  obtain ⟨⟨f, a⟩, hmem, rfl, hkind⟩ := hmem
  have hblank : ¬ (misnamedOrder.valueAt (.top "contract")).Blank := by
    rw [Value.blank_iff]
    decide +kernel
  obtain ⟨l, hlink, hheld⟩ := hevery f _ hmem hkind hblank
  have hnamed : misnamedOrder.linkAt? (.top "contract") = some ⟨"C-1", "d", .reference⟩ := by
    decide +kernel
  obtain rfl := Option.some.inj (hnamed.symm.trans hlink)
  exact absurd hheld (by decide +kernel)

end Submission
end DocForms
