import Mathlib.Algebra.Ring.Int.Defs
import DocForms.Proofs.Registry.Sendable
import DocForms.Proofs.Service.Refusals

/-! What the service answers can be written, as long as its registry has been filled with what requests
can hold. Such a registry is then as it was after every request that is not answered with success. -/
namespace DocForms

open Value

namespace Service

/-- A request of which the body, if it is JSON, is read from a text. -/
def Request.FromText (q : Request) : Prop := ∀ v ∈ q.body, ∃ text, Json.read text = .ok v

/-- What the service reads from the bytes of a request is read from a text. -/
theorem Request.fromText_of_readBody {q : Request} {contentType text : String}
    (h : q.body = readBody contentType text) : q.FromText := by
  intro v hv
  have hread {cs : List Char} (hcs : (Json.readChars? cs).toOption = some v) :
      ∃ text, Json.read text = .ok v := by
    refine ⟨String.ofList cs, ?_⟩
    rw [Json.read, String.toList_ofList]
    exact toOption_eq_some hcs
  rw [h, readBody] at hv
  split at hv
  · exact hread hv
  · cases hv

theorem Request.FromText.sendable {q : Request} (hq : q.FromText) {es : Entries}
    (h : q.record = .ok es) : (Value.record es).Sendable := by
  unfold Request.record at h
  split at h
  · rename_i es' hbody
    obtain rfl := Except.ok.inj h
    obtain ⟨text, hread⟩ := hq _ hbody
    exact Json.read_sendable hread
  · exact absurd h refuse_ne_ok

/-- If what is carried out succeeds, an answer can carry what it comes to, and every record that is left
in the registry. -/
def Sends (b : Building Result) (w : Workspace) : Prop :=
  ∀ res w', b.run.run w = (.ok res, w') → w'.registry.Sendable ∧ res.2.Sendable

section Steps
variable {α : Type} {w : Workspace} {f : α → Building Result}

theorem sends_okay (hr : w.registry.Sendable) {v : Value} (hv : v.Sendable) :
    Sends (pure (okay v)) w := by
  rintro res w' ⟨⟩
  exact ⟨hr, hv⟩

theorem sends_created (hr : w.registry.Sendable) {v : Value} (hv : v.Sendable) :
    Sends (pure (created v)) w := by
  rintro res w' ⟨⟩
  exact ⟨hr, hv⟩

theorem Sends.plain {e : Except Fault α} (h : ∀ a, e = .ok a → Sends (f a) w) :
    Sends (Building.plain e >>= f) w := by
  intro res w' hrun
  obtain ⟨a, w₁, hplain, hrun⟩ := Building.run_bind_eq_ok.mp hrun
  obtain ⟨ha, rfl⟩ := Building.run_plain_eq_ok.mp hplain
  exact h a ha res w' hrun

theorem Sends.read {g : Registry → Except Fault α} (h : ∀ a, g w.registry = .ok a → Sends (f a) w) :
    Sends (Building.read g >>= f) w :=
  Sends.plain (e := g w.registry) h

theorem Sends.change {g : Registry → Except Fault (Registry × α)}
    (h : ∀ r a, g w.registry = .ok (r, a) → Sends (f a) { w with registry := r }) :
    Sends (Building.change g >>= f) w := by
  intro res w' hrun
  rw [Building.run_bind, Building.run_change] at hrun
  cases hg : g w.registry with
  | error e =>
    rw [hg] at hrun
    cases hrun
  | ok p =>
    obtain ⟨r, a⟩ := p
    rw [hg] at hrun
    exact h r a hg res w' hrun

theorem Sends.mint {g : Registry → Minting (Registry × α)}
    (h : ∀ r a ids, ((g w.registry).run.run w.ids).1 = .ok (r, a) → Sends (f a) ⟨r, ids⟩) :
    Sends (Building.mint g >>= f) w := by
  intro res w' hrun
  rw [Building.run_bind, Building.run_mint] at hrun
  rcases hg : (g w.registry).run.run w.ids with ⟨_ | ⟨r, a⟩, ids⟩
  · rw [hg] at hrun
    cases hrun
  · rw [hg] at hrun
    exact h r a ids (congrArg Prod.fst hg) res w' hrun

end Steps

/-! ### Actions -/

section Actions
variable {shelf : Shelf} {q : Request} {w : Workspace} {r : Registry}

theorem templateBody_sendable {typeId : String} {t : Template} {v : Value} (ht : t.toValue.Sendable)
    (h : templateBody r typeId t = .ok v) : v.Sendable := by
  obtain ⟨form, -, h⟩ := bind_eq_ok.mp h
  obtain ⟨es, hes, h⟩ := bind_eq_ok.mp h
  obtain rfl := Except.ok.inj hes
  obtain ⟨unknown, -, h⟩ := bind_eq_ok.mp h
  obtain rfl := pure_eq_ok.mp h
  refine sendable_set ht _ (sendable_list.mpr ?_)
  exact List.forall_mem_map.mpr fun s _ => sendable_text s

theorem delete_sends {delete : Registry → Except Fault Registry}
    (h : ∀ r, delete w.registry = .ok r → r.Sendable) :
    Sends (do
      Building.change fun r => (delete r).map (·, ())
      return done) w := by
  refine .change fun r _ hdelete => sends_okay ?_ rfl
  obtain ⟨r', hr', heq⟩ := map_eq_ok.mp hdelete
  obtain ⟨rfl, -⟩ := Prod.mk.inj heq
  exact h r' hr'

/-- The result of an action that may change the registry can be written, if the body of the request is
read from a text. -/
theorem perform_sends (hr : w.registry.Sendable) (hc : w.registry.Countable) (hq : q.FromText)
    {a : Action} (ha : ¬ a.Reads) : Sends (perform shelf q a) w := by
  cases a with
  | listTypes | readForm | listFields | listGroups | readGroup | readTemplate | validate | bind =>
    exact (ha trivial).elim
  | createType =>
    refine .plain fun body hbody => .mint fun r t ids h => ?_
    obtain ⟨hr', ht⟩ := Registry.addType_sendable hr (hq.sendable hbody) (Registry.addType_of_define h)
    exact sends_created hr' ht
  | updateType t =>
    refine .plain fun body hbody => .change fun r t h => ?_
    obtain ⟨hr', ht⟩ := Registry.updateType_sendable hr (hq.sendable hbody) h
    exact sends_okay hr' ht
  | deleteType t => exact delete_sends fun r h => Registry.deleteType_sendable hr h
  | createField t =>
    refine .plain fun body hbody => .mint fun r f ids h => ?_
    obtain ⟨hr', hf⟩ :=
      Registry.addField_sendable hr hc (hq.sendable hbody) (Registry.addField_of_define h)
    exact sends_created hr' hf
  | updateField t f =>
    refine .read fun _ _ => .plain fun body hbody => .change fun r f h => ?_
    obtain ⟨hr', hf⟩ := Registry.updateField_sendable hr hc (hq.sendable hbody) h
    exact sends_okay hr' hf
  | deleteField t f =>
    exact .read fun _ _ => delete_sends fun r h => Registry.deleteField_sendable hr h
  | orderFields t =>
    refine .plain fun body _ => .change fun r fs h => ?_
    simp only [orderFields, bind_eq_ok] at h
    obtain ⟨ids, -, _, -, h⟩ := h
    split at h
    all_goals
      obtain ⟨group, -, h⟩ := bind_eq_ok.mp h
      obtain ⟨hr', hfs⟩ := Registry.reorderFields_sendable hr hc h
      exact sends_okay hr' (sendable_list.mpr (List.forall_mem_map.mpr hfs))
  | createGroup t =>
    refine .plain fun body hbody => .mint fun r g ids h => ?_
    obtain ⟨hr', hg⟩ :=
      Registry.addGroup_sendable hr hc (hq.sendable hbody) (Registry.addGroup_of_define h)
    exact sends_created hr' hg
  | updateGroup t g =>
    refine .read fun _ _ => .plain fun body hbody => .change fun r _ h => .read fun g hg => ?_
    have hr' := Registry.updateGroup_sendable hr hc (hq.sendable hbody) h
    exact sends_okay hr' (Registry.getGroup_sendable hr' hg)
  | deleteGroup t g =>
    exact .read fun _ _ => delete_sends fun r h => Registry.deleteGroup_sendable hr h
  | orderGroups t =>
    refine .plain fun body _ => .plain fun ids _ => .change fun r gs h => ?_
    obtain ⟨hr', hgs⟩ := Registry.reorderGroups_sendable hr hc h
    exact sends_okay hr' (sendable_list.mpr (List.forall_mem_map.mpr hgs))
  | saveTemplate t =>
    refine .plain fun body hbody => .change fun r t h => .read fun v hv => ?_
    obtain ⟨hr', ht⟩ := Registry.saveTemplate_sendable hr (hq.sendable hbody) h
    exact sends_okay hr' (templateBody_sendable ht hv)
  | createStarterTemplate t =>
    refine .change fun r t h => .read fun v hv => ?_
    obtain ⟨hr', ht⟩ := Registry.createStarterTemplate_sendable hr h
    exact sends_created hr' (templateBody_sendable ht hv)
  | duplicateTemplate t =>
    refine .plain fun body _ => .change fun r out h => ?_
    simp only [duplicateTemplate, ↓check_eq_ok, bind_eq_ok, pure_eq_ok, Prod.mk.injEq] at h
    obtain ⟨-, _, -, target, -, ⟨r', saved⟩, hdup, rfl, rfl⟩ := h
    obtain ⟨hr', ht⟩ := Registry.duplicateTemplate_sendable hr hdup
    exact .read fun v hv => sends_created hr' (templateBody_sendable ht hv)

end Actions

/-! ### Requests -/

section Requests
variable {shelf : Shelf} {q : Request} {w : Workspace}

theorem performed_sendable (hcons : w.registry.Consistent) (hr : w.registry.Sendable)
    (hc : w.registry.Countable) (hq : q.FromText) (a : Action) :
    (performed shelf q a w).2.registry.Sendable := by
  show ((perform shelf q a).run.run w).2.registry.Sendable
  by_cases ha : a.Reads
  · rw [perform_reads ha]
    exact hr
  · rcases perform_settles hcons a with hsame | ⟨⟨res, hres, -⟩, -⟩
    · rw [hsame]
      exact hr
    · exact (perform_sends hr hc hq ha res _ (Prod.ext hres rfl)).1

/-- A request whose body is read from a text leaves only records that a body can carry. -/
theorem answer_sendable (hcons : w.registry.Consistent) (hr : w.registry.Sendable)
    (hc : w.registry.Countable) (hq : q.FromText) : (answer shelf q w).2.registry.Sendable := by
  rcases ofRequest_cases q with ⟨a, ha, -⟩ | ⟨a, ha, -⟩ | h
  · rw [(answer_of_route (.inl ha)).2]
    exact performed_sendable hcons hr hc hq a
  · rw [(answer_of_route (.inr ha)).2]
    exact performed_sendable hcons hr hc hq a
  · rw [h]
    exact hr

end Requests

/-! ### What requests change -/

/-- The registries that requests with bodies of text lead to, one after another and with any catalog,
from one of which a body can carry every record. -/
inductive Requested : Registry → Prop
  | start {r : Registry} (reachable : Registry.Reachable r) (sendable : r.Sendable)
      (countable : r.Countable) : Requested r
  | serve {r : Registry} (h : Requested r) (shelf : Shelf) (q : Request) (ids : Ids)
      (text : q.FromText) (unused : Unused r ids.take.1)
      (countable : (answer shelf q ⟨r, ids⟩).2.registry.Countable) :
      Requested (answer shelf q ⟨r, ids⟩).2.registry

namespace Requested
variable {r : Registry}

theorem served (h : Requested r) : Served r := by
  induction h with
  | start reachable => exact .start reachable
  | serve _ shelf q ids _ unused _ ih => exact ih.serve shelf q ids unused

theorem countable (h : Requested r) : r.Countable := by
  cases h with
  | start _ _ countable => exact countable
  | serve _ _ _ _ _ _ countable => exact countable

theorem sendable (h : Requested r) : r.Sendable := by
  induction h with
  | start _ sendable => exact sendable
  | serve h shelf q ids text _ _ ih =>
    exact answer_sendable (w := ⟨_, ids⟩) h.served.reachable.consistent ih h.countable text

end Requested

/-- Orders with a field whose least value has 4301 digits. No request can hold it, but an operation
can be given it. -/
def wideOrders : Registry :=
  Registry.orders.after { given := some "w" } (.defineField "t" (.named [("name", .text "width"),
    ("label", .text "Width"), ("type", .text "number"),
    ("validationRules", .named [("min", .int (10 ^ 4300))])]) true)

/-- A request to give the width of orders another label. -/
def relabel : Request where
  method := "PUT"
  target := ⟨["api", "v1", "document-types", "t", "fields", "w"], []⟩
  body := some (.named [("label", .text "Breadth")])

/-- A field with a bound that cannot be written is changed, and then the request fails. -/
theorem relabel_kept : Served wideOrders ∧
    (answer [] relabel ⟨wideOrders, {}⟩).1.status = 500 ∧
    (answer [] relabel ⟨wideOrders, {}⟩).2.registry ≠ wideOrders := by
  refine ⟨.start (.step Registry.orders_reachable _ _ ?_), ?_, ?_⟩
  · show Registry.orders.field? "w" = none
    decide +kernel
  · decide +kernel
  · decide +kernel

end Service
end DocForms
