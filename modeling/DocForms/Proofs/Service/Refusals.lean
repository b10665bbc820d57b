import DocForms.Proofs.Registry.Building
import DocForms.Proofs.Registry.Isolation
import DocForms.Service.Handler

/-! A request makes one operation on the registry and comes to a result, or it leaves the registry as it
was: once an operation has been made, nothing can fail but the writing of the result. -/
namespace DocForms

namespace Service

/-- A status that says success. -/
def Succeeds (status : Nat) : Prop := 200 ≤ status ∧ status < 300

/-- What is carried out leaves the registry as it was, or succeeds with one operation on it. -/
def Settles (b : Building Result) (w : Workspace) : Prop :=
  (b.run.run w).2.registry = w.registry ∨
    (∃ res, (b.run.run w).1 = .ok res ∧ Succeeds res.1) ∧
      ∃ op, ((w.registry.perform op).run.run w.ids).1 = .ok (b.run.run w).2.registry

/-- What is carried out succeeds and changes nothing. -/
def Shows (b : Building Result) (w : Workspace) : Prop :=
  ∃ res, b.run.run w = (.ok res, w) ∧ Succeeds res.1

section Steps
variable {α : Type} {w : Workspace} {f : α → Building Result}

theorem shows_okay (v : Value) : Shows (pure (okay v)) w := ⟨okay v, rfl, by simp [Succeeds, okay]⟩

theorem shows_created (v : Value) : Shows (pure (created v)) w :=
  ⟨created v, rfl, by simp [Succeeds, created]⟩

theorem Shows.read {g : Registry → Except Fault α} {a : α} (ha : g w.registry = .ok a)
    (h : Shows (f a) w) : Shows (Building.read g >>= f) w := by
  obtain ⟨res, hres, hs⟩ := h
  exact ⟨res, by rw [Building.run_bind, Building.run_read, ha]; exact hres, hs⟩

theorem Shows.settles {b : Building Result} (h : Shows b w) : Settles b w := by
  obtain ⟨res, hres, -⟩ := h
  exact .inl (by rw [hres])

theorem settles_read (g : Registry → Except Fault Result) : Settles (Building.read g) w :=
  .inl (by rw [Building.run_read])

theorem Settles.plain {e : Except Fault α} (h : ∀ a, Settles (f a) w) :
    Settles (Building.plain e >>= f) w := by
  unfold Settles
  rw [Building.run_bind, Building.run_plain]
  cases e with
  | error x => exact .inl rfl
  | ok a => exact h a

theorem Settles.read {g : Registry → Except Fault α} (h : ∀ a, Settles (f a) w) :
    Settles (Building.read g >>= f) w := by
  unfold Settles
  rw [Building.run_bind, Building.run_read]
  cases g w.registry with
  | error x => exact .inl rfl
  | ok a => exact h a

/-- Once a change has been made, the rest has to succeed. -/
theorem settles_change {g : Registry → Except Fault (Registry × α)}
    (hop : ∀ r a, g w.registry = .ok (r, a) →
      ∃ op, ((w.registry.perform op).run.run w.ids).1 = .ok r)
    (h : ∀ r a, g w.registry = .ok (r, a) → Shows (f a) { w with registry := r }) :
    Settles (Building.change g >>= f) w := by
  unfold Settles
  rw [Building.run_bind, Building.run_change]
  cases hg : g w.registry with
  | error x => exact .inl rfl
  | ok p =>
    obtain ⟨r, a⟩ := p
    obtain ⟨res, hres, hs⟩ := h r a hg
    simp only [hres]
    exact .inr ⟨⟨res, rfl, hs⟩, hop r a hg⟩

theorem settles_mint {g : Registry → Minting (Registry × α)} (op : Operation)
    (hop : w.registry.perform op = Prod.fst <$> g w.registry) (h : ∀ a w', Shows (f a) w') :
    Settles (Building.mint g >>= f) w := by
  have hresult := Registry.map_result Prod.fst (g w.registry) w.ids
  rw [← hop] at hresult
  unfold Settles
  rw [Building.run_bind, Building.run_mint]
  rcases hg : (g w.registry).run.run w.ids with ⟨_ | ⟨r, a⟩, ids⟩
  · exact .inl rfl
  · obtain ⟨res, hres, hs⟩ := h a ⟨r, ids⟩
    rw [hg] at hresult
    simp only [hres]
    exact .inr ⟨⟨res, rfl, hs⟩, op, hresult⟩

end Steps

/-! ### What is read after an operation -/

section Reads
variable {r r' : Registry} {id : String}

/-- A group that has been changed can be read. -/
theorem getGroup_of_update (hc : r.Consistent) {changes : Value} {g : Group}
    (h : r.updateGroup id changes = .ok (r', g)) : ∃ g', r'.getGroup id = .ok g' := by
  have hchange := Registry.updateGroup_change h
  have hi := hc.identified.change hchange
  have ho := hc.owned.change hc.identified hchange
  obtain ⟨hmem, hid⟩ : g ∈ r'.groups ∧ g.id = id := by
    simp only [Registry.updateGroup, bind_eq_ok, pure_eq_ok, Prod.mk.injEq] at h
    obtain ⟨_, -, _, -, _, -, g, hg, rfl, rfl⟩ := h
    exact ⟨(mem_upsert hc.identified.groups).mpr (.inl rfl), (Registry.buildGroup_owner hg).1⟩
  obtain ⟨t, ht, htype⟩ := ho.group g hmem
  have hgroup : r'.requireGroup id = .ok g := by
    rw [Registry.requireGroup, ← hid, Registry.group?_of_mem hi hmem]
  have hrequire := Registry.requireType_of_mem hi ht
  rw [htype] at hrequire
  refine ⟨r'.withFields g.typeId g, ?_⟩
  simp [Registry.getGroup, hgroup, hrequire, bind, Except.bind, pure, Except.pure]

/-- A template that has been stored can be read, with its unknown tokens: they have been looked for
before it was stored. -/
theorem templateBody_of_store {t saved : Template} (h : r.storeTemplate id t = .ok (r', saved)) :
    ∃ v, templateBody r' id saved = .ok v := by
  simp only [Registry.storeTemplate, bind_eq_ok, pure_eq_ok, Prod.mk.injEq] at h
  obtain ⟨form, hform, unknown, hunknown, rfl, rfl⟩ := h
  have hform' : Registry.getForm { r with templates := upsert Prod.fst (id, t) r.templates } id =
      .ok form := hform
  obtain ⟨es, hes⟩ : ∃ es, t.toValue.entries = .ok es := ⟨_, rfl⟩
  simp [templateBody, hform', hes, hunknown, bind, Except.bind, pure, Except.pure]

end Reads

/-! ### Actions -/

section Actions
variable {shelf : Shelf} {q : Request} {w : Workspace}

theorem updateGroup_settles (hc : w.registry.Consistent) (t g : String) :
    Settles (perform shelf q (.updateGroup t g)) w := by
  refine .read fun _ => .plain fun body => settles_change (fun r out h => ?_) fun r out h => ?_
  · exact ⟨.updateGroup g (.record body), map_eq_ok.mpr ⟨_, h, rfl⟩⟩
  · obtain ⟨g', hg'⟩ := getGroup_of_update hc h
    exact .read hg' (shows_okay _)

theorem saveTemplate_settles (t : String) : Settles (perform shelf q (.saveTemplate t)) w := by
  refine .plain fun body => settles_change (fun r out h => ?_) fun r out h => ?_
  · exact ⟨.saveTemplate t (.record body), map_eq_ok.mpr ⟨_, h, rfl⟩⟩
  · obtain ⟨payload, -, hstore⟩ := bind_eq_ok.mp h
    obtain ⟨v, hv⟩ := templateBody_of_store hstore
    exact .read hv (shows_okay _)

theorem createStarterTemplate_settles (t : String) :
    Settles (perform shelf q (.createStarterTemplate t)) w := by
  refine settles_change (fun r out h => ?_) fun r out h => ?_
  · exact ⟨.createStarterTemplate t, map_eq_ok.mpr ⟨_, h, rfl⟩⟩
  · simp only [Registry.createStarterTemplate, ↓check_eq_ok, bind_eq_ok] at h
    obtain ⟨form, -, -, hstore⟩ := h
    obtain ⟨v, hv⟩ := templateBody_of_store hstore
    exact .read hv (shows_created _)

theorem duplicateTemplate_settles (t : String) :
    Settles (perform shelf q (.duplicateTemplate t)) w := by
  refine .plain fun body => settles_change (fun r out h => ?_) fun r out h => ?_
  all_goals
    simp only [duplicateTemplate, ↓check_eq_ok, bind_eq_ok, pure_eq_ok, Prod.mk.injEq] at h
    obtain ⟨-, _, -, target, -, ⟨r', saved⟩, hdup, rfl, rfl⟩ := h
  · exact ⟨.duplicateTemplate t target, map_eq_ok.mpr ⟨_, hdup, rfl⟩⟩
  · simp only [Registry.duplicateTemplate, ↓check_eq_ok, bind_eq_ok] at hdup
    obtain ⟨_, -, -, hstore⟩ := hdup
    obtain ⟨v, hv⟩ := templateBody_of_store hstore
    exact .read hv (shows_created _)

theorem orderFields_settles (t : String) : Settles (perform shelf q (.orderFields t)) w := by
  refine .plain fun body => settles_change (fun r out h => ?_) fun r out h => shows_okay _
  simp only [orderFields, bind_eq_ok] at h
  obtain ⟨ids, -, _, -, h⟩ := h
  split at h
  all_goals
    obtain ⟨group, -, h⟩ := bind_eq_ok.mp h
    exact ⟨.reorderFields t ids group, map_eq_ok.mpr ⟨_, h, rfl⟩⟩

/-- A record that is deleted is not asked for again. -/
theorem delete_settles {delete : Registry → Except Fault Registry} (op : Operation)
    (hop : w.registry.perform op = .plain (delete w.registry)) :
    Settles (do
      Building.change fun r => (delete r).map (·, ())
      return done) w := by
  refine settles_change (fun r out h => ⟨op, ?_⟩) fun _ _ _ => shows_okay _
  obtain ⟨r', hr', he⟩ := map_eq_ok.mp h
  obtain ⟨rfl, -⟩ := Prod.mk.inj he
  rw [hop]
  exact hr'

/-- Whatever an action meets, it leaves the registry as it was or succeeds with one operation. -/
theorem perform_settles (hc : w.registry.Consistent) (a : Action) :
    Settles (perform shelf q a) w := by
  cases a with
  | listTypes | readForm | listFields | listGroups | readGroup | readTemplate =>
    exact settles_read _
  | validate | bind => exact .plain fun _ => .read fun _ => (shows_okay _).settles
  | createType =>
    exact .plain fun body => settles_mint (.defineType (.record body)) rfl
      fun _ _ => shows_created _
  | createField t =>
    exact .plain fun body => settles_mint (.defineField t (.record body) true) rfl
      fun _ _ => shows_created _
  | createGroup t =>
    exact .plain fun body => settles_mint (.defineGroup t (.record body)) rfl
      fun _ _ => shows_created _
  | updateType t =>
    exact .plain fun body => settles_change
      (fun _ _ h => ⟨.updateType t (.record body), map_eq_ok.mpr ⟨_, h, rfl⟩⟩) fun _ _ _ => shows_okay _
  | deleteType t => exact delete_settles (.deleteType t) rfl
  | updateField t f =>
    exact .read fun _ => .plain fun body => settles_change
      (fun _ _ h => ⟨.updateField f (.record body), map_eq_ok.mpr ⟨_, h, rfl⟩⟩) fun _ _ _ => shows_okay _
  | deleteField t f => exact .read fun _ => delete_settles (.deleteField f) rfl
  | orderFields t => exact orderFields_settles t
  | updateGroup t g => exact updateGroup_settles hc t g
  | deleteGroup t g => exact .read fun _ => delete_settles (.deleteGroup g) rfl
  | orderGroups t =>
    exact .plain fun body => .plain fun ids => settles_change
      (fun _ _ h => ⟨.reorderGroups t ids, map_eq_ok.mpr ⟨_, h, rfl⟩⟩) fun _ _ _ => shows_okay _
  | saveTemplate t => exact saveTemplate_settles t
  | createStarterTemplate t => exact createStarterTemplate_settles t
  | duplicateTemplate t => exact duplicateTemplate_settles t

/-- The actions that look at the registry only. -/
def Action.Reads : Action → Prop
  | .listTypes | .readForm _ | .listFields .. | .listGroups _ | .readGroup .. | .readTemplate _
  | .validate | .bind _ => True
  | _ => False

theorem plain_read_same (e : Except Fault Entries) (g : Entries → Registry → Except Fault Value) :
    ((do
      let body ← Building.plain e
      return okay (← Building.read (g body)) : Building Result).run.run w).2 = w := by
  rw [Building.run_bind, Building.run_plain]
  cases e with
  | error x => rfl
  | ok body =>
    show (((Building.read (g body) >>= _ : Building Result)).run.run w).2 = w
    rw [Building.run_bind, Building.run_read]
    cases g body w.registry <;> rfl

theorem perform_reads {a : Action} (ha : a.Reads) : ((perform shelf q a).run.run w).2 = w := by
  cases a with
  | listTypes | readForm | listFields | listGroups | readGroup | readTemplate => rfl
  | validate => exact plain_read_same q.record fun body r => validate shelf r body
  | bind t => exact plain_read_same q.record fun body r => bindBody r t body
  | createType | updateType | deleteType | createField | updateField | deleteField | orderFields
  | createGroup | updateGroup | deleteGroup | orderGroups | saveTemplate | createStarterTemplate
  | duplicateTemplate => exact ha.elim

end Actions

/-! ### Requests -/

section Requests
variable {shelf : Shelf} {q : Request} {w : Workspace} {a : Action}

/-- A request that looks at the registry only, by its method or its path. -/
def Request.Reads (q : Request) : Prop :=
  q.method.toUpper = "GET" ∨ (∃ t, q.target.segments = ["api", "v1", "document-types", t, "bind"]) ∨
    q.target.segments = ["api", "v1", "documents", "validate"]

theorem among_eq_some {method : String} {actions : List (String × Action)} {route : Route}
    (h : Route.among method actions = some route) :
    (∃ a, route = .action a ∧ actions.lookup method = some a) ∨
      (∃ a, route = .statusOf a ∧ actions.lookup "GET" = some a) ∨ route = .methods := by
  unfold Route.among at h
  split at h
  · rename_i a ha
    exact .inl ⟨a, (Option.some.inj h).symm, ha⟩
  · split at h
    · cases h
    · split at h
      · exact .inr (.inr (Option.some.inj h).symm)
      · split at h
        · obtain ⟨a, ha, rfl⟩ := Option.map_eq_some_iff.mp h
          exact .inr (.inl ⟨a, rfl, ha⟩)
        · cases h

/-- A request comes to an action that its path lists for its method, to the status of one that its
path lists for reading, or to nothing that could change a workspace. -/
theorem ofRequest_cases (q : Request) :
    (∃ a, Route.ofRequest q = .action a ∧
      (Action.at? q.target.segments).lookup q.method.toUpper = some a) ∨
    (∃ a, Route.ofRequest q = .statusOf a ∧
      (Action.at? q.target.segments).lookup "GET" = some a) ∨
    ∀ shelf w, (answer shelf q w).2 = w := by
  cases hroute : Route.among q.method.toUpper (Action.at? q.target.segments) with
  | some route =>
    have heq : Route.ofRequest q = route := by simp only [Route.ofRequest, hroute]
    rcases among_eq_some hroute with ⟨a, rfl, ha⟩ | ⟨a, rfl, ha⟩ | rfl
    · exact .inl ⟨a, heq, ha⟩
    · exact .inr (.inl ⟨a, heq, ha⟩)
    · exact .inr (.inr fun shelf w => by rw [answer, heq])
  | none =>
    refine .inr (.inr fun shelf w => ?_)
    rw [answer, Route.ofRequest]
    simp only [hroute]
    split_ifs <;> rfl

/-- A request that comes to an action has the status of the action's answer, and leaves what it leaves. -/
theorem answer_of_route (hroute : Route.ofRequest q = .action a ∨ Route.ofRequest q = .statusOf a) :
    (answer shelf q w).1.status = (performed shelf q a w).1.status ∧
      (answer shelf q w).2 = (performed shelf q a w).2 := by
  rcases hroute with hroute | hroute
  · rw [answer, hroute]
    exact ⟨rfl, rfl⟩
  · rw [answer, hroute]
    exact ⟨rfl, rfl⟩

/-- The action that a request comes to has been carried out, but no body can carry its result. -/
def Unwritten (shelf : Shelf) (q : Request) (w : Workspace) : Prop :=
  ∃ a res, (Route.ofRequest q = .action a ∨ Route.ofRequest q = .statusOf a) ∧
    ((perform shelf q a).run.run w).1 = .ok res ∧ res.2.isWritable = false

theorem performed_status (a : Action) : (performed shelf q a w).1.status =
    match ((perform shelf q a).run.run w).1 with
    | .ok res => if res.2.isWritable then res.1 else 500
    | .error e => (Answer.ofFault e).status := by
  unfold performed
  rcases (perform shelf q a).run.run w with ⟨_ | ⟨status, body⟩, w'⟩
  · rfl
  · show (Answer.ofResult status body).status = if body.isWritable then status else 500
    unfold Answer.ofResult
    split <;> rfl

theorem performed_settles (hc : w.registry.Consistent) {a : Action}
    (hroute : Route.ofRequest q = .action a ∨ Route.ofRequest q = .statusOf a) :
    (performed shelf q a w).2.registry = w.registry ∨
      (Succeeds (performed shelf q a w).1.status ∨ Unwritten shelf q w) ∧
        ∃ op, ((w.registry.perform op).run.run w.ids).1 = .ok (performed shelf q a w).2.registry := by
  rcases perform_settles hc a with h | ⟨⟨res, hres, hs⟩, op, hop⟩
  · exact .inl h
  · refine .inr ⟨?_, op, hop⟩
    cases hbody : res.2.isWritable with
    | false => exact .inr ⟨a, res, hroute, hres, hbody⟩
    | true =>
      refine .inl ?_
      rw [performed_status, hres]
      simpa only [hbody, if_true] using hs

/-- Whatever a request meets, it leaves the registry as it was or makes one operation on it, and then it
succeeds unless no body can carry the result. -/
theorem answer_settles (hc : w.registry.Consistent) (shelf : Shelf) (q : Request) :
    (answer shelf q w).2.registry = w.registry ∨
      (Succeeds (answer shelf q w).1.status ∨ Unwritten shelf q w) ∧
        ∃ op, ((w.registry.perform op).run.run w.ids).1 = .ok (answer shelf q w).2.registry := by
  rcases ofRequest_cases q with ⟨a, ha, -⟩ | ⟨a, ha, -⟩ | h
  · rw [(answer_of_route (.inl ha)).1, (answer_of_route (.inl ha)).2]
    exact performed_settles hc (.inl ha)
  · rw [(answer_of_route (.inr ha)).1, (answer_of_route (.inr ha)).2]
    exact performed_settles hc (.inr ha)
  · exact .inl (by rw [h])

end Requests

/-! ### What the service comes to -/

/-- No record has an identifier. -/
structure Unused (r : Registry) (id : String) : Prop where
  type : r.type? id = none
  field : r.field? id = none
  group : r.group? id = none

theorem Unused.fresh {r : Registry} {id : String} (h : Unused r id) (op : Operation) :
    r.Fresh id op := by
  cases op with
  | defineType => exact h.type
  | defineField => exact h.field
  | defineGroup => exact h.group
  | _ => trivial

/-- The registries that requests lead to, one after another and with any catalog, from one that
operations have filled. -/
inductive Served : Registry → Prop
  | start {r : Registry} (h : Registry.Reachable r) : Served r
  | serve {r : Registry} (h : Served r) (shelf : Shelf) (q : Request) (ids : Ids)
      (unused : Unused r ids.take.1) : Served (answer shelf q ⟨r, ids⟩).2.registry

theorem Served.reachable {r : Registry} (h : Served r) : Registry.Reachable r := by
  induction h with
  | start h => exact h
  | @serve r _ shelf q ids unused ih =>
    rcases answer_settles (w := ⟨r, ids⟩) ih.consistent shelf q with h | ⟨-, op, hop⟩
    · rw [h]
      exact ih
    · have hafter : r.after ids op = (answer shelf q ⟨r, ids⟩).2.registry := by
        rw [Registry.after, hop]
      exact hafter ▸ ih.step ids op (unused.fresh op)

end Service
end DocForms
