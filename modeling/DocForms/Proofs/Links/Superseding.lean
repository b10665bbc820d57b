import DocForms.Proofs.Links.Sharing
import DocForms.Proofs.Links.Ties

/-! What a call gets whose lookup gives way to one for another query of the key. It gets nothing if
the lookup has not queried the catalog yet, or if the catalog gives up queries that are cancelled;
while a query is open the catalog can still answer, and the call then passes that answer on. -/
namespace DocForms.Resolver
open Board (Sound Steps)
variable {C : Catalog → Prop} {c : Catalog} {r : Resolver} {key : String} {q q' : LinkQuery}
  {t u : Nat} {k : Task} {ms es : List Move} {m : Move}

/-- A call for the query under the key waits for the lookup, and has not been asked to end. -/
def Awaits (r : Resolver) (t : Nat) (key : String) (q : LinkQuery) (u : Nat) : Prop :=
  ∃ k number types, r.tasks[t]? = some k ∧ k.job = .await key number types ∧
    LinkQuery.ofValues number types = .ok q ∧ k.phase = .awaiting u ∧ k.cancelAsked = false

/-- The task waits for the catalog. -/
def Suspended (r : Resolver) (u : Nat) : Prop :=
  ∃ k number left, r.tasks[u]? = some k ∧ k.phase = .asking number left

/-- If the task has ended, then with the answer that there is nothing. -/
def AnswersNothing (r : Resolver) (t : Nat) : Prop := ∀ o, r.outcome? t = some o → o = .answer none

theorem outcome?_of_task (hk : r.tasks[t]? = some k) : r.outcome? t = k.outcome? := by
  rw [outcome?, hk, Option.bind_some]

/-! ### A call and its lookup -/

theorem Awaits.looksUp (hr : Tied r.tasks) (h : r.Awaits t key q u) : LooksUp r.tasks u key q := by
  obtain ⟨k, number, types, hk, hj, hq, hp, -⟩ := h
  have htied := hr t k hk
  rw [hp] at htied
  obtain ⟨key', number', types', q', hj', hq', hu⟩ := htied
  rw [hj] at hj'
  cases hj'
  obtain rfl := Except.ok.inj (hq.symm.trans hq')
  exact hu

theorem Awaits.unfinished (h : r.Awaits t key q u) : r.outcome? t = none := by
  obtain ⟨k, number, types, hk, -, -, hp, -⟩ := h
  rw [outcome?_of_task hk, Task.outcome?, hp]

/-- The turn of a call that waits: it ends as soon as its lookup has. -/
theorem awaiting_turn (h : r.Awaits t key q u) (c : Catalog) :
    (r.outcome? u = none → (r.turn c t).tasks = r.tasks) ∧
    ∀ o, r.outcome? u = some o → (r.turn c t).outcome? t = some (awaited o) := by
  obtain ⟨k, number, types, hk, -, -, hp, ha⟩ := h
  obtain ⟨r', hb, hsome, -⟩ := turn_cases c r t
  have hu : r'.outcome? u = r.outcome? u := congrArg (Board.outcome? · u) hb
  have hk' : r'.tasks[t]? = some k := by rw [← hk]; exact congrArg (·.tasks[t]?) hb
  rw [hsome k hk, step, hp]
  dsimp only
  rw [hu]
  refine ⟨fun hnone => ?_, fun o ho => ?_⟩
  · rw [hnone]
    simp only [ha, Bool.false_eq_true, if_false]
    exact congrArg Board.tasks hb
  · rw [ho]
    have hend (o : Outcome) : (r'.finish t k.job o).outcome? t = some o := by
      rw [← board_outcome?, board_finish]
      exact finish_outcome? (List.getElem?_eq_some_iff.mp hk').1 k.job o
    cases o with
    | cancelled => exact hend _
    | answer | failed =>
      simp only [ha, Bool.false_eq_true, if_false]
      exact hend _

/-- The call still waits for the lookup, or has ended with what it makes of how that ended. -/
def Follows (r : Resolver) (t : Nat) (key : String) (q : LinkQuery) (u : Nat) : Prop :=
  r.Awaits t key q u ∨ ∃ o, r.outcome? u = some o ∧ r.outcome? t = some (awaited o)

theorem Follows.move (hs : Sound C r.board) (hr : Tied r.tasks) (h : r.Follows t key q u) (m : Move)
    (hm : ∀ c v, m = .turn c v → C c) (hx : m ≠ .cancel t) : (r.move m).Follows t key q u := by
  have hkeeps := (move_steps (X := True) hs m hm fun _ _ => trivial).keeps
  rcases h with hw | ⟨o, ho, hend⟩
  · by_cases hturn : ∃ c, m = .turn c t
    · obtain ⟨c, rfl⟩ := hturn
      obtain ⟨hstay, hend⟩ := awaiting_turn hw c
      cases ho : r.outcome? u with
      | none =>
        refine .inl ?_
        rw [Awaits, Resolver.move, hstay ho]
        exact hw
      | some o => exact .inr ⟨o, hkeeps.outcome? ho, hend o ho⟩
    · -- only its own turn or its own cancellation would change the call
      obtain ⟨k, number, types, hk, hj, hrest⟩ := hw
      refine .inl ⟨k, number, types, ?_, hj, hrest⟩
      refine move_getElem? hs hr hk (by simp [hj]) m (fun c v he => ⟨hm c v he, ?_⟩) hx
      rintro rfl
      exact hturn ⟨c, he⟩
  · exact .inr ⟨o, hkeeps.outcome? ho, hkeeps.outcome? hend⟩

theorem Follows.later (h : (reached ms).Follows t key q u) (es : List Move)
    (hx : .cancel t ∉ es) : (reached (ms ++ es)).Follows t key q u := by
  induction es using List.reverseRecOn with
  | nil =>
    rw [List.append_nil]
    exact h
  | append_singleton es m ih =>
    rw [List.mem_append, not_or, List.mem_singleton] at hx
    rw [← List.append_assoc, reached_append]
    exact (ih hx.1).move (sound_reached _) (tied_reached _) m (fun _ _ _ => trivial) (Ne.symm hx.2)

theorem Follows.ended (h : r.Follows t key q u) {o : Outcome} (ho : r.outcome? t = some o) :
    ∃ o', r.outcome? u = some o' ∧ o = awaited o' := by
  rcases h with hw | ⟨o', ho', hend⟩
  · rw [hw.unfinished] at ho
    cases ho
  · exact ⟨o', ho', Option.some.inj (ho.symm.trans hend)⟩

/-- Once its lookup has ended, the next turn of the call ends it. -/
theorem Follows.turn (hs : Sound C r.board) (h : r.Follows t key q u) (hc : C c) {o : Outcome}
    (ho : r.outcome? u = some o) : (r.turn c t).outcome? t = some (awaited o) := by
  rcases h with hw | ⟨o', ho', hend⟩
  · exact (awaiting_turn hw c).2 o ho
  · obtain rfl := Option.some.inj (ho.symm.trans ho')
    exact (turn_steps (X := True) hs hc t).keeps.outcome? hend

/-! ### What becomes of a lookup that gives way -/

theorem asked?_request (hs : Sound C r.board) (hm : ∀ c v, m = .turn c v → C c)
    (hreq : r.request? m = some (key, q')) : (r.move m).asked? key = some q' := by
  have hf : ¬ m.Forgets key := by
    cases m with
    | invalidate | clear => cases hreq
    | schedule | lookup | resolve | settle | cancel | turn => exact id
  rw [asked?_move hs key m hm, wantedAfter, if_neg hf, hreq]
  simp

/-- Asking for a query ends no lookup. -/
theorem outcome?_request (hs : Sound C r.board) (hm : ∀ c v, m = .turn c v → C c)
    (hreq : r.request? m = some (key, q')) (hu : LooksUp r.tasks u key q) :
    (r.move m).outcome? u = r.outcome? u := by
  cases m with
  | schedule key' q => exact outcome?_schedule r key' q u
  | turn c v =>
    refine outcome?_turn hs (hm c v rfl) ?_
    rintro rfl
    obtain ⟨k, hk, hask⟩ := Option.bind_eq_some_iff.mp hreq
    obtain ⟨number, types, hj, -⟩ := request?_job hask
    obtain ⟨l, hl, hjl⟩ := hu
    obtain rfl := Option.some.inj (hk.symm.trans hl)
    rw [hj] at hjl
    cases hjl
  | lookup | resolve | settle | invalidate | clear | cancel => cases hreq

/-- A lookup for another query than the last one asked for is not the newest of its key. -/
theorem not_newest (hs : Sound C r.board) (hu : LooksUp r.tasks u key q)
    (hask : r.asked? key = some q') (hq : q' ≠ q) {n : Newest} (hn : r.newest.get? key = some n) :
    n.task ≠ u := by
  rintro rfl
  obtain ⟨n', hn', rfl⟩ := asked?_eq_some.mp hask
  obtain rfl := Option.some.inj (hn.symm.trans hn')
  obtain ⟨l, hl, hj⟩ := hs.newest key n hn
  obtain ⟨l', hl', hj'⟩ := hu
  obtain rfl := Option.some.inj (hl.symm.trans hl')
  rw [hj] at hj'
  cases hj'
  exact hq rfl

/-- A lookup can only be fresh, ask or have ended. -/
theorem lookup_phase (hs : Sound C r.board) (hk : r.tasks[u]? = some k)
    (hj : k.job = .lookup key q) (hu : r.outcome? u = none) :
    k.phase = .fresh ∨ ∃ number left, k.phase = .asking number left := by
  have hal := hs.allowed u k hk
  rw [outcome?_of_task hk] at hu
  cases hp : k.phase with
  | fresh => exact .inl rfl
  | asking number left => exact .inr ⟨number, left, rfl⟩
  | awaiting | gathering =>
    rw [hj, hp] at hal
    exact hal.elim
  | finished o =>
    rw [Task.outcome?, hp] at hu
    cases hu

/-- The turn of a task with an open query, under a catalog that has the document. -/
theorem stubborn_turn (hr : Tied r.tasks) (h : r.Suspended u) :
    (r.turn stubborn u).outcome? u = some (.answer (some lateDocument)) := by
  obtain ⟨k, number, left, hk, hp⟩ := h
  have hleft := hr u k hk
  rw [hp] at hleft
  obtain ⟨type, left, rfl⟩ := List.exists_cons_of_ne_nil hleft
  have hlt : u < (r.board.calm u).tasks.length := by
    rw [Board.calm, List.length_modify]
    exact (List.getElem?_eq_some_iff.mp hk).1
  rw [← board_outcome?, answering_turn hk hp rfl rfl]
  exact finish_outcome? hlt k.job _

/-- What a lookup has ended with answers its query. -/
theorem resolves_of_outcome (ms : List Move) (hu : LooksUp (reached ms).tasks u key q)
    {a : Option Document} (h : (reached ms).outcome? u = some (.answer a)) :
    q.Resolves (Move.Met ms) a := by
  obtain ⟨k, hk, hj⟩ := hu
  obtain ⟨k', hk', hp⟩ := Board.outcome?_eq_some.mp ((board_outcome? ..).trans h)
  obtain rfl := Option.some.inj (hk.symm.trans hk')
  exact answered_resolves (reached_sound ms fun c v hv => ⟨v, hv⟩) ⟨k, hk, hj, hp⟩

/-! ### Lookups that never answer -/

/-- The lookup has been asked to end and has not ended in another way, and none of the catalogs can
make it answer. -/
def GivesWay (C : Catalog → Prop) (r : Resolver) (u : Nat) (key : String) (q : LinkQuery) : Prop :=
  ∃ k, r.tasks[u]? = some k ∧ k.job = .lookup key q ∧
    (k.outcome? = none ∧ k.cancelAsked = true ∧
      (k.phase = .fresh ∨ ∀ c, C c → ∀ number, c.heed number = .givesUp) ∨
    k.outcome? = some .cancelled)

theorem GivesWay.outcome (h : r.GivesWay C u key q) {o : Outcome} (ho : r.outcome? u = some o) :
    o = .cancelled := by
  obtain ⟨k, hk, -, ⟨hnone, -⟩ | hsome⟩ := h <;> rw [outcome?_of_task hk] at ho
  · rw [ho] at hnone
    cases hnone
  · exact Option.some.inj (ho.symm.trans hsome)

/-- The turn of a lookup that gives way ends it without an answer. -/
theorem GivesWay.turn (hs : Sound C r.board) (h : r.GivesWay C u key q) (hc : C c) :
    (r.turn c u).outcome? u = some .cancelled := by
  obtain ⟨k, hk, hj, ⟨hnone, ha, hway⟩ | hend⟩ := h
  · have ho : r.outcome? u = none := by rw [outcome?_of_task hk, hnone]
    have hlt : u < r.tasks.length := (List.getElem?_eq_some_iff.mp hk).1
    rcases lookup_phase hs hk hj ho with hp | ⟨number, left, hp⟩
    · obtain ⟨r', hb, hsome, -⟩ := turn_cases c r u
      rw [hsome k hk, step, hp]
      dsimp only
      rw [if_pos ha, ← board_outcome?, board_finish, hb]
      exact finish_outcome? hlt k.job _
    · have hgive := hway.resolve_left (by simp [hp]) c hc number
      rw [← board_outcome?, givenUp_turn hk ha hp hgive]
      exact finish_outcome? hlt k.job _
  · have ho : r.outcome? u = some .cancelled := by rw [outcome?_of_task hk, hend]
    exact (turn_steps (X := True) hs hc u).keeps.outcome? ho

theorem steps_asked {b b' : Board} {X : Prop} (hC : ∀ c, C c → ∀ number, c.heed number = .givesUp)
    (h : Steps C X b b') (hk : b.tasks[u]? = some k) (ha : k.cancelAsked = true) :
    ∃ k', b'.tasks[u]? = some k' ∧ k'.cancelAsked = true := by
  induction h with
  | refl => exact ⟨k, hk, ha⟩
  | tail _ h ih =>
    obtain ⟨k₁, hk₁, ha₁⟩ := ih
    exact h.asked hC hk₁ ha₁

theorem GivesWay.move (hs : Sound C r.board) (h : r.GivesWay C u key q) (m : Move)
    (hm : ∀ c v, m = .turn c v → C c) : (r.move m).GivesWay C u key q := by
  have hsteps := move_steps (X := True) hs m hm fun _ _ => trivial
  obtain ⟨k, hk, hj, hcase⟩ := id h
  obtain ⟨k', hk', he⟩ := hsteps.keeps u k hk
  refine ⟨k', hk', he.job.trans hj, ?_⟩
  rw [board_tasks] at hk'
  have hout : (r.move m).outcome? u = k'.outcome? := outcome?_of_task hk'
  rcases hcase with ⟨hnone, ha, hway⟩ | hend
  · have ho : r.outcome? u = none := by rw [outcome?_of_task hk, hnone]
    cases ho' : k'.outcome? with
    | none =>
      rcases hway with hp | hgive
      · rcases he.doomed hp ha with ⟨hp', ha'⟩ | hp'
        · exact .inl ⟨rfl, ha', .inl hp'⟩
        · rw [Task.outcome?, hp'] at ho'
          cases ho'
      · obtain ⟨k₁, hk₁, ha₁⟩ := steps_asked hgive hsteps hk ha
        obtain rfl := Option.some.inj (hk'.symm.trans hk₁)
        exact .inl ⟨rfl, ha₁, .inr hgive⟩
    | some o =>
      obtain ⟨c, rfl⟩ := ends_at_turn hs m hm ho (by simp [hout, ho'])
      exact .inr (ho'.symm.trans (hout.symm.trans (h.turn hs (hm c u rfl))))
  · have ho : r.board.outcome? u = some .cancelled := (outcome?_of_task hk).trans hend
    exact .inr (hout.symm.trans (hsteps.keeps.outcome? ho))

theorem GivesWay.later (h : (reached ms).GivesWay C u key q) (es : List Move)
    (hm : ∀ c v, .turn c v ∈ ms ++ es → C c) : (reached (ms ++ es)).GivesWay C u key q := by
  induction es using List.reverseRecOn with
  | nil =>
    rw [List.append_nil]
    exact h
  | append_singleton es m ih =>
    rw [← List.append_assoc] at hm ⊢
    have hbefore : ∀ c v, .turn c v ∈ ms ++ es → C c :=
      fun c v hmem => hm c v (List.mem_append_left _ hmem)
    rw [reached_append]
    refine (ih hbefore).move (reached_sound _ hbefore) m fun c v he => hm c v ?_
    exact List.mem_append_right _ (List.mem_singleton.mpr he.symm)

theorem led_reached (hC : ∀ c, C c → ∀ number, c.heed number = .givesUp) (ms : List Move)
    (hm : ∀ c v, .turn c v ∈ ms → C c) : (reached ms).board.Led := by
  have hempty : (reached []).board.Led := fun t k key q hk => by cases hk
  exact hempty.steps hC (reached_steps (X := True) [] ms hm fun _ _ => trivial)

/-! ### Superseded calls -/

/-- The call follows the lookup, which has not ended; something else was asked for last under the
key. -/
structure Overtaken (r : Resolver) (t : Nat) (key : String) (q : LinkQuery) (u : Nat) : Prop where
  follows : r.Follows t key q u
  lookup : LooksUp r.tasks u key q
  unfinished : r.outcome? u = none
  other : ∃ q', r.asked? key = some q' ∧ q' ≠ q

theorem overtaken_of_request (hw : (reached ms).Awaits t key q u)
    (hreq : (reached ms).request? m = some (key, q')) (hq : q' ≠ q)
    (hrun : (reached ms).outcome? u = none) : (reached (ms ++ [m])).Overtaken t key q u := by
  have hu : LooksUp (reached ms).tasks u key q := hw.looksUp (tied_reached ms)
  have hm : m ≠ .cancel t := by
    rintro rfl
    cases hreq
  refine ⟨Follows.later (.inl hw) [m] (by simpa using hm.symm),
    hu.keeps (steps_reached ms [m]).keeps, ?_, q', ?_, hq⟩ <;> rw [reached_append]
  · exact (outcome?_request (sound_reached ms) (fun _ _ _ => trivial) hreq hu).trans hrun
  · exact asked?_request (sound_reached ms) (fun _ _ _ => trivial) hreq

theorem Follows.answersNothing (h : r.Follows t key q u)
    (hu : ∀ o, r.outcome? u = some o → o = .cancelled) : r.AnswersNothing t := by
  intro o ho
  obtain ⟨o', ho', rfl⟩ := h.ended ho
  rw [hu o' ho', awaited]

/-- While the lookup waits for the catalog, this can still answer it and the call. -/
theorem Follows.answered_late (h : (reached ms).Follows t key q u)
    (hsus : (reached ms).Suspended u) :
    (reached (ms ++ [.turn stubborn u, .turn stubborn t])).outcome? t =
      some (.answer (some lateDocument)) := by
  have hx : .cancel t ∉ [Move.turn stubborn u] := by simp
  have hlate : (reached (ms ++ [.turn stubborn u])).outcome? u =
      some (.answer (some lateDocument)) := by
    rw [reached_append]
    exact stubborn_turn (tied_reached ms) hsus
  rw [List.append_cons, reached_append _ [.turn stubborn t]]
  exact (h.later [.turn stubborn u] hx).turn (sound_reached _) trivial hlate

/-- The lookup has been cancelled by now, so it gives way if it has no open query or if the catalogs
give up. -/
theorem Overtaken.givesWay (hs : Sound C r.board) (h : r.Overtaken t key q u)
    (hway : ¬ r.Suspended u ∨ r.board.Led ∧ ∀ c, C c → ∀ number, c.heed number = .givesUp) :
    r.GivesWay C u key q := by
  obtain ⟨q', hask, hq⟩ := h.other
  obtain ⟨k, hk, hj⟩ := h.lookup
  have hrun : k.outcome? = none := outcome?_of_task hk ▸ h.unfinished
  refine ⟨k, hk, hj, .inl ⟨hrun, ?_⟩⟩
  -- one that is not cancelled would be the newest of its key
  have hcancelled (hnewest : k.cancelAsked = false → ∃ n, r.newest.get? key = some n ∧ n.task = u) :
      k.cancelAsked = true := by
    rw [← Bool.not_eq_false]
    intro ha
    obtain ⟨n, hn, ht⟩ := hnewest ha
    exact not_newest hs h.lookup hask hq hn ht
  rcases hway with hn | ⟨hl, hgive⟩
  · have hp : k.phase = .fresh := by
      refine (lookup_phase hs hk hj h.unfinished).resolve_right ?_
      rintro ⟨number, left, hp⟩
      exact hn ⟨k, number, left, hk, hp⟩
    exact ⟨hcancelled (hs.pending u k key q hk hj hp), .inl hp⟩
  · have hu : k.isFinished = false := by rw [Task.isFinished, hrun]; rfl
    exact ⟨hcancelled (hl u k key q hk hj hu), .inr hgive⟩

theorem Overtaken.nothing (h : (reached ms).Overtaken t key q u) (es : List Move)
    (hx : .cancel t ∉ es) (hway : ¬ (reached ms).Suspended u ∨
      ∀ c, Move.Met (ms ++ es) c → ∀ number, c.heed number = .givesUp) :
    (reached (ms ++ es)).AnswersNothing t ∧
    ∀ before c between c', es = before ++ [.turn c u] ++ between ++ [.turn c' t] →
      (reached (ms ++ es)).outcome? t = some (.answer none) := by
  have hmet {fs : List Move} (hfs : fs <+: ms ++ es) (c : Catalog) (v : Nat)
      (hmem : .turn c v ∈ fs) : Move.Met (ms ++ es) c := ⟨v, hfs.subset hmem⟩
  have hms := hmet (List.prefix_append ms es)
  have hgives : (reached ms).GivesWay (Move.Met (ms ++ es)) u key q :=
    h.givesWay (reached_sound ms hms) (hway.imp_right fun hgive => ⟨led_reached hgive ms hms, hgive⟩)
  have hnow := hgives.later es (hmet List.prefix_rfl)
  refine ⟨(h.follows.later es hx).answersNothing fun o => hnow.outcome, ?_⟩
  rintro before c between c' rfl
  have hbefore : ms ++ before <+: ms ++ (before ++ [.turn c u] ++ between ++ [.turn c' t]) :=
    ⟨[.turn c u] ++ between ++ [.turn c' t], by simp⟩
  have hended : (reached (ms ++ before ++ [.turn c u])).outcome? u = some .cancelled := by
    rw [reached_append _ [_]]
    exact (hgives.later before (hmet hbefore)).turn (reached_sound _ (hmet hbefore)) ⟨u, by simp⟩
  have hstays := (steps_reached (ms ++ before ++ [Move.turn c u]) between).keeps.outcome? hended
  have hfollows := h.follows.later (before ++ [Move.turn c u] ++ between)
    fun hmem => hx (List.mem_append_left _ hmem)
  rw [← List.append_assoc, reached_append _ [_]]
  simp only [← List.append_assoc] at hfollows ⊢
  exact hfollows.turn (sound_reached _) trivial hstays

theorem Overtaken.answersNothing_iff (h : (reached ms).Overtaken t key q u) :
    (∀ es, .cancel t ∉ es → (reached (ms ++ es)).AnswersNothing t) ↔ ¬ (reached ms).Suspended u := by
  constructor
  · intro hall hsus
    have hlate := h.follows.answered_late hsus
    have hnothing := hall [.turn stubborn u, .turn stubborn t] (by simp) _ hlate
    cases hnothing
  · intro hn es hx
    exact (h.nothing es hx (.inl hn)).1

/-- A call waits for its lookup, and another query is asked for under the key. Whenever the call ends,
its lookup has ended, and the caller gets what that came to, or nothing if it was cancelled; once the
lookup has ended, the next turn of the call ends it. If the lookup had not ended when the other query
was asked for, the caller gets nothing in all continuations if and only if the lookup is not left
waiting for the catalog. If it is not, or if the catalogs give up queries that are cancelled, the
caller gets nothing, and does so once the lookup and then the call have had a turn. -/
theorem superseded_call (ms : List Move) (m : Move) (t u : Nat) (key : String) (q q' : LinkQuery)
    (hw : (reached ms).Awaits t key q u) (hreq : (reached ms).request? m = some (key, q'))
    (hq : q' ≠ q) :
    (∀ es, .cancel t ∉ es →
      (∀ o, (reached (ms ++ es)).outcome? t = some o → ∃ o',
        (reached (ms ++ es)).outcome? u = some o' ∧ o = awaited o' ∧
        ∀ a, o' = .answer a → q.Resolves (Move.Met (ms ++ es)) a) ∧
      ∀ c o, (reached (ms ++ es)).outcome? u = some o →
        (reached (ms ++ es ++ [.turn c t])).outcome? t = some (awaited o)) ∧
    ((reached ms).outcome? u = none →
      ((∀ es, .cancel t ∉ es → (reached (ms ++ [m] ++ es)).AnswersNothing t) ↔
        ¬ (reached (ms ++ [m])).Suspended u) ∧
      ∀ es, .cancel t ∉ es → (¬ (reached (ms ++ [m])).Suspended u ∨
          ∀ c, Move.Met (ms ++ [m] ++ es) c → ∀ number, c.heed number = .givesUp) →
        (reached (ms ++ [m] ++ es)).AnswersNothing t ∧
        ∀ before c between c', es = before ++ [.turn c u] ++ between ++ [.turn c' t] →
          (reached (ms ++ [m] ++ es)).outcome? t = some (.answer none)) := by
  refine ⟨fun es hx => ?_, fun hrun => ?_⟩
  · have hfollows : (reached (ms ++ es)).Follows t key q u := Follows.later (.inl hw) es hx
    refine ⟨fun o ho => ?_, fun c o ho => ?_⟩
    · obtain ⟨o', ho', he⟩ := hfollows.ended ho
      have hu : LooksUp (reached (ms ++ es)).tasks u key q :=
        (hw.looksUp (tied_reached ms)).keeps (steps_reached ms es).keeps
      exact ⟨o', ho', he, fun a ha => resolves_of_outcome _ hu (ha ▸ ho')⟩
    · rw [reached_append _ [_]]
      exact hfollows.turn (sound_reached _) trivial ho
  · have hover := overtaken_of_request hw hreq hq hrun
    exact ⟨hover.answersNothing_iff, hover.nothing⟩

/-- A catalog that has every number, answers later, and gives up queries that are cancelled. -/
def patient : Catalog where
  replyTo type number := .found { number := .text number, typeId := type }
  isOpen _ := false

/-- The lookup of a call waits for the catalog when there is a call for another number. -/
def twoCalls : List Move :=
  [.lookup "k" (.text "X-1") (.list [.text "a"]), .turn patient 0, .turn patient 1,
    .lookup "k" (.text "X-2") (.list [.text "a"])]

/-- The first call ends with nothing after a turn of its lookup and one of its own, and the second
with its document. -/
theorem superseded_call_given_up :
    (reached twoCalls).Awaits 0 "k" lateQuery 1 ∧
    (reached twoCalls).request? (.turn patient 2) = some ("k", ⟨.text "X-2", ["a"]⟩) ∧
    (reached twoCalls).outcome? 1 = none ∧
    (reached (twoCalls ++ [.turn patient 2] ++ [.turn patient 1, .turn patient 0])).outcome? 0 =
      some (.answer none) ∧
    (reached (twoCalls ++ [.turn patient 2] ++
      [.turn patient 3, .turn patient 3, .turn patient 2])).outcome? 2 =
      some (.answer (some { number := .text "X-2", typeId := "a" })) := by
  have htask : (reached twoCalls).tasks[0]? =
      some ⟨.await "k" (.text "X-1") (.list [.text "a"]), .awaiting 1, false⟩ := by decide +kernel
  have hq : LinkQuery.ofValues (.text "X-1") (.list [.text "a"]) = .ok lateQuery := by decide +kernel
  have hw : (reached twoCalls).Awaits 0 "k" lateQuery 1 := ⟨_, _, _, htask, rfl, hq, rfl, rfl⟩
  have hreq : (reached twoCalls).request? (.turn patient 2) = some ("k", ⟨.text "X-2", ["a"]⟩) := by
    decide +kernel
  have hrun : (reached twoCalls).outcome? 1 = none := by decide +kernel
  have hgive (c : Catalog)
      (h : Move.Met (twoCalls ++ [.turn patient 2] ++ [.turn patient 1, .turn patient 0]) c)
      (number : String) : c.heed number = .givesUp := by
    obtain ⟨v, hv⟩ := h
    simp only [twoCalls, List.cons_append, List.nil_append, List.mem_cons, Move.turn.injEq,
      reduceCtorEq, false_or, List.not_mem_nil, or_false] at hv
    rcases hv with ⟨rfl, -⟩ | ⟨rfl, -⟩ | ⟨rfl, -⟩ | ⟨rfl, -⟩ | ⟨rfl, -⟩ <;> rfl
  obtain ⟨-, h⟩ := superseded_call twoCalls (.turn patient 2) 0 1 "k" lateQuery ⟨.text "X-2", ["a"]⟩
    hw hreq (by decide)
  obtain ⟨-, hend⟩ := (h hrun).2 [.turn patient 1, .turn patient 0] (by simp) (.inr hgive)
  exact ⟨hw, hreq, hrun, hend [] patient [] patient rfl, by decide +kernel⟩

/-- The lookup of a call waits for a catalog that answers cancelled queries. -/
def lateCall : List Move :=
  [.lookup "k" (.text "X-1") (.list [.text "a"]), .turn stubborn 0, .turn stubborn 1]

/-- Another number is scheduled, and the call ends with the document of the number it gave up. -/
theorem superseded_call_answered :
    (reached lateCall).Awaits 0 "k" lateQuery 1 ∧ (reached lateCall).outcome? 1 = none ∧
    (reached lateCall).request? (.schedule "k" ⟨.text "Y-1", ["a"]⟩) =
      some ("k", ⟨.text "Y-1", ["a"]⟩) ∧
    (reached (lateCall ++ [.schedule "k" ⟨.text "Y-1", ["a"]⟩] ++
      [.turn stubborn 1, .turn stubborn 0])).outcome? 0 = some (.answer (some lateDocument)) := by
  have htask : (reached lateCall).tasks[0]? =
      some ⟨.await "k" (.text "X-1") (.list [.text "a"]), .awaiting 1, false⟩ := by decide +kernel
  have hq : LinkQuery.ofValues (.text "X-1") (.list [.text "a"]) = .ok lateQuery := by decide +kernel
  refine ⟨⟨_, _, _, htask, rfl, hq, rfl, rfl⟩, ?_⟩
  decide +kernel

end DocForms.Resolver
