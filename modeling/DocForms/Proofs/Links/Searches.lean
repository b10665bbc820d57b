import DocForms.Proofs.Links.Lingering
import DocForms.Proofs.Links.Queries

/-! What a search asks and what it comes to. However its turns are mixed with other moves, it queries
the types in their order, each once, up to the first reply that is no miss, and that reply decides
what it ends with. -/
namespace DocForms

/-- A reply after which a search goes on with the next type. -/
def Reply.Misses (a : Reply) : Prop := a = .missing ∨ a = .failed

/-- What a search in types has come to that has heard the replies: it ends with the first document,
cancelled where it is withdrawn, with nothing when all types have missed, and has not ended
before. -/
inductive FirstHit (types : List String) : List Reply → Option Outcome → Prop
  | found {misses : List Reply} (d : Document) (hm : ∀ a ∈ misses, a.Misses)
      (hl : misses.length < types.length) :
      FirstHit types (misses ++ [.found d]) (some (.answer (some d)))
  | withdrawn {misses : List Reply} (hm : ∀ a ∈ misses, a.Misses)
      (hl : misses.length < types.length) :
      FirstHit types (misses ++ [.withdrawn]) (some .cancelled)
  | exhausted {misses : List Reply} (hm : ∀ a ∈ misses, a.Misses)
      (hl : misses.length = types.length) : FirstHit types misses (some (.answer none))
  | waits {misses : List Reply} (hm : ∀ a ∈ misses, a.Misses)
      (hl : misses.length < types.length) : FirstHit types misses none

/-- A search for a number in types as far as it has come: the queries that it has made, the replies
that it has heard, and where it stands. -/
inductive Searches (number : String) :
    List String → List (String × String) → List Reply → Search → Prop
  | exhausted : Searches number [] [] [] (.ended (.answer none))
  | waits (type : String) (left : List String) :
      Searches number (type :: left) [(type, number)] [] (.asking number (type :: left))
  | found (type : String) (left : List String) (d : Document) :
      Searches number (type :: left) [(type, number)] [.found d] (.ended (.answer (some d)))
  | withdrawn (type : String) (left : List String) :
      Searches number (type :: left) [(type, number)] [.withdrawn] (.ended .cancelled)
  | miss {type : String} {left : List String} {asked : List (String × String)} {a : Reply}
      {heard : List Reply} {s : Search} (ha : a.Misses) (rest : Searches number left asked heard s) :
      Searches number (type :: left) ((type, number) :: asked) (a :: heard) s

/-- How a search has ended, if it has. -/
def Search.outcome? : Search → Option Outcome
  | .ended o => some o
  | .asking .. => none

/-- The phase of a task whose search stands there. -/
def Search.phase : Search → Phase
  | .ended o => .finished o
  | .asking number left => .asking number left

namespace FirstHit
variable {types : List String} {heard : List Reply} {o : Option Outcome}

theorem miss {a : Reply} (ha : a.Misses) (type : String) (h : FirstHit types heard o) :
    FirstHit (type :: types) (a :: heard) o := by
  have misses {as : List Reply} (hm : ∀ b ∈ as, b.Misses) : ∀ b ∈ a :: as, b.Misses :=
    List.forall_mem_cons.mpr ⟨ha, hm⟩
  cases h with
  | found d hm hl => exact .found d (misses hm) (Nat.succ_lt_succ hl)
  | withdrawn hm hl => exact .withdrawn (misses hm) (Nat.succ_lt_succ hl)
  | exhausted hm hl => exact .exhausted (misses hm) (congrArg Nat.succ hl)
  | waits hm hl => exact .waits (misses hm) (Nat.succ_lt_succ hl)

theorem nil_cases {type : String} (h : FirstHit (type :: types) [] o) : o = none := by
  generalize hts : type :: types = ts at h
  generalize has : [] = as at h
  cases h with
  | found | withdrawn => simp at has
  | exhausted _ hl =>
    subst hts has
    cases hl
  | waits => rfl

theorem of_nil (h : FirstHit [] heard o) : heard = [] ∧ o = some (.answer none) := by
  cases h with
  | found _ _ hl | withdrawn _ hl | waits _ hl => cases hl
  | exhausted _ hl => exact ⟨List.length_eq_zero_iff.mp hl, rfl⟩

/-- The first reply is a miss, after which the other types are searched, or it ends the search. -/
theorem cons_cases {type : String} {a : Reply}
    (h : FirstHit (type :: types) (a :: heard) o) :
    a.Misses ∧ FirstHit types heard o ∨
    heard = [] ∧ ((∃ d, a = .found d ∧ o = some (.answer (some d))) ∨
      a = .withdrawn ∧ o = some .cancelled) := by
  generalize hts : type :: types = ts at h
  generalize has : a :: heard = as at h
  cases h with
  | @found misses d hm hl =>
    subst hts
    cases misses with
    | nil =>
      obtain ⟨rfl, rfl⟩ := List.cons.inj has
      exact .inr ⟨rfl, .inl ⟨d, rfl, rfl⟩⟩
    | cons b misses =>
      obtain ⟨rfl, rfl⟩ := List.cons.inj has
      obtain ⟨hb, hm⟩ := List.forall_mem_cons.mp hm
      exact .inl ⟨hb, .found d hm (Nat.lt_of_succ_lt_succ hl)⟩
  | @withdrawn misses hm hl =>
    subst hts
    cases misses with
    | nil =>
      obtain ⟨rfl, rfl⟩ := List.cons.inj has
      exact .inr ⟨rfl, .inr ⟨rfl, rfl⟩⟩
    | cons b misses =>
      obtain ⟨rfl, rfl⟩ := List.cons.inj has
      obtain ⟨hb, hm⟩ := List.forall_mem_cons.mp hm
      exact .inl ⟨hb, .withdrawn hm (Nat.lt_of_succ_lt_succ hl)⟩
  | exhausted hm hl =>
    subst hts has
    obtain ⟨hb, hm⟩ := List.forall_mem_cons.mp hm
    exact .inl ⟨hb, .exhausted hm (Nat.succ.inj hl)⟩
  | waits hm hl =>
    subst hts has
    obtain ⟨hb, hm⟩ := List.forall_mem_cons.mp hm
    exact .inl ⟨hb, .waits hm (Nat.lt_of_succ_lt_succ hl)⟩

end FirstHit

namespace Searches
variable {number n : String} {types left : List String} {asked asked' : List (String × String)}
  {heard heard' : List Reply} {s s' : Search}

/-- What a search comes to is decided by the first reply that is no miss. -/
theorem firstHit (h : Searches number types asked heard s) : FirstHit types heard s.outcome? := by
  induction h with
  | exhausted => exact .exhausted (by simp) rfl
  | waits type left => exact .waits (by simp) (Nat.zero_lt_succ _)
  | found type left d => exact @FirstHit.found _ [] d (by simp) (Nat.zero_lt_succ _)
  | withdrawn type left => exact @FirstHit.withdrawn _ [] (by simp) (Nat.zero_lt_succ _)
  | miss ha _ ih => exact ih.miss ha _

/-- The queries are for the types in their order, one for each reply and one that is open unless the
search has ended. -/
theorem asked_eq (h : Searches number types asked heard s) :
    asked = (types.take (heard.length + if s.outcome? = none then 1 else 0)).map (·, number) := by
  induction h with
  | exhausted | waits | found | withdrawn => simp [Search.outcome?]
  | miss ha _ ih => rw [ih, List.length_cons, Nat.succ_add, List.take_succ_cons, List.map_cons]

/-- A search that waits has a query open, for its number in the first of the types that are left. -/
theorem open_query (h : Searches number types asked heard (.asking n left)) :
    n = number ∧ ∃ type rest, left = type :: rest := by
  generalize hs : Search.asking n left = s at h
  induction h with
  | exhausted | found | withdrawn => cases hs
  | waits type rest =>
    obtain ⟨rfl, rfl⟩ := Search.asking.inj hs
    exact ⟨rfl, type, rest, rfl⟩
  | miss _ _ ih => exact ih hs

/-- After the reply to its open query, a search has come further in the types that are left. -/
theorem reply {type : String} {rest : List String}
    (h : Searches number types asked heard (.asking number (type :: rest)))
    (h' : Searches number (type :: rest) ((type, number) :: asked') heard' s') :
    Searches number types (asked ++ asked') (heard ++ heard') s' := by
  generalize hs : Search.asking number (type :: rest) = s at h
  induction h with
  | exhausted | found | withdrawn => cases hs
  | waits =>
    cases hs
    exact h'
  | miss ha _ ih => exact .miss ha (ih hs)

end Searches

namespace Catalog
variable {c : Catalog} {number : String}

/-- What a catalog says at once to queries. -/
def answers (c : Catalog) (asked : List (String × String)) : List Reply :=
  (asked.filter (c.isOpen ·.2)).map fun q => c.replyTo q.1 q.2

theorem answers_open (ho : c.isOpen number = true) (type : String) (asked : List (String × String)) :
    c.answers ((type, number) :: asked) = c.replyTo type number :: c.answers asked := by
  simp [answers, ho]

theorem search_searches (c : Catalog) (number : String) (types : List String) :
    Searches number types (c.search number types).1 (c.answers (c.search number types).1)
      (c.search number types).2 := by
  induction types with
  | nil => exact .exhausted
  | cons type types ih =>
    rw [search]
    split
    · rename_i ho
      cases hr : c.replyTo type number with
      | found d =>
        rw [answers_open ho, hr]
        exact .found type types d
      | withdrawn =>
        rw [answers_open ho, hr]
        exact .withdrawn type types
      | missing =>
        rw [answers_open ho, hr]
        exact .miss (.inl rfl) ih
      | failed =>
        rw [answers_open ho, hr]
        exact .miss (.inr rfl) ih
    · rename_i ho
      have hnone : c.answers [(type, number)] = [] := by simp [answers, ho]
      rw [hnone]
      exact .waits type types

/-- The search after the reply to the query that was open. -/
theorem goOn_searches (c : Catalog) (number type : String) (left : List String) :
    Searches number (type :: left) ((type, number) :: (c.goOn number (type :: left)).1)
      (c.replyTo type number :: c.answers (c.goOn number (type :: left)).1)
      (c.goOn number (type :: left)).2 := by
  rw [goOn]
  cases hr : c.replyTo type number with
  | found d => exact .found type left d
  | withdrawn => exact .withdrawn type left
  | missing => exact .miss (.inl rfl) (c.search_searches number left)
  | failed => exact .miss (.inr rfl) (c.search_searches number left)

end Catalog

/-- The task searches for a number in types, for its caller or for a key. -/
inductive Job.SearchesFor (number : Value) (types : List String) : Job → Prop
  | search : SearchesFor number types (.search number (.list (types.map .text)))
  | lookup (key : String) : SearchesFor number types (.lookup key ⟨number, types⟩)

/-- What a catalog says to the open query of a task at a turn. A query that is given up counts as
withdrawn, and one that the catalog goes on with stays open. -/
def Task.reply? (c : Catalog) (k : Task) : Option Reply :=
  match k.phase with
  | .asking number (type :: _) =>
    match k.cancelAsked, c.heed number with
    | true, .givesUp => some .withdrawn
    | true, .ignores => none
    | _, _ => some (c.replyTo type number)
  | _ => none

namespace Board
variable {b : Board} {t : Nat}

/-- Where a task stands. -/
def phase? (b : Board) (t : Nat) : Option Phase := (b.tasks[t]?).map Task.phase

theorem phase?_modify {f : Task → Task} (hf : ∀ k, (f k).phase = k.phase) (u : Nat) :
    ((b.tasks.modify u f)[t]?).map Task.phase = b.phase? t := by
  rw [phase?, List.getElem?_modify]
  cases b.tasks[t]? with
  | none => rfl
  | some k =>
    by_cases hu : u = t
    · simp [hu, hf]
    · simp [hu]

theorem phase?_interrupt (b : Board) (u t : Nat) : (b.interrupt u).phase? t = b.phase? t :=
  phase?_modify Task.interrupted_phase u

theorem phase?_interruptNewest (b : Board) (key : String) (t : Nat) :
    (b.interruptNewest key).phase? t = b.phase? t := by
  unfold interruptNewest
  split
  · exact phase?_interrupt b _ t
  · rfl

theorem phase?_spawn (ht : t < b.tasks.length) (job : Job) :
    (b.spawn job).phase? t = b.phase? t := by
  rw [phase?, spawn, List.getElem?_append_left ht, phase?]

theorem phase?_supersede (ht : t < b.tasks.length) (key : String) (q : LinkQuery) :
    (b.supersede key q).phase? t = b.phase? t := by
  have hlt : t < (b.interruptNewest key).tasks.length := by rwa [interruptNewest_length]
  have h := phase?_spawn hlt (.lookup key q)
  rw [phase?_interruptNewest] at h
  exact h

theorem phase?_setPhase (ht : t < b.tasks.length) (p : Phase) : (b.setPhase t p).phase? t = some p := by
  simp [phase?, setPhase, ht]

end Board

namespace Resolver
open Board (Sound)
variable {C : Catalog → Prop} {c : Catalog} {r : Resolver} {t u : Nat} {k : Task} {number : String}
  {types : List String} {asked : List (String × String)} {heard : List Reply} {s : Search}

/-- The queries that a task makes in a move: those of its own turn. -/
def asks (r : Resolver) (t : Nat) : Move → List (String × String)
  | .turn c u => if u = t then (r.turn c t).calls.drop r.calls.length else []
  | _ => []

/-- The replies that a task hears in a move: at its own turn, first the one to its open query. -/
def hears (r : Resolver) (t : Nat) : Move → List Reply
  | .turn c u =>
    if u = t then ((r.tasks[t]?).bind (·.reply? c)).toList ++ c.answers (r.asks t (.turn c t))
    else []
  | _ => []

/-- The queries that a task makes in a run of moves. -/
def asksIn (t : Nat) : Resolver → List Move → List (String × String)
  | _, [] => []
  | r, m :: ms => r.asks t m ++ asksIn t (r.move m) ms

/-- The replies that a task hears in a run of moves. -/
def hearsIn (t : Nat) : Resolver → List Move → List Reply
  | _, [] => []
  | r, m :: ms => r.hears t m ++ hearsIn t (r.move m) ms

/-! ### The moves of others -/

theorem lt_of_phase? {p : Phase} (h : r.board.phase? t = some p) : t < r.tasks.length := by
  obtain ⟨k, hk, -⟩ := Option.map_eq_some_iff.mp h
  exact (List.getElem?_eq_some_iff.mp hk).1

theorem phase?_schedule (ht : t < r.tasks.length) (key : String) (q : LinkQuery) :
    (r.schedule key q).1.board.phase? t = r.board.phase? t := by
  rcases r.schedule_cases key q with ⟨n, -, -, -, he⟩ | he
  · rw [he]
  · rw [he, board_supersede]
    exact Board.phase?_supersede ht key q

theorem phase?_invalidate (r : Resolver) (key : String) (t : Nat) :
    (r.invalidate key).board.phase? t = r.board.phase? t := by
  rw [board_invalidate]
  exact Board.phase?_interruptNewest r.board key t

theorem phase?_cancel (r : Resolver) (u t : Nat) :
    (r.cancel u).board.phase? t = r.board.phase? t := by
  refine cancel_same (·.board.phase? t) (fun r u => ?_) (fun r u => ?_) r u
  · exact Board.phase?_modify (b := r.board) (f := fun k => { k with cancelAsked := true })
      (fun _ => rfl) u
  · rw [board_wake]

theorem phase?_turn (hs : Sound C r.board) (hc : C c) (ht : t < r.tasks.length) (hne : u ≠ t) :
    (r.turn c u).board.phase? t = r.board.phase? t := by
  obtain ⟨b, hprog, hb⟩ := turn_parts hs hc u
  rw [Board.phase?, hprog.getElem?_ne hne]
  rcases hb with rfl | ⟨-, key, q, -, -, rfl⟩
  · rfl
  · exact phase?_schedule ht key q

/-- A task comes to a new phase at its own turns only. -/
theorem phase?_move (hs : Sound C r.board) (ht : t < r.tasks.length) (m : Move)
    (hm : ∀ c u, m = .turn c u → C c ∧ u ≠ t) : (r.move m).board.phase? t = r.board.phase? t := by
  cases m with
  | schedule key q => exact phase?_schedule ht key q
  | lookup | resolve | settle => exact Board.phase?_spawn (b := r.board) ht _
  | invalidate key => exact phase?_invalidate r key t
  | clear => exact foldl_same (·.board.phase? t) (fun r key => phase?_invalidate r key t) r _
  | cancel u => exact phase?_cancel r u t
  | turn c u =>
    obtain ⟨hc, hne⟩ := hm c u rfl
    exact phase?_turn hs hc ht hne

/-! ### The turns of a search -/

theorem continueSearch_calls (r : Resolver) (t : Nat) (job : Job)
    (s : List (String × String) × Search) : (r.continueSearch t job s).calls = r.calls ++ s.1 := by
  obtain ⟨asked, s⟩ := s
  cases s with
  | ended o => exact queries_finish ..
  | asking number left => rfl

theorem continueSearch_task (hk : r.tasks[t]? = some k) (job : Job)
    (s : List (String × String) × Search) :
    (r.continueSearch t job s).tasks[t]? = some { k with phase := s.2.phase } := by
  rw [← board_tasks, board_continueSearch]
  obtain ⟨asked, s⟩ := s
  cases s <;> simp [Board.finish, Board.setPhase, hk, Search.phase]

theorem continueSearch_phase? (ht : t < r.tasks.length) (job : Job)
    (s : List (String × String) × Search) :
    (r.continueSearch t job s).board.phase? t = some s.2.phase := by
  rw [Board.phase?, board_tasks, continueSearch_task (List.getElem?_eq_getElem ht) job s]
  rfl

/-- The resolver in which a task has its turn, and what the task asks and hears at it. -/
theorem own_turn (hk : r.tasks[t]? = some k) (c : Catalog) : ∃ r' : Resolver,
    r'.tasks = r.tasks ∧ r'.calls = r.calls ∧ r.turn c t = r'.step c t k ∧
    (∀ asked, (r'.step c t k).calls = r.calls ++ asked → r.asks t (.turn c t) = asked ∧
      r.hears t (.turn c t) = (k.reply? c).toList ++ c.answers asked) := by
  refine ⟨{ r with ready := r.ready.filter (· != t) }, rfl, rfl, by simp [turn, hk], ?_⟩
  intro asked hcalls
  have hasks : r.asks t (.turn c t) = asked := by
    rw [asks, if_pos rfl, turn, hk]
    exact (congrArg (List.drop _) hcalls).trans List.drop_left
  refine ⟨hasks, ?_⟩
  rw [hears, if_pos rfl, hasks, hk, Option.bind_some]

/-- At the turn of a task with an open query, the query stays open or its search goes on from
there. -/
theorem answered_searches {type : String} {left : List String} (ht : t < r.tasks.length)
    (hp : k.phase = .asking number (type :: left)) (hk : r.board.phase? t = some k.phase)
    (c : Catalog) : ∃ asked s,
      (answered c r t k number (type :: left)).calls = r.calls ++ asked ∧
      (answered c r t k number (type :: left)).board.phase? t = some s.phase ∧
      (k.reply? c = none ∧ asked = [] ∧ s = .asking number (type :: left) ∨
        Searches number (type :: left) ((type, number) :: asked)
          ((k.reply? c).toList ++ c.answers asked) s) := by
  have hon : t < (r.modify t fun k => { k with cancelAsked := false }).tasks.length := by
    rwa [modify, List.length_modify]
  have goes (hreply : k.reply? c = some (c.replyTo type number)) :
      Searches number (type :: left) ((type, number) :: (c.goOn number (type :: left)).1)
        ((k.reply? c).toList ++ c.answers (c.goOn number (type :: left)).1)
        (c.goOn number (type :: left)).2 := by
    rw [hreply]
    exact c.goOn_searches number type left
  unfold answered
  cases ha : k.cancelAsked with
  | false =>
    exact ⟨_, _, continueSearch_calls .., continueSearch_phase? hon ..,
      .inr (goes (by simp [Task.reply?, hp, ha]))⟩
  | true =>
    cases hh : c.heed number with
    | answers =>
      exact ⟨_, _, continueSearch_calls .., continueSearch_phase? hon ..,
        .inr (goes (by simp [Task.reply?, hp, ha, hh]))⟩
    | givesUp =>
      refine ⟨[], .ended .cancelled, ?_, ?_, .inr ?_⟩
      · exact (queries_finish ..).trans (List.append_nil _).symm
      · exact board_finish r t k.job _ ▸ Board.phase?_setPhase ht _
      · simpa [Task.reply?, hp, ha, hh, Catalog.answers] using Searches.withdrawn type left
    | ignores =>
      refine ⟨[], .asking number (type :: left), (List.append_nil _).symm, ?_, .inl ⟨?_, rfl, rfl⟩⟩
      · exact (Board.phase?_modify (b := r.board) (f := fun k => { k with cancelAsked := false })
          (fun _ => rfl) t).trans (hk.trans (congrArg some hp))
      · simp [Task.reply?, hp, ha, hh]

/-- A turn of a task that searches takes its search further. -/
theorem searching_turn (h : Searches number types asked heard s)
    (hp : r.board.phase? t = some s.phase) (c : Catalog) : ∃ s',
    Searches number types (asked ++ r.asks t (.turn c t)) (heard ++ r.hears t (.turn c t)) s' ∧
    (r.turn c t).board.phase? t = some s'.phase := by
  obtain ⟨k, hk, hphase⟩ := Option.map_eq_some_iff.mp hp
  rw [board_tasks] at hk
  obtain ⟨r', htasks, hcalls, hturn, hown⟩ := own_turn hk c
  have hp' : r'.board.phase? t = some s.phase := by
    rw [← hp, Board.phase?, Board.phase?, board_tasks, board_tasks, htasks]
  rw [hturn]
  cases s with
  | ended o =>
    have hstep : r'.step c t k = r' := by rw [step, hphase]; rfl
    obtain ⟨ha, hh⟩ := hown [] (by rw [hstep, hcalls, List.append_nil])
    refine ⟨.ended o, ?_, by rw [hstep, hp']⟩
    rw [ha, hh, Task.reply?, hphase]
    simpa [Catalog.answers, Search.phase] using h
  | asking n left =>
    obtain ⟨rfl, type, rest, rfl⟩ := h.open_query
    have hstep : r'.step c t k = answered c r' t k n (type :: rest) := by rw [step, hphase]; rfl
    obtain ⟨more, s', hmore, hs', hcase⟩ :=
      answered_searches (lt_of_phase? hp') hphase (hphase ▸ hp') c
    rw [← hstep, hcalls] at hmore
    obtain ⟨ha, hh⟩ := hown more hmore
    rw [ha, hh]
    refine ⟨s', ?_, hstep ▸ hs'⟩
    rcases hcase with ⟨hnone, rfl, rfl⟩ | hgoes
    · rw [hnone]
      simpa [Catalog.answers] using h
    · exact h.reply hgoes

/-- However moves are mixed, a task that searches takes its search further. -/
theorem searching_play (hs : Sound (fun _ => True) r.board)
    (h : Searches number types asked heard s) (hp : r.board.phase? t = some s.phase)
    (ms : List Move) : ∃ s',
      Searches number types (asked ++ asksIn t r ms) (heard ++ hearsIn t r ms) s' ∧
      (r.play ms).board.phase? t = some s'.phase := by
  induction ms generalizing r asked heard s with
  | nil =>
    rw [asksIn, hearsIn, List.append_nil, List.append_nil]
    exact ⟨s, h, hp⟩
  | cons m ms ih =>
    have hnext := hs.steps (move_steps (X := True) hs m (fun _ _ _ => trivial) fun _ _ => trivial)
    have hmove : ∃ s', Searches number types (asked ++ r.asks t m) (heard ++ r.hears t m) s' ∧
        (r.move m).board.phase? t = some s'.phase := by
      by_cases hown : ∃ c, m = .turn c t
      · obtain ⟨c, rfl⟩ := hown
        exact searching_turn h hp c
      · have hother : ∀ c u, m = .turn c u → True ∧ u ≠ t := by
          rintro c u rfl
          refine ⟨trivial, ?_⟩
          rintro rfl
          exact hown ⟨c, rfl⟩
        have hstay := phase?_move hs (lt_of_phase? hp) m hother
        have hnone : r.asks t m = [] ∧ r.hears t m = [] := by
          cases m with
          | turn c u => simp [asks, hears, (hother c u rfl).2]
          | _ => exact ⟨rfl, rfl⟩
        rw [hnone.1, hnone.2, List.append_nil, List.append_nil, hstay]
        exact ⟨s, h, hp⟩
    obtain ⟨s', h', hp'⟩ := hmove
    rw [asksIn, hearsIn, ← List.append_assoc, ← List.append_assoc]
    exact ih hnext h' hp'

theorem outcome?_of_searching (hp : r.board.phase? t = some s.phase) : r.outcome? t = s.outcome? := by
  obtain ⟨k, hk, hphase⟩ := Option.map_eq_some_iff.mp hp
  rw [board_tasks] at hk
  rw [outcome?, hk, Option.bind_some, Task.outcome?, hphase]
  cases s <;> rfl

/-- What a task that searches has asked and heard after a run of moves, and what it has come to. -/
theorem searching_run (hs : Sound (fun _ => True) r.board)
    (h : Searches number types asked heard s) (hp : r.board.phase? t = some s.phase)
    (ms : List Move) :
    asked ++ asksIn t r ms = (types.take ((heard ++ hearsIn t r ms).length +
      if (r.play ms).outcome? t = none then 1 else 0)).map (·, number) ∧
    FirstHit types (heard ++ hearsIn t r ms) ((r.play ms).outcome? t) := by
  obtain ⟨s', h', hp'⟩ := searching_play hs h hp ms
  rw [outcome?_of_searching hp']
  exact ⟨h'.asked_eq, h'.firstHit⟩

section Turns
variable {c : Catalog} {r : Resolver} {t : Nat} {job : Job} {number : Value} {types : List String}
  {s : String} {heard : List Reply} {o : Option Outcome}

/-! ### The first turn -/

theorem begin_searches (hn : number.trimmed = .ok s) (c : Catalog) (types : List String) :
    c.begin number (.ok types) =
      if s = "" then ([], .ended (.answer none)) else c.search s types := by
  unfold Catalog.begin LinkQuery.wanted?
  rw [hn]
  by_cases h : s = "" <;> simp [h, bind, Except.bind, pure, Except.pure]

theorem types_ofTexts (number : Value) (types : List String) :
    (LinkQuery.ofValues number (.list (types.map .text))).map (·.types) = .ok types := by
  have h : (types.map Value.text).map (·.display .loose) = types := by
    rw [List.map_map]
    exact List.map_id types
  exact congrArg Except.ok h

theorem begin_job (hj : job.SearchesFor number types) (c : Catalog) (r : Resolver) (t : Nat) :
    begin c r t job = r.continueSearch t job (c.begin number (.ok types)) := by
  cases hj with
  | search => rw [begin, types_ofTexts]
  | lookup key => rfl

/-- The first turn of a task that searches. -/
theorem first_turn (hk : r.tasks[t]? = some { job }) (hj : job.SearchesFor number types)
    (c : Catalog) :
    r.asks t (.turn c t) = (c.begin number (.ok types)).1 ∧
    r.hears t (.turn c t) = c.answers (c.begin number (.ok types)).1 ∧
    (r.turn c t).tasks[t]? =
      some { job, phase := (c.begin number (.ok types)).2.phase, cancelAsked := false } := by
  obtain ⟨r', htasks, hcalls, hturn, hown⟩ := own_turn hk c
  have hstep : r'.step c t { job } = r'.continueSearch t job (c.begin number (.ok types)) :=
    begin_job hj c r' t
  obtain ⟨ha, hh⟩ := hown (c.begin number (.ok types)).1 (by
    rw [hstep, continueSearch_calls, hcalls])
  refine ⟨ha, hh, ?_⟩
  rw [hturn, hstep]
  exact continueSearch_task (htasks ▸ hk) job _

/-! ### Replies one at a time -/

/-- A catalog that holds queries back and then says the same to each of them. -/
def holding (a : Reply) : Catalog where
  replyTo _ _ := a
  isOpen _ := false

theorem holding_goOn (a : Reply) (s type : String) (left : List String) :
    (holding a).goOn s (type :: left) =
      match a with
      | .found d => ([], .ended (.answer (some d)))
      | .withdrawn => ([], .ended .cancelled)
      | _ => (holding a).search s left := by
  cases a <;> rfl

theorem holding_search (a : Reply) (s : String) (types : List String) :
    (holding a).search s types = match types with
      | [] => ([], .ended (.answer none))
      | type :: left => ([(type, s)], .asking s (type :: left)) := by
  cases types <;> rfl

theorem answers_holding (a : Reply) (asked : List (String × String)) :
    (holding a).answers asked = [] := by
  simp [Catalog.answers, holding]

/-- A turn at which the open query of a task gets its reply. -/
theorem holding_turn {a : Reply} {type : String} {left : List String}
    (hk : r.tasks[t]? = some ⟨job, .asking s (type :: left), false⟩) :
    r.hears t (.turn (holding a) t) = [a] ∧ (r.turn (holding a) t).tasks[t]? =
      some ⟨job, ((holding a).goOn s (type :: left)).2.phase, false⟩ := by
  obtain ⟨r', htasks, hcalls, hturn, hown⟩ := own_turn hk (holding a)
  have hstep : r'.step (holding a) t ⟨job, .asking s (type :: left), false⟩ =
      (r'.modify t fun k => { k with cancelAsked := false }).continueSearch t job
        ((holding a).goOn s (type :: left)) := rfl
  constructor
  · rw [(hown _ (by rw [hstep, continueSearch_calls]; exact congrArg (· ++ _) hcalls)).2,
      answers_holding]
    rfl
  · have hk' : (r'.modify t fun k => { k with cancelAsked := false }).tasks[t]? =
        some ⟨job, .asking s (type :: left), false⟩ := by
      simp [modify, htasks, hk]
    rw [hturn, hstep, continueSearch_task hk']

/-- A task with an open query can hear any replies up to the one that ends its search. -/
theorem exists_hearing {type : String} {left : List String}
    (hk : r.tasks[t]? = some ⟨job, .asking s (type :: left), false⟩)
    (h : FirstHit (type :: left) heard o) :
    ∃ ms, hearsIn t r ms = heard ∧ (r.play ms).outcome? t = o := by
  induction heard generalizing r type left with
  | nil =>
    refine ⟨[], rfl, ?_⟩
    rw [h.nil_cases, play_nil, outcome?, hk]
    rfl
  | cons a heard ih =>
    obtain ⟨hhears, htask⟩ := holding_turn (a := a) hk
    rw [holding_goOn] at htask
    have last {p : Phase} (hp : (r.turn (holding a) t).tasks[t]? = some ⟨job, p, false⟩) :
        hearsIn t r [.turn (holding a) t] = [a] ∧
          (r.play [.turn (holding a) t]).outcome? t = (Task.mk job p false).outcome? := by
      rw [hearsIn, hhears, play_cons, play_nil, outcome?]
      exact ⟨rfl, congrArg (Option.bind · _) hp⟩
    rcases h.cons_cases with ⟨ha, h⟩ | ⟨rfl, ⟨d, rfl, rfl⟩ | ⟨rfl, rfl⟩⟩
    · have hsearch : (r.turn (holding a) t).tasks[t]? =
          some ⟨job, ((holding a).search s left).2.phase, false⟩ := by
        rcases ha with rfl | rfl <;> exact htask
      rw [holding_search] at hsearch
      cases left with
      | nil =>
        obtain ⟨rfl, rfl⟩ := h.of_nil
        exact ⟨_, last hsearch⟩
      | cons type left =>
        obtain ⟨ms, hms, ho⟩ := ih hsearch h
        refine ⟨.turn (holding a) t :: ms, ?_, ho⟩
        rw [hearsIn, hhears]
        exact congrArg (a :: ·) hms
    · exact ⟨_, last htask⟩
    · exact ⟨_, last htask⟩

end Turns

/-- The task of a call for a number or of a lookup takes its first turn, and whatever moves follow.
A blank number ends it with nothing, without a query. Otherwise it queries the types in their
order, each with the trimmed number, one for every reply that it has heard and one more that is open
as long as it has not ended; the replies are misses up to the one that ends it. Any such replies can
be heard. -/
theorem first_hit_search (ms : List Move) {t : Nat} {job : Job} {number : Value}
    {types : List String} {s : String} (hk : (reached ms).tasks[t]? = some { job })
    (hj : job.SearchesFor number types) (hn : number.trimmed = .ok s) :
    (s = "" → ∀ c es, asksIn t (reached ms) (.turn c t :: es) = [] ∧
      (reached (ms ++ .turn c t :: es)).outcome? t = some (.answer none)) ∧
    (s ≠ "" →
      (∀ c es heard o, hearsIn t (reached ms) (.turn c t :: es) = heard →
        (reached (ms ++ .turn c t :: es)).outcome? t = o →
        asksIn t (reached ms) (.turn c t :: es) =
          (types.take (heard.length + if o = none then 1 else 0)).map (·, s) ∧
        FirstHit types heard o) ∧
      ∀ heard o, FirstHit types heard o → ∃ c es,
        hearsIn t (reached ms) (.turn c t :: es) = heard ∧
        (reached (ms ++ .turn c t :: es)).outcome? t = o) := by
  have hturn (c : Catalog) : Sound (fun _ => True) ((reached ms).turn c t).board :=
    (sound_reached ms).steps (turn_steps (X := True) (sound_reached ms) trivial t)
  have hrun (c : Catalog) (es : List Move) :
      reached (ms ++ .turn c t :: es) = ((reached ms).turn c t).play es := reached_append ..
  constructor
  · intro hblank c es
    -- a blank number is searched in no types at all
    obtain ⟨hasks, -, htask⟩ := first_turn hk hj c
    rw [begin_searches hn, if_pos hblank] at hasks htask
    have hphase := congrArg (Option.map Task.phase) htask
    obtain ⟨hasked, hhit⟩ := searching_run (hturn c) (@Searches.exhausted s) hphase es
    rw [List.take_nil, List.map_nil, List.nil_append] at hasked
    refine ⟨?_, hrun c es ▸ hhit.of_nil.2⟩
    rw [asksIn, hasks]
    exact hasked
  · intro hs
    constructor
    · rintro c es - - rfl rfl
      obtain ⟨hasks, hhears, htask⟩ := first_turn hk hj c
      rw [begin_searches hn, if_neg hs] at hasks hhears htask
      have hphase := congrArg (Option.map Task.phase) htask
      rw [asksIn, hearsIn, hasks, hhears, hrun]
      exact searching_run (hturn c) (c.search_searches s types) hphase es
    · intro heard o hhit
      obtain ⟨-, hhears, htask⟩ := first_turn hk hj (holding .missing)
      rw [begin_searches hn, if_neg hs, holding_search] at htask
      rw [answers_holding] at hhears
      refine ⟨holding .missing, ?_⟩
      cases types with
      | nil =>
        obtain ⟨rfl, rfl⟩ := hhit.of_nil
        refine ⟨[], (congrArg (· ++ _) hhears).trans rfl, ?_⟩
        rw [hrun, play_nil, outcome?, htask]
        rfl
      | cons type left =>
        obtain ⟨es, hes, ho⟩ := exists_hearing htask hhit
        refine ⟨es, (congrArg (· ++ _) hhears).trans hes, ?_⟩
        rw [hrun, ho]

/-- A search for a number with white space around it, in types one of which is there twice. -/
def repeatedTypes : List Move :=
  [.resolve (.text " X-1 ") (.list (["a", "b", "a", "c"].map .text))]

/-- The first query fails, the second one misses, and the third one, for the type of the first, finds
a document, so that the last type is not queried. -/
theorem first_hit_search_repeated :
    let turns := [.turn (holding .missing) 0, .turn (holding .failed) 0, .turn (holding .missing) 0,
      .turn (holding (.found lateDocument)) 0]
    asksIn 0 (reached repeatedTypes) turns = [("a", "X-1"), ("b", "X-1"), ("a", "X-1")] ∧
    hearsIn 0 (reached repeatedTypes) turns = [.failed, .missing, .found lateDocument] ∧
    (reached (repeatedTypes ++ turns)).outcome? 0 = some (.answer (some lateDocument)) ∧
    FirstHit ["a", "b", "a", "c"] [.failed, .missing, .found lateDocument]
      (some (.answer (some lateDocument))) := by
  have hn : (Value.text " X-1 ").trimmed = .ok "X-1" := by decide +kernel
  obtain ⟨hrun, -⟩ := (first_hit_search repeatedTypes (t := 0) rfl .search hn).2 (by decide)
  refine ⟨by decide +kernel, by decide +kernel, by decide +kernel, ?_⟩
  exact (hrun (holding .missing) [.turn (holding .failed) 0, .turn (holding .missing) 0,
    .turn (holding (.found lateDocument)) 0] _ _ (by decide +kernel) (by decide +kernel)).2

end Resolver
end DocForms
