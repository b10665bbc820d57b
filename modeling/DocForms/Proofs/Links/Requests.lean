import DocForms.Proofs.Links.Freshness

/-! What is wanted of a key: the query that was last asked for under the key, by scheduling it or by
a call that waits for its answer, unless the key has been forgotten since. The newest lookup of the
key is for that query. -/
namespace DocForms.Resolver
open Board (Sound)

instance Move.decidableForgets (key : String) : (m : Move) → Decidable (m.Forgets key)
  | .invalidate k => inferInstanceAs (Decidable (k = key))
  | .clear => .isTrue trivial
  | .schedule .. | .lookup .. | .resolve .. | .settle | .cancel _ | .turn .. => .isFalse id

/-- The query that a move asks for, with its key. -/
def request? (r : Resolver) : Move → Option (String × LinkQuery)
  | .schedule key q => some (key, q)
  | .turn _ t => (r.tasks[t]?).bind Task.request?
  | _ => none

/-- What is wanted of a key after a move, if `w` was before. -/
def wantedAfter (r : Resolver) (key : String) (w : Option LinkQuery) (m : Move) : Option LinkQuery :=
  if m.Forgets key then none
  else match r.request? m with
    | some (k, q) => if k = key then some q else w
    | none => w

/-- What is wanted of a key after moves, if `w` was before. -/
def wanted (key : String) : Resolver → Option LinkQuery → List Move → Option LinkQuery
  | _, w, [] => w
  | r, w, m :: ms => wanted key (r.move m) (r.wantedAfter key w m) ms

/-- The query of the newest lookup of a key. -/
def asked? (r : Resolver) (key : String) : Option LinkQuery := (r.newest.get? key).map (·.query)

variable {C : Catalog → Prop} {c : Catalog} {r r' : Resolver} {key : String} {q : LinkQuery}
  {w : Option LinkQuery} {ms : List Move} {t : Nat} {k : Task}

theorem asked?_eq_some : r.asked? key = some q ↔ ∃ n, r.newest.get? key = some n ∧ n.query = q :=
  Option.map_eq_some_iff

theorem asked?_congr (h : r'.newest = r.newest) (key : String) : r'.asked? key = r.asked? key := by
  rw [asked?, asked?, h]

/-! ### The newest lookup -/

theorem newest_finish (r : Resolver) (t : Nat) (job : Job) (o : Outcome) :
    (r.finish t job o).newest = r.newest := congrArg Board.newest (board_finish r t job o)

theorem newest_cancel (r : Resolver) (t : Nat) : (r.cancel t).newest = r.newest :=
  cancel_same newest (fun _ _ => rfl) (fun r t => congrArg Board.newest (board_wake r t)) r t

theorem asked?_schedule (r : Resolver) (key k : String) (q : LinkQuery) :
    (r.schedule k q).1.asked? key = if k = key then some q else r.asked? key := by
  rcases r.schedule_cases k q with ⟨n, hn, hq, -, he⟩ | he
  · rw [he]
    split
    · rename_i hk
      exact asked?_eq_some.mpr ⟨n, hk ▸ hn, hq⟩
    · rfl
  · rw [he, asked?, ← board_newest, board_supersede, Board.supersede, Keyed.get?_put]
    by_cases hk : k = key
    · rw [if_pos hk.symm, if_pos hk]
      rfl
    · rw [if_neg (Ne.symm hk), if_neg hk]
      rfl

/-- A call that begins leaves its query as the last one asked for, also when it is answered from the
cache. -/
theorem asked?_beginAwait (hs : Sound C r.board) (t : Nat) (job : Job) (key k : String)
    (q : LinkQuery) : (r.beginAwait t job k q).asked? key = if k = key then some q else r.asked? key := by
  have await : (beginAwait.await job k q r t).asked? key = if k = key then some q else r.asked? key := by
    rw [← asked?_schedule]
    apply asked?_congr
    unfold beginAwait.await
    dsimp only
    split
    · exact newest_finish ..
    · rfl
  unfold beginAwait
  dsimp only
  split
  · rename_i e he
    split
    · rename_i hsame
      obtain ⟨-, heq⟩ := Bool.and_eq_true_iff.mp hsame
      obtain ⟨n, hn, hq⟩ := hs.cached k e he
      rw [asked?_congr (newest_finish ..)]
      split
      · rename_i hk
        exact asked?_eq_some.mpr ⟨n, hk ▸ hn, hq.trans (beq_iff_eq.mp heq)⟩
      · rfl
    · exact await
  · exact await

theorem request?_of_not_calls (h : ¬ r.Calls t) (c : Catalog) : r.request? (.turn c t) = none := by
  cases hk : r.tasks[t]? with
  | none => rw [request?, hk, Option.bind_none]
  | some k =>
    rw [request?, hk, Option.bind_some, Task.request?]
    split
    · rename_i key number types hj hp _
      exact absurd ⟨k, key, number, types, hk, hp, hj⟩ h
    · rfl

/-- Turns ask for nothing while no call begins. -/
theorem wanted_of_quiet (hs : Sound C r.board) (hc : C c) (hq : ∀ t, ¬ r.Calls t) (key : String)
    (w : Option LinkQuery) (es : List Move) (hes : ∀ m ∈ es, ∃ t, m = .turn c t) :
    wanted key r w es = w := by
  induction es generalizing r with
  | nil => rfl
  | cons m es ih =>
    obtain ⟨t, rfl⟩ := hes m (List.mem_cons_self ..)
    have hturn : Progresses C t r.board (r.turn c t).board := turn_progresses hs hc (hq t)
    have hsame : r.wantedAfter key w (.turn c t) = w := by
      have hf : ¬ Move.Forgets key (.turn c t) := id
      rw [wantedAfter, if_neg hf, request?_of_not_calls (hq t)]
    rw [wanted, hsame]
    apply ih (hturn.sound hs)
    · exact fun u hu => hq u (hturn.calls hu)
    · exact fun m hm => hes m (List.mem_cons_of_mem _ hm)

/-- The first turn of a call. One that is cancelled asks for nothing, and neither does one whose types
cannot be read. -/
theorem asked?_call (hs : Sound C r.board) (c : Catalog) (key : String) (t : Nat)
    {k' : String} {number types : Value} (hp : k.phase = .fresh) (hj : k.job = .await k' number types) :
    (r.step c t k).asked? key = match k.request? with
      | some (k, q) => if k = key then some q else r.asked? key
      | none => r.asked? key := by
  rw [Task.request?, step, hp, hj]
  cases k.cancelAsked with
  | true => exact asked?_congr (newest_finish ..) key
  | false =>
    dsimp only [begin]
    cases LinkQuery.ofValues number types with
    | error e => exact asked?_congr (newest_finish ..) key
    | ok q => exact asked?_beginAwait hs t _ key k' q

theorem asked?_turn (hs : Sound C r.board) (hc : C c) (key : String) (t : Nat) :
    (r.turn c t).asked? key = r.wantedAfter key (r.asked? key) (.turn c t) := by
  have hf : ¬ Move.Forgets key (.turn c t) := id
  rw [wantedAfter, if_neg hf]
  by_cases h : r.Calls t
  · obtain ⟨k, k', number, types, hk, hp, hj⟩ := h
    obtain ⟨r', hb, hsome, -⟩ := turn_cases c r t
    have hn : r'.newest = r.newest := congrArg Board.newest hb
    have hreq : r.request? (.turn c t) = k.request? := by rw [request?, hk, Option.bind_some]
    rw [hsome k hk, hreq, ← asked?_congr hn key]
    exact asked?_call (hb ▸ hs) c key t hp hj
  · rw [request?_of_not_calls h]
    exact asked?_congr (turn_progresses hs hc h).newest key

/-- The newest lookup of a key is for what is wanted of it. -/
theorem asked?_move (hs : Sound C r.board) (key : String) (m : Move)
    (hm : ∀ c t, m = .turn c t → C c) :
    (r.move m).asked? key = r.wantedAfter key (r.asked? key) m := by
  by_cases hf : m.Forgets key
  · rw [wantedAfter, if_pos hf, asked?, (forgets_forgotten r hf).2]
    rfl
  cases m with
  | schedule k q => exact asked?_schedule r key k q
  | lookup k number types => rfl
  | resolve number types => rfl
  | settle => rfl
  | invalidate k =>
    rw [wantedAfter, if_neg hf, asked?, move, (r.invalidate_get? k key).2, if_neg (Ne.symm hf)]
    rfl
  | clear => exact absurd trivial hf
  | cancel t => exact asked?_congr (newest_cancel r t) key
  | turn c t => exact asked?_turn hs (hm c t rfl) key t

theorem asked?_play (hs : Sound C r.board) (key : String) (ms : List Move)
    (hm : ∀ c t, .turn c t ∈ ms → C c) :
    (r.play ms).asked? key = wanted key r (r.asked? key) ms := by
  induction ms generalizing r with
  | nil => rfl
  | cons m ms ih =>
    have hhead : ∀ c t, m = .turn c t → C c := fun c t h => hm c t (h ▸ List.mem_cons_self ..)
    have hnext : Sound C (r.move m).board :=
      hs.steps (X := True) (move_steps hs m hhead fun _ _ => trivial)
    have hrest := ih hnext fun c t h => hm c t (List.mem_cons_of_mem _ h)
    rw [asked?_move hs key m hhead] at hrest
    exact hrest

/-- What is wanted of a key after moves from the beginning. -/
abbrev wants (ms : List Move) (key : String) : Option LinkQuery := wanted key {} none ms

theorem asked?_reached (ms : List Move) (key : String) :
    (reached ms).asked? key = wants ms key :=
  asked?_play (C := fun _ => True) Board.sound_empty key ms fun _ _ _ => trivial

end DocForms.Resolver
