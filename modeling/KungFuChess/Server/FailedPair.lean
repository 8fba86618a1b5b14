import KungFuChess.Server.Pairing

/-!
# A pair that cannot be seated

`create_matched_room` turns a pair away if one of the two users has entered a room since they
were queued, or if the identifier drawn is in use. `_try_match` does not catch this: the loop
stops there, the pairs before have their rooms, and the queue is not cleaned. So the users
who have just been seated are still queued, and the pairs after the one turned away wait for a
tick that never reaches them, because the next tick stops at the same place.

`QueueKept` is what a tick should do in such a world, in which nothing else fails (`Quiet`), and
`queueKept_iff` says when the tick does it.
-/

namespace KungFuChess

open Effect RoomService MatchmakingService

/-- No call raises and the board of `input.txt` can be read: all that may be raised is the
`ValueError` of a pair that is turned away. -/
structure Quiet (env : Env) : Prop where
  raises : ∀ call, env.raises call = false
  board : ∃ board, BoardParser.parseInitialBoard
    (InputTxtBoardLoader.boardLines false env.inputTxt) = .ok board

/-- The pairs `done` are seated, and then `pair` is the first to be turned away. -/
structure TurnedAway (env : Env) (s : Server) (done : List (QueueEntry × QueueEntry))
    (pair : QueueEntry × QueueEntry) (rest : List (QueueEntry × QueueEntry)) : Prop where
  split : matchPairs (waiting env s.queue) [] = done ++ pair :: rest
  taken : PairTaken env s done pair
  first : ∀ before p after, done = before ++ p :: after → ¬ PairTaken env s before p

/-- Both users of the pair are in a room. -/
def Matched (s : Server) (pair : QueueEntry × QueueEntry) : Prop :=
  s.userRoom.contains pair.1.userId = true ∧ s.userRoom.contains pair.2.userId = true

/-- The next tick finds both users waiting, and draws a free identifier for the pair. -/
structure Invites (env : Env) (s : Server) (pair : QueueEntry × QueueEntry) : Prop where
  quiet : Quiet env
  waits : isExpired env pair.1 = false ∧ isExpired env pair.2 = false
  free : s.rooms.contains (pairRoom env pair) = false

/-- A tick leaves the queue to those who still wait: nobody who has been given a room is queued,
and a pair after one that is turned away, which could be seated itself, is seated by this tick
or by the next. -/
structure QueueKept (env : Env) (s : Server) : Prop where
  clean : ∀ u, s.userRoom.contains u = false → (after (tick env) s).userRoom.contains u = true →
    isQueued (after (tick env) s) u = false
  later : ∀ done pair rest, TurnedAway env s done pair rest →
    ∀ q ∈ rest, ¬ PairTaken env s done q → Matched (after (tick env) s) q ∨
      ∀ env', Invites env' (after (tick env) s) q →
        Matched (after (tick env') (after (tick env) s)) q

section Quiet

variable {env : Env} {s t : Server}

theorem Quiet.not_timeoutFails (h : Quiet env) (s : Server) : ¬ TimeoutFails env s := by
  rintro ⟨entry, -, -, hraises⟩
  exact absurd ((h.raises _).symm.trans hraises) (by simp)

theorem Quiet.not_seatFails (h : Quiet env) (s : Server) (userA userB : UserId) :
    ¬ SeatFails env s userA userB := by
  obtain ⟨board, hboard⟩ := h.board
  rintro (⟨-, hread | ⟨error, herror⟩⟩ | hraises | hraises)
  · exact absurd ((h.raises _).symm.trans hread) (by simp)
  · exact absurd (hboard.symm.trans herror) (by simp)
  · exact absurd ((h.raises _).symm.trans hraises) (by simp)
  · exact absurd ((h.raises _).symm.trans hraises) (by simp)

/-- How a tick ends in a quiet world. -/
inductive QuietTick (env : Env) (s t : Server) : Prop where
  | stopped (done rest : List (QueueEntry × QueueEntry)) (pair : QueueEntry × QueueEntry)
      (haway : TurnedAway env s done pair rest) (hpaired : Paired env done s t)
      (hqueue : t.queue = waiting env s.queue)
  | finished (hnone : ∀ done pair rest, ¬ TurnedAway env s done pair rest)
      (hpaired : Paired env (matchPairs (waiting env s.queue) []) s t)
      (hqueue : t.queue = (waiting env s.queue).filter fun entry =>
        entry.userId ∉ pairUsers (matchPairs (waiting env s.queue) []))

/-- **A tick in a quiet world** seats all pairs, or stops at the first that is turned away. -/
theorem tick_quiet (h : Quiet env) (s : Server) : QuietTick env s (after (tick env) s) := by
  refine (wp_iff_after (P := QuietTick env s)).mp ?_
  unfold tick tryMatch
  refine wp_call expireTimeouts_spec ?_ ?_
  · rintro _ t ⟨-, hfails⟩
    exact absurd hfails (h.not_timeoutFails s)
  rintro _ t ⟨ht, -⟩
  have hqueue : t.queue = waiting env s.queue := by rw [ht]
  -- the expiry changes nothing that a pair depends on
  have hpaired : ∀ {done u}, Paired env done t u → Paired env done s u := by
    intro done u hu
    rw [ht] at hu
    exact ⟨hu.mapped, hu.rooms, hu.others, hu.fresh, hu.engines, hu.users⟩
  have htaken : ∀ {done pair}, PairTaken env t done pair ↔ PairTaken env s done pair := by
    intro done pair
    rw [ht]
    rfl
  rw [wp_bind, wp_get, hqueue]
  refine wp_call (matchLoop_ends _ t) ?_ ?_
  · rintro _ u ⟨huqueue, done, pair, rest, hsplit, hfirst, ⟨htaken', hu⟩ | ⟨-, hfails, -⟩⟩
    · refine .stopped done rest pair ⟨hsplit, htaken.mp htaken', fun before p after hdone hp => ?_⟩
        (hpaired hu) (huqueue.trans hqueue)
      exact hfirst before p after hdone (Or.inl (htaken.mpr hp))
    · exact absurd hfails (h.not_seatFails t _ _)
  rintro used u ⟨rfl, hu, huqueue, hnone⟩
  rw [wp_modify]
  have hu' := hpaired hu
  refine .finished (fun done pair rest haway => ?_)
    ⟨hu'.mapped, hu'.rooms, hu'.others, hu'.fresh, hu'.engines, hu'.users⟩ ?_
  · exact hnone done pair rest haway.split (Or.inl (htaken.mpr haway.taken))
  · dsimp only
    rw [huqueue, hqueue]

/-- There is one first pair that is turned away. -/
theorem TurnedAway.unique {done done' rest rest' : List (QueueEntry × QueueEntry)}
    {pair pair' : QueueEntry × QueueEntry} (h : TurnedAway env s done pair rest)
    (h' : TurnedAway env s done' pair' rest') : done = done' ∧ pair = pair' ∧ rest = rest' := by
  -- two ways to split one scan: one of the two `done` goes on where the other stops
  obtain ⟨more, hdone, hrest⟩ | ⟨more, hdone, hrest⟩ :=
    List.append_eq_append_iff.mp (h.split.symm.trans h'.split)
  · cases more with
    | nil =>
      rw [List.append_nil] at hdone
      exact ⟨hdone.symm, List.cons.inj hrest⟩
    | cons p more =>
      -- the pair would come before the one the other stops at
      obtain ⟨rfl, -⟩ := List.cons.inj hrest
      exact absurd h.taken (h'.first done pair more hdone)
  · cases more with
    | nil =>
      rw [List.append_nil] at hdone
      exact ⟨hdone, (List.cons.inj hrest).1.symm, (List.cons.inj hrest).2.symm⟩
    | cons p more =>
      obtain ⟨rfl, -⟩ := List.cons.inj hrest
      exact absurd h'.taken (h.first done' pair' more hdone)

/-- Who waits, waits. -/
theorem waiting_waiting (env : Env) (queue : List QueueEntry) :
    waiting env (waiting env queue) = waiting env queue := by
  unfold waiting
  rw [List.filter_filter]
  simp only [Bool.and_self]

theorem isExpired_of_mem_waiting {queue : List QueueEntry} {entry : QueueEntry}
    (h : entry ∈ waiting env queue) : isExpired env entry = false := by
  simpa using (List.mem_filter.mp h).2

/-- The pairs are made of those who wait. -/
theorem mem_rest_queue {done rest : List (QueueEntry × QueueEntry)}
    {pair q : QueueEntry × QueueEntry} (h : TurnedAway env s done pair rest)
    (hq : q ∈ done ++ pair :: rest) :
    q.1 ∈ waiting env s.queue ∧ q.2 ∈ waiting env s.queue :=
  mem_of_mem_matchPairs (h.split ▸ hq)

theorem isQueued_of_mem {entry : QueueEntry} (h : entry ∈ t.queue) :
    isQueued t entry.userId = true := by
  unfold isQueued
  exact List.any_eq_true.mpr ⟨entry, h, decide_eq_true rfl⟩

/-- Nobody has been seated by a tick that stops at the first pair. -/
theorem Paired.contains_nil (h : Paired env [] s t) (u : UserId) :
    t.userRoom.contains u = true ↔ s.userRoom.contains u = true := by
  rw [h.mapped]
  exact or_iff_left List.not_mem_nil

/-- With no pair seated, a pair is turned away in the new state as in the old. -/
theorem Paired.taken_nil_iff (h : Paired env [] s t) {pair : QueueEntry × QueueEntry} :
    PairTaken env t [] pair ↔ PairTaken env s [] pair := by
  have hrooms : t.rooms.contains (pairRoom env pair) = true ↔
      s.rooms.contains (pairRoom env pair) = true := by
    rw [h.rooms]
    exact or_iff_left List.not_mem_nil
  unfold PairTaken
  rw [h.contains_nil, h.contains_nil, hrooms]

/-- The next tick stops where this one has stopped. -/
theorem TurnedAway.again {rest : List (QueueEntry × QueueEntry)} {pair : QueueEntry × QueueEntry}
    (h : TurnedAway env s [] pair rest) (hpaired : Paired env [] s t)
    (hqueue : t.queue = waiting env s.queue) : TurnedAway env t [] pair rest := by
  refine ⟨?_, hpaired.taken_nil_iff.mpr h.taken, fun before p after hdone => absurd hdone (by simp)⟩
  rw [hqueue, waiting_waiting]
  exact h.split

/-- In a queue that is kept, no pair comes before the one that is turned away. -/
theorem QueueKept.done_eq_nil (hkept : QueueKept env s)
    {done rest : List (QueueEntry × QueueEntry)} {pair : QueueEntry × QueueEntry}
    (haway : TurnedAway env s done pair rest) (hpaired : Paired env done s (after (tick env) s))
    (hqueue : (after (tick env) s).queue = waiting env s.queue) : done = [] := by
  by_contra hne
  obtain ⟨p, before, rfl⟩ := List.exists_cons_of_ne_nil hne
  have hfree : s.userRoom.contains p.1.userId = false := by
    refine Bool.eq_false_iff.mpr fun hmapped => ?_
    exact haway.first [] p before rfl (Or.inl (Or.inl hmapped))
  -- the first user of the first pair has a room and is still queued
  have hroom := (hpaired.mapped p.1.userId).mpr (Or.inr (by simp [pairUsers]))
  have hqueued : p.1 ∈ (after (tick env) s).queue := by
    rw [hqueue]
    exact (mem_rest_queue haway (by simp)).1
  have hclean := hkept.clean p.1.userId hfree hroom
  exact absurd ((isQueued_of_mem hqueued).symm.trans hclean) (by simp)

/-- In a queue that is kept, nobody waits behind a first pair that is turned away. -/
theorem QueueKept.taken (hkept : QueueKept env s) (h : Quiet env)
    {rest : List (QueueEntry × QueueEntry)} {pair q : QueueEntry × QueueEntry}
    (haway : TurnedAway env s [] pair rest) (hpaired : Paired env [] s (after (tick env) s))
    (hqueue : (after (tick env) s).queue = waiting env s.queue) (hq : q ∈ rest) :
    PairTaken env s [] q := by
  by_contra hfree
  -- a tick that seats nobody does not seat them
  have hunmatched : ∀ {u}, Paired env [] (after (tick env) s) u → ¬ Matched u q := by
    intro u hu hmatched
    have hmapped := (hpaired.contains_nil _).mp ((hu.contains_nil _).mp hmatched.1)
    exact hfree (Or.inl (Or.inl hmapped))
  obtain hmatched | hnext := hkept.later [] pair rest haway q hq hfree
  · exact hunmatched (Paired.nil _) hmatched
  · -- the world may be the same at the next tick, which then stops at the same pair
    have hmem := mem_rest_queue haway (List.mem_append_right _ (List.mem_cons_of_mem pair hq))
    have hinvites : Invites env (after (tick env) s) q := by
      refine ⟨h, ⟨isExpired_of_mem_waiting hmem.1, isExpired_of_mem_waiting hmem.2⟩, ?_⟩
      refine Bool.eq_false_iff.mpr fun hroom => hfree (Or.inr (Or.inr ?_))
      exact (hpaired.rooms _).mp hroom
    have hagain := haway.again hpaired hqueue
    have hmatched := hnext env hinvites
    cases tick_quiet h (after (tick env) s) with
    | finished hnone => exact hnone [] pair rest hagain
    | stopped done' rest' pair' haway' hpaired' =>
      obtain ⟨rfl, -⟩ := hagain.unique haway'
      exact hunmatched hpaired' hmatched

/-- A tick that goes through the whole scan takes whoever it has seated out of the queue. -/
theorem isQueued_of_finished {pairs : List (QueueEntry × QueueEntry)}
    (hpaired : Paired env pairs s t) (hqueue : t.queue = (waiting env s.queue).filter fun entry =>
      entry.userId ∉ pairUsers pairs)
    {u : UserId} (hfree : s.userRoom.contains u = false)
    (hroom : t.userRoom.contains u = true) : isQueued t u = false := by
  obtain hmapped | hseated := (hpaired.mapped u).mp hroom
  · exact absurd (hfree.symm.trans hmapped) (by simp)
  · unfold isQueued
    rw [hqueue, List.any_eq_false]
    intro entry hentry heq
    have hunused := of_decide_eq_true (List.mem_filter.mp hentry).2
    rw [of_decide_eq_true heq] at hunused
    exact hunused hseated

/-- **The queue is kept** exactly if no pair is turned away, or the first of all pairs is and the
others would have been turned away as well. -/
theorem queueKept_iff (h : Quiet env) : QueueKept env s ↔
    ∀ done pair rest, TurnedAway env s done pair rest →
      done = [] ∧ ∀ q ∈ rest, PairTaken env s [] q := by
  constructor
  · intro hkept done pair rest haway
    cases tick_quiet h s with
    | finished hnone => exact absurd haway (hnone done pair rest)
    | stopped done' rest' pair' haway' hpaired hqueue =>
      obtain ⟨rfl, rfl, rfl⟩ := haway.unique haway'
      obtain rfl := hkept.done_eq_nil haway hpaired hqueue
      exact ⟨rfl, fun q hq => hkept.taken h haway hpaired hqueue hq⟩
  · intro hcond
    cases tick_quiet h s with
    | stopped done rest pair haway hpaired hqueue =>
      -- nobody has been seated, and nobody behind the pair could have been
      obtain ⟨rfl, htaken⟩ := hcond done pair rest haway
      refine ⟨fun u hfree hroom => ?_, fun done' pair' rest' haway' q hq hfree => ?_⟩
      · exact absurd (hfree.symm.trans ((hpaired.contains_nil u).mp hroom)) (by simp)
      · obtain ⟨rfl, -, rfl⟩ := haway.unique haway'
        exact absurd (htaken q hq) hfree
    | finished hnone hpaired hqueue =>
      exact ⟨fun u hfree hroom => isQueued_of_finished hpaired hqueue hfree hroom,
        fun done pair rest haway => absurd haway (hnone done pair rest)⟩

end Quiet

/-! ### Erin opens a room while she is queued -/

namespace Small

/-- Waits with three others. -/
def erin : UserId := { text := "erin" }

/-- Is to be paired with Erin. -/
def frank : UserId := { text := "frank" }

/-- The room of Erin, and another one for whoever else is given a room. -/
def twoRooms : Env :=
  { env ["wR . bK"] with tokenHex := fun u => if u = erin then room else otherRoom }

theorem quiet_twoRooms : Quiet twoRooms := by
  refine ⟨fun _ => rfl, BoardParser.boardOf ["wR . bK"], ?_⟩
  exact BoardParser.parseInitialBoard_eq_boardOf (by decide)

/-- The users queue up, one after the other, and then Erin opens a room of her own. -/
def queueRun (users : List UserId) : Server :=
  start.play config (users.map (fun u => (twoRooms, .play u)) ++ [(twoRooms, .createRoom erin)])

end Small

/-- Alice and Bob are seated, and still queued, because Erin and Frank are turned away. -/
theorem not_queueKept_fourQueued : ¬ QueueKept Small.twoRooms
    (Small.queueRun [Small.alice, Small.bob, Small.erin, Small.frank]) := by
  intro hkept
  have hclean := hkept.clean Small.alice (by decide +kernel) (by decide +kernel)
  exact absurd hclean (by decide +kernel)

/-- With Erin and Frank alone, nobody is worse off. -/
theorem queueKept_iff_twoQueued : QueueKept Small.twoRooms
    (Small.queueRun [Small.erin, Small.frank]) := by
  refine (queueKept_iff Small.quiet_twoRooms).mpr fun done pair rest haway => ?_
  have hlength := congrArg List.length haway.split
  have hone : (matchPairs (waiting Small.twoRooms (Small.queueRun [Small.erin, Small.frank]).queue)
      []).length = 1 := by decide +kernel
  rw [hone, List.length_append, List.length_cons] at hlength
  have hdone : done = [] := List.length_eq_zero_iff.mp (by omega)
  have hrest : rest = [] := List.length_eq_zero_iff.mp (by omega)
  rw [hrest]
  exact ⟨hdone, fun q hq => absurd hq List.not_mem_nil⟩

end KungFuChess
