import KungFuChess.Library.Run
import KungFuChess.Server.Pairing

/-!
# The matchmaking tick at its await points

`MatchmakingService.tick` awaits `notify_user`, and other coroutines may run `enqueue` and
`cancel` before it goes on. The tick is modelled as a machine that stops at every await:
`Phase` says where, with the local variables of the two loops, and a step is either one of
the two calls or the return of the notification (`Input`).

The expiry loop runs over the list object that `self._queue` referred to when the loop
began. `enqueue` appends to the list `self._queue` refers to now, `cancel` binds
`self._queue` to a new list, and the end of the loop binds it to the list of the entries
kept. So what happens after the first `cancel` happens to a list that is thrown away. The
matching loop reads `self._queue` anew in every pass and filters it at the end.

`Kept` is what the callers rely on. It holds throughout a run exactly when no update has
gone to the list that is thrown away (`kept_iff`, `LosesNothing`). If nobody calls during the
tick, the machine leaves the queue that the tick of the service leaves (`undisturbed_tick`).
-/

namespace KungFuChess

namespace AwaitedTick

open MatchmakingService

/-! ### The machine -/

/-- Where the coroutine of the tick is suspended. -/
inductive Phase where
  | idle
  /-- The entry at `index` is being told of its timeout. `iterated` is the list the loop
  runs over, when that is no longer the list of the queue itself. -/
  | expiring (now : ℚ) (iterated : Option (List QueueEntry)) (index : Nat)
      (still : List QueueEntry)
  /-- One of the pair whose first entry is at `i` is being told; `second` comes after it. -/
  | matching (i : Nat) (used : List UserId) (second : Option UserId)
deriving DecidableEq, Repr

/-- What the last call of a user has returned. -/
inductive Answer where
  /-- `cancel` has returned `True`. -/
  | cancelled
  /-- `enqueue` has returned `"queued"`. -/
  | queued
  | other
deriving DecidableEq, Repr

/-- The service, with what an observer notes of it. -/
structure Matchmaking where
  /-- The list `self._queue` refers to. -/
  queue : List QueueEntry
  phase : Phase := .idle
  /-- The answers to the users' last calls. The code does not keep them. -/
  last : UserId → Option Answer := fun _ => none
  /-- The users whom the tick has matched or sent `match_timeout`. Nor these. -/
  answered : List UserId := []

/-- What may happen: the two halves of a tick, and the two calls. -/
inductive Input where
  /-- `tick` is called; `room` says whether `create_matched_room` returns, should it be
  called before the next await. -/
  | tick (now : ℚ) (room : Bool)
  /-- The notification that is awaited returns or raises. -/
  | resume (raised : Bool) (room : Bool)
  /-- `enqueue`; without a rating `get_elo` raises. -/
  | enqueue (userId : UserId) (elo : Option Int) (now : ℚ)
  | cancel (userId : UserId)
deriving DecidableEq, Repr

/-- The entry has waited for the whole timeout. -/
def Expired (now : ℚ) (entry : QueueEntry) : Prop := queueTimeoutSeconds ≤ now - entry.enqueuedAt

/-- This is decided by the two times. -/
instance (now : ℚ) (entry : QueueEntry) : Decidable (Expired now entry) :=
  inferInstanceAs (Decidable (_ ≤ _))

/-- The loop of `_expire_timeouts` over the rest of its list, up to the next entry that is
to be told; without one the loop ends. -/
def expireLoop (now : ℚ) : List QueueEntry → Nat → List QueueEntry → Option Nat × List QueueEntry
  | [], _, still => (none, still)
  | entry :: rest, index, still =>
    if Expired now entry then (some index, still)
    else expireLoop now rest (index + 1) (still ++ [entry])

/-- The loop of `_try_match` over the rest of the queue, up to the next pair. -/
def matchLoop (used : List UserId) : List QueueEntry → Nat → Option (Nat × QueueEntry × QueueEntry)
  | [], _ => none
  | a :: later, i =>
    if a.userId ∈ used then matchLoop used later (i + 1)
    else
      match findMatch used a later with
      | none => matchLoop used later (i + 1)
      | some b => some (i, a, b)

/-- `_try_match` from entry `i` on, up to the next await. -/
def runMatch (s : Matchmaking) (i : Nat) (used : List UserId) (room : Bool) : Matchmaking :=
  match matchLoop used (s.queue.drop i) i with
  | none => { s with queue := s.queue.filter fun e => e.userId ∉ used, phase := .idle }
  | some (i, a, b) =>
    if room then
      { s with
        phase := .matching i (used ++ [a.userId, b.userId]) (some b.userId)
        answered := s.answered ++ [a.userId, b.userId] }
    else { s with phase := .idle }

/-- `_expire_timeouts` from entry `index` on, up to the next await; when its loop ends the
queue is written back and the matching begins. -/
def runExpire (s : Matchmaking) (now : ℚ) (iterated : Option (List QueueEntry)) (index : Nat)
    (still : List QueueEntry) (room : Bool) : Matchmaking :=
  match expireLoop now ((iterated.getD s.queue).drop index) index still with
  | (some index, still) => { s with phase := .expiring now iterated index still }
  | (none, still) => runMatch { s with queue := still } 0 [] room

/-- `self._queue` is bound to a new list; the expiry loop keeps the one it has. -/
def Phase.rebind (queue : List QueueEntry) : Phase → Phase
  | .expiring now iterated index still => .expiring now (some (iterated.getD queue)) index still
  | phase => phase

/-- A call of `userId` returns. Between two ticks, what the tick before has told this user is
about an earlier call. -/
def answer (s : Matchmaking) (userId : UserId) (answer : Answer) : Matchmaking :=
  { s with
    last := Function.update s.last userId (some answer)
    answered := if s.phase = .idle then s.answered.filter (· ≠ userId) else s.answered }

/-- `enqueue` of the service: the new entry goes to the list the queue is now. -/
def enqueue (s : Matchmaking) (userId : UserId) (elo : Option Int) (now : ℚ) : Matchmaking :=
  if s.queue.any fun e => e.userId = userId then answer s userId .other
  else
    match elo with
    | none => answer s userId .other
    | some elo => answer { s with queue := s.queue ++ [⟨userId, elo, now⟩] } userId .queued

/-- `cancel` of the service: the queue is a new list from here on. -/
def cancel (s : Matchmaking) (userId : UserId) : Matchmaking :=
  let queue := s.queue.filter fun e => e.userId ≠ userId
  answer { s with queue := queue, phase := s.phase.rebind s.queue } userId
    (if queue.length < s.queue.length then .cancelled else .other)

/-- The tick begins. A call that an earlier tick has answered is over. -/
def begin (s : Matchmaking) : Matchmaking :=
  { s with last := fun u => if u ∈ s.answered then none else s.last u, answered := [] }

/-- The awaited notification has returned. -/
def resume (s : Matchmaking) (room : Bool) : Matchmaking :=
  match s.phase with
  | .idle => s
  | .expiring now iterated index still =>
    let told := ((iterated.getD s.queue)[index]?).toList.map QueueEntry.userId
    runExpire { s with answered := s.answered ++ told } now iterated (index + 1) still room
  | .matching i used (some _) => { s with phase := .matching i used none }
  | .matching i used none => runMatch s (i + 1) used room

/-- One input. -/
def step (s : Matchmaking) : Input → Matchmaking
  -- the runtime awaits a tick before it calls the next one
  | .tick now room => if s.phase = .idle then runExpire (begin s) now none 0 [] room else s
  | .resume raised room => if raised then { s with phase := .idle } else resume s room
  | .enqueue userId elo now => enqueue s userId elo now
  | .cancel userId => cancel s userId

/-- A queue before its first tick. -/
def start (queue : List QueueEntry) : Matchmaking := { queue := queue }

/-! ### What the callers rely on -/

/-- Who has cancelled is not in the queue; who has been queued is, unless answered. -/
def Kept (s : Matchmaking) : Prop :=
  ∀ u, (s.last u = some .cancelled → ∀ e ∈ s.queue, e.userId ≠ u) ∧
    (s.last u = some .queued → (∃ e ∈ s.queue, e.userId = u) ∨ u ∈ s.answered)

/-- The unexpired entries of `listed` show every call that has returned: who has cancelled
has none, and who has been queued has an entry, if an expired one. -/
def ShowsCalls (s : Matchmaking) (now : ℚ) (listed : List QueueEntry) : Prop :=
  ∀ u, (s.last u = some .cancelled → ∀ e ∈ listed, e.userId = u → Expired now e) ∧
    (s.last u = some .queued → ∃ e ∈ listed, e.userId = u)

/-- Nothing is lost when a notification returns: if the expiry loop ends there, the list it
has gone through shows every call. -/
def LosesNothing (s : Matchmaking) : Input → Prop
  | .resume false _ =>
    match s.phase with
    | .expiring now iterated index _ =>
      (∀ e ∈ (iterated.getD s.queue).drop (index + 1), ¬ Expired now e) →
        ShowsCalls s now (iterated.getD s.queue)
    | _ => True
  | _ => True

/-! ### The two loops -/

/-- A loop that meets no expired entry keeps everything. -/
theorem expireLoop_none {now : ℚ} {rest : List QueueEntry} {index : Nat}
    {still still' : List QueueEntry}
    (h : expireLoop now rest index still = (none, still')) :
    still' = still ++ rest ∧ ∀ e ∈ rest, ¬ Expired now e := by
  induction rest generalizing index still with
  | nil =>
    cases h
    simp
  | cons entry rest ih =>
    rw [expireLoop] at h
    split at h
    · cases h
    · rename_i hfresh
      obtain ⟨rfl, hrest⟩ := ih h
      exact ⟨by simp, List.forall_mem_cons.mpr ⟨hfresh, hrest⟩⟩

/-- Where the loop stops, and what it has kept by then. -/
theorem expireLoop_some {now : ℚ} {rest : List QueueEntry} {index j : Nat}
    {still still' : List QueueEntry}
    (h : expireLoop now rest index still = (some j, still')) :
    ∃ kept e later, rest = kept ++ e :: later ∧ (∀ x ∈ kept, ¬ Expired now x) ∧
      Expired now e ∧ j = index + kept.length ∧ still' = still ++ kept := by
  induction rest generalizing index still with
  | nil => cases h
  -- the entry is expired and the loop stops, or it is kept and the loop goes on
  | cons entry rest ih =>
    rw [expireLoop] at h
    split at h
    · rename_i hexpired
      cases h
      exact ⟨[], entry, rest, rfl, by simp, hexpired, by simp, by simp⟩
    · rename_i hfresh
      obtain ⟨kept, e, later, rfl, hkept, he, rfl, rfl⟩ := ih h
      refine ⟨entry :: kept, e, later, rfl, List.forall_mem_cons.mpr ⟨hfresh, hkept⟩, he, ?_, ?_⟩
      · simp only [List.length_cons]
        omega
      · simp

/-- The pair is a pair of entries. -/
theorem matchLoop_mem {used : List UserId} {rest : List QueueEntry} {i j : Nat} {a b : QueueEntry}
    (h : matchLoop used rest i = some (j, a, b)) : a ∈ rest ∧ b ∈ rest := by
  induction rest generalizing i with
  | nil => cases h
  | cons entry rest ih =>
    rw [matchLoop] at h
    split at h
    · exact (ih h).imp (List.mem_cons_of_mem _) (List.mem_cons_of_mem _)
    · split at h
      · exact (ih h).imp (List.mem_cons_of_mem _) (List.mem_cons_of_mem _)
      · rename_i hfound
        cases h
        exact ⟨List.mem_cons_self, List.mem_cons_of_mem _ (List.mem_of_find?_eq_some hfound)⟩

/-! ### What the machine keeps -/

/-- The expiry loop has gone through the first `index` entries of `listed`: it keeps the
unexpired ones, the users of the others have been told, and nobody else has. -/
structure GoneThrough (answered : List UserId) (now : ℚ) (listed : List QueueEntry)
    (index : Nat) (still : List QueueEntry) : Prop where
  kept : still = (listed.take index).filter fun e => ¬ Expired now e
  told : ∀ e ∈ listed.take index, Expired now e → e.userId ∈ answered
  hasEntry : ∀ u ∈ answered, ∃ e ∈ listed, e.userId = u

/-- The local variables of the tick fit the queue. -/
def PhaseFits (queue : List QueueEntry) (answered : List UserId) : Phase → Prop
  | .idle => True
  | .expiring now iterated index still =>
    GoneThrough answered now (iterated.getD queue) index still ∧
      ∃ e, (iterated.getD queue)[index]? = some e ∧ Expired now e
  | .matching _ used _ => ∀ u ∈ used, u ∈ answered

/-- What the machine keeps: the place in the loop fits the queue. -/
def PhaseInv (s : Matchmaking) : Prop := PhaseFits s.queue s.answered s.phase

section Loops

variable {answered : List UserId} {now : ℚ} {listed still : List QueueEntry} {index : Nat}

/-- Nothing has been passed yet. -/
theorem goneThrough_nil (now : ℚ) (listed : List QueueEntry) :
    GoneThrough [] now listed 0 [] where
  kept := by simp
  told := by simp
  hasEntry := by simp

/-- The loop moves on over unexpired entries. -/
theorem GoneThrough.pass (h : GoneThrough answered now listed index still)
    {kept later : List QueueEntry} (hdrop : listed.drop index = kept ++ later)
    (hkept : ∀ e ∈ kept, ¬ Expired now e) :
    GoneThrough answered now listed (index + kept.length) (still ++ kept) := by
  have htake : listed.take (index + kept.length) = listed.take index ++ kept := by
    rw [List.take_add, hdrop, List.take_left]
  have hall : kept.filter (fun e => ¬ Expired now e) = kept :=
    List.filter_eq_self.mpr fun e he => by simpa using hkept e he
  refine ⟨?_, fun e he hexpired => ?_, h.hasEntry⟩
  · rw [htake, List.filter_append, hall, h.kept]
  · rw [htake, List.mem_append] at he
    rcases he with he | he
    · exact h.told e he hexpired
    · exact absurd hexpired (hkept e he)

/-- The user of the entry at `index`, which has expired, has been told. -/
theorem GoneThrough.tell (h : GoneThrough answered now listed index still) {e : QueueEntry}
    (hat : listed[index]? = some e) (hexpired : Expired now e) :
    GoneThrough (answered ++ [e.userId]) now listed (index + 1) still := by
  have htake : listed.take (index + 1) = listed.take index ++ [e] := by
    rw [List.take_add_one, hat]
    rfl
  -- the entry is not kept, and its user is told
  refine ⟨?_, fun x hx hxe => ?_, fun u hu => ?_⟩
  · rw [htake, List.filter_append, h.kept]
    simp [hexpired]
  · rw [htake, List.mem_append, List.mem_singleton] at hx
    rw [List.mem_append]
    rcases hx with hx | rfl
    · exact .inl (h.told x hx hxe)
    · exact .inr List.mem_cons_self
  · rw [List.mem_append, List.mem_singleton] at hu
    rcases hu with hu | rfl
    · exact h.hasEntry u hu
    · exact ⟨e, List.mem_of_getElem? hat, rfl⟩

/-- `enqueue` appends to the list the loop runs over. -/
theorem GoneThrough.append (h : GoneThrough answered now listed index still)
    (hle : index ≤ listed.length) (e : QueueEntry) :
    GoneThrough answered now (listed ++ [e]) index still := by
  have htake : (listed ++ [e]).take index = listed.take index := by
    rw [List.take_append_of_le_length hle]
  refine ⟨htake ▸ h.kept, htake ▸ h.told, fun u hu => ?_⟩
  obtain ⟨x, hx, hxu⟩ := h.hasEntry u hu
  exact ⟨x, List.mem_append_left _ hx, hxu⟩

end Loops

theorem phaseInv_of_idle {s : Matchmaking} (h : s.phase = .idle) : PhaseInv s := by
  unfold PhaseInv
  rw [h]
  trivial

/-- What the matching changes: the queue loses users it has matched, and those it matches
are answered. -/
theorem runMatch_cases (s : Matchmaking) (i : Nat) (used : List UserId) (room : Bool) :
    runMatch s i used room =
        { s with queue := s.queue.filter fun e => e.userId ∉ used, phase := .idle } ∨
      (∃ j a b, a ∈ s.queue ∧ b ∈ s.queue ∧ runMatch s i used room =
        { s with
          phase := .matching j (used ++ [a.userId, b.userId]) (some b.userId)
          answered := s.answered ++ [a.userId, b.userId] }) ∨
      runMatch s i used room = { s with phase := .idle } := by
  -- the queue is read anew, so the pair consists of entries of the queue as it is
  rw [runMatch]
  split
  · exact .inl rfl
  · rename_i hloop
    obtain ⟨ha, hb⟩ := matchLoop_mem hloop
    split
    · exact .inr (.inl ⟨_, _, _, List.mem_of_mem_drop ha, List.mem_of_mem_drop hb, rfl⟩)
    · exact .inr (.inr rfl)

/-- The matching leaves a fitting place. -/
theorem phaseInv_runMatch {s : Matchmaking} {i : Nat} {used : List UserId} {room : Bool}
    (hused : ∀ u ∈ used, u ∈ s.answered) : PhaseInv (runMatch s i used room) := by
  obtain h | ⟨j, a, b, -, -, h⟩ | h := runMatch_cases s i used room
  · exact phaseInv_of_idle (by rw [h])
  · rw [h]
    intro u hu
    rw [List.mem_append] at hu ⊢
    exact hu.imp_left (hused u)
  · exact phaseInv_of_idle (by rw [h])

/-- What the expiry loop does next: it tells the user of an expired entry, or writes the
queue back and lets the matching begin. -/
theorem runExpire_cases (s : Matchmaking) (now : ℚ) (iterated : Option (List QueueEntry))
    (index : Nat) (still : List QueueEntry) (room : Bool)
    (h : GoneThrough s.answered now (iterated.getD s.queue) index still) :
    (∃ j still' e, (iterated.getD s.queue)[j]? = some e ∧ Expired now e ∧
        GoneThrough s.answered now (iterated.getD s.queue) j still' ∧ index ≤ j ∧
        runExpire s now iterated index still room =
          { s with phase := .expiring now iterated j still' }) ∨
      ((∀ e ∈ (iterated.getD s.queue).drop index, ¬ Expired now e) ∧
        runExpire s now iterated index still room =
          runMatch { s with
            queue := still ++ (iterated.getD s.queue).drop index } 0 [] room) := by
  rw [runExpire]
  split
  · -- the loop stops at the first expired entry, whose notice is awaited
    rename_i j still' hloop
    obtain ⟨kept, e, later, hdrop, hkept, he, rfl, rfl⟩ := expireLoop_some hloop
    refine .inl ⟨_, _, e, ?_, he, h.pass hdrop hkept, by omega, rfl⟩
    rw [← List.getElem?_drop, hdrop]
    simp
  · -- no entry is expired, and the list kept is written back
    rename_i still' hloop
    obtain ⟨rfl, hfresh⟩ := expireLoop_none hloop
    exact .inr ⟨hfresh, rfl⟩

/-- So does the expiry, -/
theorem phaseInv_runExpire {s : Matchmaking} {now : ℚ} {iterated : Option (List QueueEntry)}
    {index : Nat} {still : List QueueEntry} {room : Bool}
    (h : GoneThrough s.answered now (iterated.getD s.queue) index still) :
    PhaseInv (runExpire s now iterated index still room) := by
  obtain ⟨j, still', e, hat, he, hgone, -, heq⟩ | ⟨-, heq⟩ :=
    runExpire_cases s now iterated index still room h
  · rw [heq]
    exact ⟨hgone, e, hat, he⟩
  · rw [heq]
    exact phaseInv_runMatch (by simp)

/-- an answer, -/
theorem answer_phaseInv {s : Matchmaking} (h : PhaseInv s) (userId : UserId) (a : Answer) :
    PhaseInv (answer s userId a) := by
  by_cases hidle : s.phase = .idle
  · exact phaseInv_of_idle hidle
  · unfold PhaseInv answer
    rw [if_neg hidle]
    exact h

/-- a call of `enqueue`, -/
theorem enqueue_phaseInv {s : Matchmaking} (h : PhaseInv s) (userId : UserId)
    (elo : Option Int) (now : ℚ) : PhaseInv (enqueue s userId elo now) := by
  unfold enqueue
  split
  · exact answer_phaseInv h userId _
  · split
    · exact answer_phaseInv h userId _
    · rename_i elo
      refine answer_phaseInv ?_ userId _
      unfold PhaseInv at h ⊢
      revert h
      cases s.phase with
      | idle => exact id
      | matching i used second => exact id
      | expiring now' iterated index still =>
        rintro ⟨hgone, e, hat, he⟩
        cases iterated with
        | some listed => exact ⟨hgone, e, hat, he⟩
        | none =>
          -- the loop sees the new entry, behind the one it is at
          have hlt : index < s.queue.length := (List.getElem?_eq_some_iff.mp hat).1
          refine ⟨hgone.append hlt.le ⟨userId, elo, now⟩, e, ?_, he⟩
          exact (List.getElem?_append_left hlt).trans hat

/-- Binding the queue anew leaves the list that the expiry loop runs over as it is. -/
theorem cancel_phaseInv {s : Matchmaking} (h : PhaseInv s) (userId : UserId) :
    PhaseInv (cancel s userId) := by
  refine answer_phaseInv ?_ userId _
  unfold PhaseInv at h ⊢
  revert h
  cases s.phase with
  | idle => exact id
  | expiring now iterated index still => exact id
  | matching i used second => exact id

/-- and the return of a notification. -/
theorem resume_phaseInv {s : Matchmaking} (h : PhaseInv s) (room : Bool) :
    PhaseInv (resume s room) := by
  unfold resume
  split
  · exact h
  · -- the entry whose user was told is passed, and the loop goes on behind it
    rename_i now iterated index still hphase
    unfold PhaseInv at h
    rw [hphase] at h
    obtain ⟨hgone, e, hat, he⟩ := h
    refine phaseInv_runExpire ?_
    rw [hat]
    exact hgone.tell hat he
  · rename_i i used b hphase
    unfold PhaseInv at h
    rw [hphase] at h
    exact h
  · rename_i i used hphase
    unfold PhaseInv at h
    rw [hphase] at h
    exact phaseInv_runMatch h

/-- **Step lemma.** -/
theorem phaseInv_step {s : Matchmaking} (h : PhaseInv s) (i : Input) : PhaseInv (step s i) := by
  cases i with
  | tick now room =>
    simp only [step]
    split
    · exact phaseInv_runExpire (s := begin s) (goneThrough_nil now _)
    · exact h
  | resume raised room =>
    simp only [step]
    split
    · exact phaseInv_of_idle rfl
    · exact resume_phaseInv h room
  | enqueue userId elo now => exact enqueue_phaseInv h userId elo now
  | cancel userId => exact cancel_phaseInv h userId

/-! ### What the callers keep -/

/-- More answered users do not spoil it. -/
theorem kept_of_answered {s s' : Matchmaking} (hqueue : s'.queue = s.queue)
    (hlast : s'.last = s.last) (hmore : ∀ u ∈ s.answered, u ∈ s'.answered) (h : Kept s) :
    Kept s' := by
  unfold Kept
  rw [hqueue, hlast]
  exact fun u => ⟨(h u).1, fun hqueued => ((h u).2 hqueued).imp_right (hmore u)⟩

/-- Users with an entry in the queue may be answered or not. -/
theorem kept_iff_of_answered {s s' : Matchmaking} (hqueue : s'.queue = s.queue)
    (hlast : s'.last = s.last) (hmore : ∀ u ∈ s.answered, u ∈ s'.answered)
    (hnew : ∀ u ∈ s'.answered, u ∈ s.answered ∨ ∃ e ∈ s.queue, e.userId = u) :
    Kept s' ↔ Kept s := by
  refine ⟨fun h u => ?_, kept_of_answered hqueue hlast hmore⟩
  have hu := h u
  rw [hqueue, hlast] at hu
  refine ⟨hu.1, fun hqueued => ?_⟩
  rcases hu.2 hqueued with hmem | hmem
  · exact .inl hmem
  · exact (hnew u hmem).symm

theorem kept_of_phase {s s' : Matchmaking} (hqueue : s'.queue = s.queue)
    (hlast : s'.last = s.last) (hanswered : s'.answered = s.answered) : Kept s' ↔ Kept s :=
  kept_iff_of_answered hqueue hlast (by rw [hanswered]; exact fun _ h => h)
    (by rw [hanswered]; exact fun _ h => .inl h)

/-- Matching a pair that is in the queue. -/
theorem kept_iff_of_pair {s s' : Matchmaking} {a b : QueueEntry} (ha : a ∈ s.queue)
    (hb : b ∈ s.queue) (hqueue : s'.queue = s.queue) (hlast : s'.last = s.last)
    (hanswered : s'.answered = s.answered ++ [a.userId, b.userId]) : Kept s' ↔ Kept s := by
  refine kept_iff_of_answered hqueue hlast ?_ ?_
  · rw [hanswered]
    exact fun u hu => List.mem_append_left _ hu
  · rw [hanswered]
    intro u hu
    simp only [List.mem_append, List.mem_cons, List.not_mem_nil, or_false] at hu
    rcases hu with hu | rfl | rfl
    · exact .inl hu
    · exact .inr ⟨a, ha, rfl⟩
    · exact .inr ⟨b, hb, rfl⟩

/-- The matching loses nobody's update: who is filtered from the queue has been answered. -/
theorem kept_runMatch {s : Matchmaking} {i : Nat} {used : List UserId} {room : Bool}
    (hused : ∀ u ∈ used, u ∈ s.answered) (h : Kept s) : Kept (runMatch s i used room) := by
  -- the filter, a pair that is seated, a pair that is refused
  obtain heq | ⟨j, a, b, ha, hb, heq⟩ | heq := runMatch_cases s i used room
  · rw [heq]
    intro u
    refine ⟨fun hlast e he => (h u).1 hlast e (List.mem_filter.mp he).1, fun hlast => ?_⟩
    rcases (h u).2 hlast with ⟨e, he, rfl⟩ | hu
    · by_cases hmem : e.userId ∈ used
      · exact .inr (hused _ hmem)
      · exact .inl ⟨e, List.mem_filter.mpr ⟨he, by simpa using hmem⟩, rfl⟩
    · exact .inr hu
  · rw [heq]
    exact (kept_iff_of_pair (s := s) ha hb (by rfl) (by rfl) (by rfl)).mpr h
  · rw [heq]
    exact (kept_of_phase (s := s) (by rfl) (by rfl) (by rfl)).mpr h

/-- The first stretch of the matching filters nobody. -/
theorem kept_runMatch_nil (s : Matchmaking) (room : Bool) :
    Kept (runMatch s 0 [] room) ↔ Kept s := by
  obtain heq | ⟨j, a, b, ha, hb, heq⟩ | heq := runMatch_cases s 0 [] room
  · rw [heq]
    exact kept_of_phase (by simp) rfl rfl
  · rw [heq]
    exact kept_iff_of_pair ha hb rfl rfl rfl
  · rw [heq]
    exact kept_of_phase rfl rfl rfl

/-- A call of `userId` returns, and keeps the others in the queue. -/
theorem kept_answer {s : Matchmaking} (h : Kept s) {userId : UserId} {a : Answer}
    {queue : List QueueEntry} (phase : Phase)
    (hothers : ∀ u, u ≠ userId →
      ((∃ e ∈ queue, e.userId = u) ↔ ∃ e ∈ s.queue, e.userId = u))
    (hcancelled : a = .cancelled → ∀ e ∈ queue, e.userId ≠ userId)
    (hqueued : a = .queued → ∃ e ∈ queue, e.userId = userId) :
    Kept (answer { s with queue := queue, phase := phase } userId a) := by
  intro u
  by_cases hu : u = userId
  -- the user who is answered now; the others have the entries and the answers they had
  · subst hu
    constructor
    · intro hlast
      exact hcancelled (by simpa [answer] using hlast)
    · intro hlast
      exact .inl (hqueued (by simpa [answer] using hlast))
  · have hsame : (answer { s with queue := queue, phase := phase } userId a).last u = s.last u :=
      Function.update_of_ne hu _ _
    rw [hsame]
    constructor
    · intro hlast e he heu
      obtain ⟨x, hx, hxu⟩ := (hothers u hu).mp ⟨e, he, heu⟩
      exact (h u).1 hlast x hx hxu
    · intro hlast
      refine ((h u).2 hlast).imp (hothers u hu).mpr fun hmem => ?_
      simp only [answer]
      split
      · exact List.mem_filter.mpr ⟨hmem, by simpa using hu⟩
      · exact hmem

/-- `enqueue` keeps what its callers rely on. -/
theorem enqueue_kept {s : Matchmaking} (h : Kept s) (userId : UserId) (elo : Option Int)
    (now : ℚ) : Kept (enqueue s userId elo now) := by
  unfold enqueue
  split
  · exact kept_answer h s.phase (fun _ _ => Iff.rfl) nofun nofun
  · split
    · exact kept_answer h s.phase (fun _ _ => Iff.rfl) nofun nofun
    · rename_i elo
      refine kept_answer h s.phase (fun u hu => ?_) nofun fun _ => ?_
      · simp [Ne.symm hu, or_and_right, exists_or]
      · exact ⟨⟨userId, elo, now⟩, by simp, rfl⟩

/-- So does `cancel`. -/
theorem cancel_kept {s : Matchmaking} (h : Kept s) (userId : UserId) :
    Kept (cancel s userId) := by
  refine kept_answer h _ (fun u hu => ?_) (fun _ e he => ?_) (fun hqueued => ?_)
  · constructor
    · rintro ⟨e, he, rfl⟩
      exact ⟨e, (List.mem_filter.mp he).1, rfl⟩
    · rintro ⟨e, he, rfl⟩
      exact ⟨e, List.mem_filter.mpr ⟨he, by simpa using hu⟩, rfl⟩
  · simpa using (List.mem_filter.mp he).2
  · split at hqueued <;> cases hqueued

/-- The tick begins: nobody has been answered yet. -/
theorem begin_kept {s : Matchmaking} (h : Kept s) : Kept (begin s) := by
  intro u
  by_cases hu : u ∈ s.answered
  · simp [begin, hu]
  · simp only [begin, hu, if_false]
    exact ⟨(h u).1, fun hlast => .inl (((h u).2 hlast).resolve_right hu)⟩

/-- **The write-back.** The entries kept replace the queue without the loss of an update iff
the list gone through shows every update. -/
theorem kept_writeBack_iff {s : Matchmaking} {now : ℚ} {listed still : List QueueEntry}
    {index : Nat} (hgone : GoneThrough s.answered now listed index still)
    (hfresh : ∀ e ∈ listed.drop index, ¬ Expired now e) :
    Kept { s with queue := still ++ listed.drop index } ↔ ShowsCalls s now listed := by
  have hmem : ∀ e, e ∈ still ++ listed.drop index ↔ e ∈ listed ∧ ¬ Expired now e := by
    -- what is written back is the list without its expired entries
    intro e
    rw [hgone.kept, List.mem_append, List.mem_filter, decide_eq_true_iff]
    constructor
    · rintro (⟨he, hn⟩ | he)
      · exact ⟨List.mem_of_mem_take he, hn⟩
      · exact ⟨List.mem_of_mem_drop he, hfresh e he⟩
    · rintro ⟨he, hn⟩
      rw [← List.take_append_drop index listed, List.mem_append] at he
      exact he.imp_left fun he => ⟨he, hn⟩
  have htold : ∀ e ∈ listed, Expired now e → e.userId ∈ s.answered := by
    -- and whose entry has expired has been told
    intro e he hexpired
    rw [← List.take_append_drop index listed, List.mem_append] at he
    rcases he with he | he
    · exact hgone.told e he hexpired
    · exact absurd hexpired (hfresh e he)
  unfold Kept ShowsCalls
  refine forall_congr' fun u => and_congr ?_ ?_
  · refine forall_congr' fun _ => forall_congr' fun e => ?_
    rw [hmem]
    tauto
  · refine forall_congr' fun _ => ⟨?_, ?_⟩
    · rintro (⟨e, he, heu⟩ | hu)
      · exact ⟨e, ((hmem e).mp he).1, heu⟩
      · exact hgone.hasEntry u hu
    · rintro ⟨e, he, rfl⟩
      by_cases hexpired : Expired now e
      · exact .inr (htold e he hexpired)
      · exact .inl ⟨e, (hmem e).mpr ⟨he, hexpired⟩, rfl⟩

/-- The expiry loop goes on: nothing is lost unless it ends. -/
theorem kept_runExpire_iff {s : Matchmaking} {now : ℚ} {iterated : Option (List QueueEntry)}
    {index : Nat} {still : List QueueEntry} {room : Bool} (h : Kept s)
    (hgone : GoneThrough s.answered now (iterated.getD s.queue) index still) :
    ((∀ e ∈ (iterated.getD s.queue).drop index, ¬ Expired now e) →
        ShowsCalls s now (iterated.getD s.queue)) ↔
      Kept (runExpire s now iterated index still room) := by
  obtain ⟨j, still', e, hat, he, -, hle, heq⟩ | ⟨hfresh, heq⟩ :=
    runExpire_cases s now iterated index still room hgone
  · -- an entry has expired: there is no write-back yet, and the left side holds of no call
    have hlater : e ∈ (iterated.getD s.queue).drop index := by
      refine List.mem_of_getElem? (i := j - index) ?_
      rw [List.getElem?_drop, Nat.add_sub_cancel' hle]
      exact hat
    rw [heq]
    refine iff_of_true (fun hfresh => absurd he (hfresh e hlater)) ?_
    exact kept_of_answered (s := s) (by rfl) (by rfl) (fun u hu => hu) h
  · rw [heq, kept_runMatch_nil, kept_writeBack_iff hgone hfresh]
    exact forall_prop_of_true hfresh

/-- **Step lemma.** A step that begins with the callers' reliance kept keeps it iff it loses
no update. -/
theorem kept_step_iff {s : Matchmaking} (hinv : PhaseInv s) (h : Kept s) (i : Input) :
    LosesNothing s i ↔ Kept (step s i) := by
  cases i with
  | enqueue userId elo now => exact iff_of_true trivial (enqueue_kept h userId elo now)
  | cancel userId => exact iff_of_true trivial (cancel_kept h userId)
  | tick now room =>
    refine iff_of_true trivial ?_
    simp only [step]
    split
    · -- a tick that begins writes nothing before its first await
      obtain ⟨j, still, e, -, -, -, -, heq⟩ | ⟨-, heq⟩ :=
        runExpire_cases (begin s) now none 0 [] room (goneThrough_nil now _)
      · rw [heq]
        exact (kept_of_phase (s := begin s) (by rfl) (by rfl) (by rfl)).mpr (begin_kept h)
      · rw [heq, kept_runMatch_nil]
        exact (kept_of_phase (s := begin s) (by rfl) (by rfl) (by rfl)).mpr (begin_kept h)
    · exact h
  | resume raised room =>
    cases raised with
    | true => exact iff_of_true trivial ((kept_of_phase (s := s) (by rfl) (by rfl) (by rfl)).mpr h)
    | false =>
      simp only [LosesNothing, step, Bool.false_eq_true, if_false, resume]
      unfold PhaseInv at hinv
      cases hphase : s.phase with
      | idle => exact iff_of_true trivial h
      | matching i used second =>
        rw [hphase] at hinv
        cases second with
        -- the first of the two has been told; the second is next
        | some b =>
          exact iff_of_true trivial ((kept_of_phase (s := s) (by rfl) (by rfl) (by rfl)).mpr h)
        | none => exact iff_of_true trivial (kept_runMatch hinv h)
      | expiring now iterated index still =>
        rw [hphase] at hinv
        obtain ⟨hgone, e, hat, he⟩ := hinv
        simp only [hat, Option.toList_some, List.map_cons, List.map_nil]
        -- the expired user has been told, and the loop goes on from there
        have hkept : Kept { s with
            phase := .expiring now iterated index still
            answered := s.answered ++ [e.userId] } :=
          kept_of_answered (s := s) rfl rfl (fun u hu => List.mem_append_left _ hu) h
        exact kept_runExpire_iff hkept (hgone.tell hat he)

/-! ### The undisturbed tick -/

/-- `n` notifications return, one after the other. -/
def resumeAll (s : Matchmaking) (n : Nat) : Matchmaking :=
  (List.replicate n (Input.resume false true)).foldl step s

theorem resumeAll_succ (s : Matchmaking) (n : Nat) :
    resumeAll s (n + 1) = resumeAll (resume s true) n := rfl

theorem drop_succ_of_drop_eq_cons {queue later : List QueueEntry} {a : QueueEntry} {i : Nat}
    (hdrop : queue.drop i = a :: later) : queue.drop (i + 1) = later := by
  rw [← List.drop_drop, hdrop]
  rfl

/-- If nobody calls in between, the matching ends with the queue rid of the pairs it finds. -/
theorem resumeAll_runMatch (rest : List QueueEntry) : ∀ (s : Matchmaking) (i : Nat)
    (used : List UserId), s.queue.drop i = rest →
      ∃ n, (resumeAll (runMatch s i used true) n).phase = .idle ∧
        (resumeAll (runMatch s i used true) n).queue =
          s.queue.filter fun e => e.userId ∉ used ++ pairUsers (matchPairs rest used) := by
  induction rest with
  | nil =>
    intro s i used hdrop
    refine ⟨0, ?_, ?_⟩
    · simp [resumeAll, runMatch, hdrop, matchLoop]
    · simp [resumeAll, runMatch, hdrop, matchLoop, matchPairs, pairUsers]
  | cons a later ih =>
    intro s i used hdrop
    have hlater := drop_succ_of_drop_eq_cons hdrop
    have hskip : matchLoop used (a :: later) i = matchLoop used later (i + 1) →
        runMatch s i used true = runMatch s (i + 1) used true := by
      intro h
      rw [runMatch, runMatch, hdrop, hlater, h]
    rw [matchPairs]
    by_cases hused : a.userId ∈ used
    · rw [hskip (by rw [matchLoop, if_pos hused]), if_pos hused]
      exact ih s (i + 1) used hlater
    · rw [if_neg hused]
      cases hfound : findMatch used a later with
      | none =>
        rw [hskip (by rw [matchLoop, if_neg hused, hfound])]
        exact ih s (i + 1) used hlater
      | some b =>
        have hrun : runMatch s i used true =
            { s with
              phase := .matching i (used ++ [a.userId, b.userId]) (some b.userId)
              answered := s.answered ++ [a.userId, b.userId] } := by
          rw [runMatch, hdrop, matchLoop, if_neg hused, hfound]
          rfl
        rw [hrun]
        -- both are told, and the loop goes on behind `a`
        obtain ⟨n, hidle, hqueue⟩ := ih { s with
          phase := .matching i (used ++ [a.userId, b.userId]) none
          answered := s.answered ++ [a.userId, b.userId] } (i + 1)
          (used ++ [a.userId, b.userId]) hlater
        refine ⟨n + 1 + 1, hidle, hqueue.trans ?_⟩
        rw [List.append_assoc]
        rfl

/-- The expiry loop ends with the unexpired entries in the queue, and the matching begins. -/
theorem resumeAll_runExpire (env : Env) (rest : List QueueEntry) : ∀ (s : Matchmaking)
    (index : Nat) (still : List QueueEntry), s.queue.drop index = rest →
      ∃ n t, resumeAll (runExpire s env.now none index still true) n =
          runMatch t 0 [] true ∧ t.queue = still ++ waiting env rest := by
  induction rest with
  | nil =>
    intro s index still hdrop
    refine ⟨0, { s with queue := still }, ?_, by simp [waiting]⟩
    simp [resumeAll, runExpire, hdrop, expireLoop]
  | cons e later ih =>
    intro s index still hdrop
    have hlater := drop_succ_of_drop_eq_cons hdrop
    -- an expired entry costs one await, any other none
    by_cases hexpired : Expired env.now e
    · have hrun : runExpire s env.now none index still true =
          { s with phase := .expiring env.now none index still } := by
        rw [runExpire, Option.getD_none, hdrop, expireLoop, if_pos hexpired]
      obtain ⟨n, t, hn, ht⟩ := ih { s with
        phase := .expiring env.now none index still
        answered := s.answered ++ (s.queue[index]?).toList.map QueueEntry.userId } (index + 1)
        still hlater
      refine ⟨n + 1, t, ?_, ht.trans ?_⟩
      · rw [hrun, resumeAll_succ]
        exact hn
      · congr 1
        exact (List.filter_cons_of_neg (by simpa [isExpired, Expired] using hexpired)).symm
    · have hrun : runExpire s env.now none index still true =
          runExpire s env.now none (index + 1) (still ++ [e]) true := by
        rw [runExpire, runExpire, Option.getD_none, hdrop, hlater, expireLoop, if_neg hexpired]
      obtain ⟨n, t, hn, ht⟩ := ih s (index + 1) (still ++ [e]) hlater
      refine ⟨n, t, ?_, ht.trans ?_⟩
      · rw [hrun]
        exact hn
      · rw [List.append_assoc]
        congr 1
        exact (List.filter_cons_of_pos (by simpa [isExpired, Expired] using hexpired)).symm

/-- **Refinement.** With no call in between, a tick at its await points leaves the queue that
the tick of the service leaves, when that returns. -/
theorem undisturbed_tick (env : Env) (s : Server) :
    Effect.wp (MatchmakingService.tick env)
      (fun _ t => ∃ n, (resumeAll (step (start s.queue) (.tick env.now true)) n).phase = .idle ∧
        (resumeAll (step (start s.queue) (.tick env.now true)) n).queue = t.queue)
      (fun _ _ => True) s := by
  -- the notifications of the expiry return first, then those of the matching
  obtain ⟨n, m, hn, hm⟩ :=
    resumeAll_runExpire env s.queue (begin (start s.queue)) 0 [] rfl
  obtain ⟨k, hidle, hqueue⟩ := resumeAll_runMatch _ m 0 [] rfl
  rw [← hn] at hidle hqueue
  have hjoin : ∀ t, resumeAll (resumeAll t n) k = resumeAll t (n + k) := by
    intro t
    unfold resumeAll
    rw [List.replicate_add, List.foldl_append]
  rw [hjoin] at hidle hqueue
  have hcases := matchmakingTick_cases ⟨.inProcess, fun _ _ => 0⟩ env s
  refine Effect.wp_mono hcases (fun _ t ht => ⟨n + k, hidle, hqueue.trans ?_⟩)
    (fun _ _ _ => trivial)
  cases ht with
  | shard h => exact absurd rfl h
  | matched t hin htimeout hnone hpaired hqueue' =>
    rw [hqueue', hm]
    rfl

/-! ### Runs -/

theorem start_kept (queue : List QueueEntry) : Kept (start queue) :=
  fun _ => ⟨nofun, nofun⟩

/-- **Run lemma.** The callers' reliance is kept in every state of a run iff no update is lost
at any step of it. -/
theorem kept_iff (queue : List QueueEntry) (inputs : List Input) :
    Run.Guarded step (fun s i _ => LosesNothing s i) (start queue) inputs ↔
      Run.Throughout step (fun s _ => Kept s) (start queue) inputs :=
  Run.guarded_iff_throughout (J := fun s _ => PhaseInv s)
    (fun _ i _ h => phaseInv_step h i) (fun _ i _ hinv h => kept_step_iff hinv h i)
    (phaseInv_of_idle rfl) (start_kept queue)

/-- In a run that loses no update, after every tick and at every time in it: who has cancelled
is not in the queue, and who has been queued is, unless the tick has answered. -/
theorem kept_play (queue : List QueueEntry) (inputs : List Input)
    (hguard : Run.Guarded step (fun s i _ => LosesNothing s i) (start queue) inputs) :
    ∀ pre, pre <+: inputs → ∀ u,
      ((pre.foldl step (start queue)).last u = some .cancelled →
        ∀ e ∈ (pre.foldl step (start queue)).queue, e.userId ≠ u) ∧
      ((pre.foldl step (start queue)).last u = some .queued →
        (∃ e ∈ (pre.foldl step (start queue)).queue, e.userId = u) ∨
          u ∈ (pre.foldl step (start queue)).answered) :=
  (Run.throughout_iff_prefix _ _).mp ((kept_iff queue inputs).mp hguard)

/-- Bob is queued while Alice is told of her timeout. -/
theorem kept_play_queuedMidTick :
    ∃ e ∈ ([Input.tick 100 true, .enqueue Small.bob (some 1200) 100,
      .resume false true].foldl step (start [⟨Small.alice, 1200, 0⟩])).queue,
        e.userId = Small.bob := by
  -- Alice has expired, and her notification is awaited when Bob comes
  have hexpired : Expired 100 ⟨Small.alice, 1200, 0⟩ := by decide +kernel
  have htick : step (start [⟨Small.alice, 1200, 0⟩]) (.tick 100 true) =
      { start [⟨Small.alice, 1200, 0⟩] with phase := .expiring 100 none 0 [] } := by
    simp [step, start, begin, runExpire, expireLoop, hexpired]
  have hloses : LosesNothing
      (enqueue (step (start [⟨Small.alice, 1200, 0⟩]) (.tick 100 true)) Small.bob (some 1200) 100)
      (.resume false true) := by
    rw [htick]
    intro _ u
    by_cases hu : u = Small.bob
    · subst hu
      refine ⟨nofun, fun _ => ⟨⟨Small.bob, 1200, 100⟩, ?_, rfl⟩⟩
      simp [start, enqueue, answer, Small.alice, Small.bob]
    · have hlast : Function.update (fun _ => none) Small.bob (some Answer.queued) u = none :=
        Function.update_of_ne hu _ _
      exact ⟨fun h => absurd (hlast.symm.trans h) nofun, fun h => absurd (hlast.symm.trans h) nofun⟩
  have h := (kept_play [⟨Small.alice, 1200, 0⟩]
    [.tick 100 true, .enqueue Small.bob (some 1200) 100, .resume false true]
    ⟨trivial, trivial, hloses, trivial⟩ _ List.prefix_rfl Small.bob).2 (by decide +kernel)
  exact h.resolve_right (by decide +kernel)

/-- Alice cancels and Bob is queued while Carol is told of her timeout. The list written back is
the one from before the two calls: after the tick Alice is in the queue and Bob is not. -/
theorem kept_play_writtenBack :
    let s := [Input.tick 100 true, .cancel Small.alice, .enqueue Small.bob (some 1200) 100,
      .resume false true].foldl step
        (start [⟨⟨"carol", by decide⟩, 1200, 0⟩, ⟨Small.alice, 1200, 90⟩])
    s.phase = .idle ∧
      (s.last Small.alice = some .cancelled ∧ ∃ e ∈ s.queue, e.userId = Small.alice) ∧
      s.last Small.bob = some .queued ∧ (¬ ∃ e ∈ s.queue, e.userId = Small.bob) ∧
        Small.bob ∉ s.answered := by
  decide +kernel

end AwaitedTick

end KungFuChess
