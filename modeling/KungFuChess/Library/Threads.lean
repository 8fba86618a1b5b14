import Mathlib.Logic.Function.Basic
import KungFuChess.Library.Run

/-!
# Threads over a shared state

A program is a tree of statements. A statement is atomic: it reads and writes the shared state
once, and it may read an input from outside, such as a clock. In a pool each thread has a program
of its own, and a schedule says whose statement comes next.

What holds under every schedule is proved thread by thread, by rely and guarantee. A thread relies
on a relation `R` between the states before and after the statements of the others, and guarantees
a relation `G` for each of its own. `Prog.Meets` says that a program guarantees `G` and ends with a
given answer, as long as the others keep to `R`; if each thread's guarantee implies what the others
rely on, the programs meet their contracts together (`Pool.meets_run`).
-/

namespace Threads

/-- A program over states `S` with inputs `I`, which raises `E` or answers `A`. -/
inductive Prog (S I E A : Type) where
  | done (a : A)
  | raised (e : E)
  | step (write : I → S → S) (next : I → S → Prog S I E A)

variable {S I E A B ι : Type}

namespace Prog

/-- Run `k` on the answer. -/
def bind : Prog S I E A → (A → Prog S I E B) → Prog S I E B
  | done a, k => k a
  | raised e, _ => raised e
  | step write next, k => step write fun i s => (next i s).bind k

/-- Programs are put one after another. -/
instance : Monad (Prog S I E) where
  pure := done
  bind := bind

/-- The answer, of a program that has one. -/
def answer? : Prog S I E A → Option A
  | done a => some a
  | _ => none

theorem answer?_eq_some_iff {x : Prog S I E A} {a : A} : x.answer? = some a ↔ x = done a := by
  cases x <;> simp [answer?]

/-- A statement that answers. -/
def statement (f : I → S → A × S) : Prog S I E A :=
  step (fun i s => (f i s).2) fun i s => done (f i s).1

/-- A statement that may raise, and then writes nothing. -/
def attempt (f : S → Except E S) : Prog S I E Unit :=
  step
    (fun _ s =>
      match f s with
      | .ok s' => s'
      | .error _ => s)
    fun _ s =>
      match f s with
      | .ok _ => done ()
      | .error e => raised e

/-- A statement that only reads. -/
def read (f : S → A) : Prog S I E A := statement fun _ s => (f s, s)

/-- A statement that only writes. -/
def write (f : S → S) : Prog S I E Unit := statement fun _ s => ((), f s)

/-- Read the input. -/
def input : Prog S I E I := statement fun i s => (i, s)

end Prog

/-! ### Contracts -/

/-- What a thread relies on and guarantees, and how it ends. -/
structure Contract (S E A : Type) where
  Rely : S → S → Prop
  Guar : S → S → Prop
  Answers : A → S → Prop
  Raises : E → S → Prop

/-- The relied-on relation is a preorder, and keeps the ends of the program. -/
structure Contract.Stable (c : Contract S E A) : Prop where
  refl : ∀ s, c.Rely s s
  trans : ∀ {s s' s''}, c.Rely s s' → c.Rely s' s'' → c.Rely s s''
  answers : ∀ {a s s'}, c.Rely s s' → c.Answers a s → c.Answers a s'
  raises : ∀ {e s s'}, c.Rely s s' → c.Raises e s → c.Raises e s'

namespace Prog

/-- Started in the state `s`, the program keeps to its contract for all inputs with `ok`. -/
def Meets (ok : I → Prop) (c : Contract S E A) : Prog S I E A → S → Prop
  | done a, s => c.Answers a s
  | raised e, s => c.Raises e s
  | step write next, s =>
    ∀ s', c.Rely s s' → ∀ i, ok i → c.Guar s' (write i s') ∧ (next i s').Meets ok c (write i s')

variable {ok : I → Prop} {c : Contract S E A} {s s' : S}

/-- The statements of the others do no harm. -/
theorem Meets.stable (hc : c.Stable) {x : Prog S I E A} (h : x.Meets ok c s) (hrely : c.Rely s s') :
    x.Meets ok c s' := by
  cases x with
  | done a => exact hc.answers hrely h
  | raised e => exact hc.raises hrely h
  | step write next => exact fun t ht i hi => h t (hc.trans hrely ht) i hi

/-- Less is said of how the program ends. -/
theorem Meets.imp {Q : A → S → Prop} {X : E → S → Prop} {x : Prog S I E A} (h : x.Meets ok c s)
    (hQ : ∀ a s, c.Answers a s → Q a s) (hX : ∀ e s, c.Raises e s → X e s) :
    x.Meets ok { c with Answers := Q, Raises := X } s := by
  induction x generalizing s with
  | done a => exact hQ a s h
  | raised e => exact hX e s h
  | step write next ih => exact fun t ht i hi => ⟨(h t ht i hi).1, ih i t (h t ht i hi).2⟩

/-- Fewer inputs can come. -/
theorem Meets.anti {ok' : I → Prop} {x : Prog S I E A} (h : x.Meets ok c s)
    (hok : ∀ i, ok' i → ok i) : x.Meets ok' c s := by
  induction x generalizing s with
  | done a => exact h
  | raised e => exact h
  | step write next ih =>
    intro t ht i hi
    obtain ⟨hguar, hnext⟩ := h t ht i (hok i hi)
    exact ⟨hguar, ih i t hnext⟩

/-- A program is met in two parts, with a condition in between. -/
theorem Meets.bind {c : Contract S E B} {Q : A → S → Prop} {x : Prog S I E A} {k : A → Prog S I E B}
    (h : x.Meets ok { c with Answers := Q } s) (hk : ∀ a t, Q a t → (k a).Meets ok c t) :
    (x.bind k).Meets ok c s := by
  induction x generalizing s with
  | done a => exact hk a s h
  | raised e => exact h
  | step write next ih =>
    intro t ht i hi
    exact ⟨(h t ht i hi).1, ih i t (h t ht i hi).2⟩

/-- A statement meets a contract if it does so from every state the others may have left. -/
theorem meets_statement {f : I → S → A × S}
    (h : ∀ t, c.Rely s t → ∀ i, ok i → c.Guar t (f i t).2 ∧ c.Answers (f i t).1 (f i t).2) :
    (statement f : Prog S I E A).Meets ok c s := h

/-- Reading changes nothing. -/
theorem meets_read {f : S → A} (hguar : ∀ t, c.Guar t t)
    (h : ∀ t, c.Rely s t → c.Answers (f t) t) : (read f : Prog S I E A).Meets ok c s :=
  meets_statement fun t ht _ _ => ⟨hguar t, h t ht⟩

theorem meets_write {c : Contract S E Unit} {f : S → S}
    (h : ∀ t, c.Rely s t → c.Guar t (f t) ∧ c.Answers () (f t)) :
    (write f : Prog S I E Unit).Meets ok c s := meets_statement fun t ht _ _ => h t ht

theorem meets_input {c : Contract S E I} (hguar : ∀ t, c.Guar t t)
    (h : ∀ t, c.Rely s t → ∀ i, ok i → c.Answers i t) : (input : Prog S I E I).Meets ok c s :=
  meets_statement fun t ht i hi => ⟨hguar t, h t ht i hi⟩

/-- A write that may be refused. -/
theorem meets_attempt {c : Contract S E Unit} {f : S → Except E S} (hguar : ∀ t, c.Guar t t)
    (hok : ∀ t t', c.Rely s t → f t = .ok t' → c.Guar t t' ∧ c.Answers () t')
    (herror : ∀ t e, c.Rely s t → f t = .error e → c.Raises e t) :
    (attempt f : Prog S I E Unit).Meets ok c s := by
  intro t ht i _
  dsimp only
  cases hf : f t with
  | ok t' => exact hok t t' ht hf
  | error e => exact ⟨hguar t, herror t e ht hf⟩

end Prog

/-! ### Pools -/

/-- Threads with a state between them. -/
structure Pool (ι S I E A : Type) where
  shared : S
  threads : ι → Prog S I E A

namespace Pool

variable [DecidableEq ι]

/-- The next statement of one thread; a thread that has ended does nothing. -/
def step (p : Pool ι S I E A) (turn : ι × I) : Pool ι S I E A :=
  match p.threads turn.1 with
  | .done _ => p
  | .raised _ => p
  | .step write next =>
    { shared := write turn.2 p.shared
      threads := Function.update p.threads turn.1 (next turn.2 p.shared) }

/-- The statements of a schedule, one after the other. -/
def run (p : Pool ι S I E A) (schedule : List (ι × I)) : Pool ι S I E A := schedule.foldl step p

/-- The contracts fit together. -/
structure Fit (contracts : ι → Contract S E A) : Prop where
  stable : ∀ i, (contracts i).Stable
  covers : ∀ i j, i ≠ j → ∀ {s s'}, (contracts j).Guar s s' → (contracts i).Rely s s'

/-- Each thread is on the way to meet its contract, for all inputs that are `ok` for it. -/
def Meets (ok : ι → I → Prop) (contracts : ι → Contract S E A) (p : Pool ι S I E A) : Prop :=
  ∀ i, (p.threads i).Meets (ok i) (contracts i) p.shared

variable {ok : ι → I → Prop} {contracts : ι → Contract S E A} {p : Pool ι S I E A}

/-- **One statement.** -/
theorem Meets.step (hfit : Fit contracts) (h : p.Meets ok contracts) {turn : ι × I}
    (hok : ok turn.1 turn.2) :
    (p.step turn).Meets ok contracts ∧
      ((p.step turn).shared = p.shared ∨ (contracts turn.1).Guar p.shared (p.step turn).shared) := by
  have hturn := h turn.1
  unfold Pool.step
  cases hprog : p.threads turn.1 with
  | done a => exact ⟨h, Or.inl rfl⟩
  | raised e => exact ⟨h, Or.inl rfl⟩
  | step write next =>
    -- the thread whose turn it is has its own contract, the others rely on its guarantee
    rw [hprog] at hturn
    obtain ⟨hguar, hnext⟩ := hturn p.shared ((hfit.stable _).refl _) turn.2 hok
    refine ⟨fun i => ?_, Or.inr hguar⟩
    dsimp only
    by_cases hi : i = turn.1
    · subst hi
      rw [Function.update_self]
      exact hnext
    · rw [Function.update_of_ne hi]
      exact (h i).stable (hfit.stable i) (hfit.covers i turn.1 hi hguar)

/-- **Contracts are met under every schedule**, and what each guarantee keeps is kept. -/
theorem meets_run {P : S → Prop} (hfit : Fit contracts)
    (hP : ∀ i s s', (contracts i).Guar s s' → P s → P s') (h : p.Meets ok contracts)
    (hshared : P p.shared) {schedule : List (ι × I)} (hok : ∀ turn ∈ schedule, ok turn.1 turn.2) :
    (p.run schedule).Meets ok contracts ∧ P (p.run schedule).shared := by
  induction schedule generalizing p with
  | nil => exact ⟨h, hshared⟩
  | cons turn schedule ih =>
    obtain ⟨hstep, hsame⟩ := h.step hfit (hok turn List.mem_cons_self)
    have hshared' : P (p.step turn).shared := by
      obtain hsame | hguar := hsame
      · rw [hsame]
        exact hshared
      · exact hP _ _ _ hguar hshared
    exact ih hstep hshared' fun t ht => hok t (List.mem_cons_of_mem turn ht)

/-- A thread that has no turn stays where it is. -/
theorem threads_run {i : ι} {schedule : List (ι × I)} (h : ∀ turn ∈ schedule, turn.1 ≠ i) :
    (p.run schedule).threads i = p.threads i := by
  induction schedule generalizing p with
  | nil => rfl
  | cons turn schedule ih =>
    have hne := h turn List.mem_cons_self
    have hstep : (p.step turn).threads i = p.threads i := by
      unfold Pool.step
      split
      · rfl
      · rfl
      · exact Function.update_of_ne hne.symm _ _
    exact (ih fun t ht => h t (List.mem_cons_of_mem turn ht)).trans hstep

theorem run_append (schedule schedule' : List (ι × I)) :
    p.run (schedule ++ schedule') = (p.run schedule).run schedule' := List.foldl_append

end Pool

end Threads
