import Mathlib.Data.List.Induction

/-!
# Runs of a deterministic step function

A run feeds a list of inputs to a step function, one after the other:
`is.foldl step s`. This file packages the inductions over runs once.

* `Run.invariant` carries a predicate from the first state to the last. The
  predicate may also look at the inputs still to come, which is how the invariant
  of a loop speaks about the elements it has not reached.
* `Run.Guarded step ok s is` says that every input satisfies the condition `ok`
  in the state it meets. `Run.Guarded.invariant` is the invariant rule for guarded
  runs.
* `Run.guarded_iff_throughout` is the exactness rule: when, given the invariant,
  the guard of a step is equivalent to the property after the step, then all guards
  of a run hold iff the property holds in every state of the run. When the property,
  once lost, is lost for good, the last state decides (`Run.guarded_iff_last`).
-/

namespace Run

variable {S I : Type} {step : S → I → S}

/-! ### Unguarded runs -/

/-- **Run induction.** A predicate on the state and the inputs still to come that
survives every step holds at the end of the run. -/
theorem invariant {P : S → List I → Prop}
    (hstep : ∀ s i is, P s (i :: is) → P (step s i) is) :
    ∀ {is : List I} {s : S}, P s is → P (is.foldl step s) [] := by
  intro is
  induction is with
  | nil => exact fun h => h
  | cons i is ih => exact fun h => ih (hstep _ i is h)

/-- A predicate on states alone that survives every step survives every run. -/
theorem stable {P : S → Prop} (hstep : ∀ s i, P s → P (step s i)) {is : List I} {s : S}
    (h : P s) : P (is.foldl step s) :=
  invariant (P := fun s _ => P s) (fun s i _ => hstep s i) h

/-! ### Guarded runs -/

/-- Every input of the run satisfies `ok` in the state it meets, with the inputs
still to come as a third argument. -/
def Guarded (step : S → I → S) (ok : S → I → List I → Prop) : S → List I → Prop
  | _, [] => True
  | s, i :: is => ok s i is ∧ Guarded step ok (step s i) is

variable {ok : S → I → List I → Prop}

@[simp] theorem guarded_nil (s : S) : Guarded step ok s [] := trivial

@[simp] theorem guarded_cons (s : S) (i : I) (is : List I) :
    Guarded step ok s (i :: is) ↔ ok s i is ∧ Guarded step ok (step s i) is := Iff.rfl

/-- A guarded run can be recognised if its guards can. -/
instance instDecidableGuarded [∀ s i is, Decidable (ok s i is)] : ∀ s is, Decidable (Guarded step ok s is)
  | _, [] => instDecidableTrue
  | s, i :: is =>
    have : Decidable (Guarded step ok (step s i) is) := instDecidableGuarded _ is
    inferInstanceAs (Decidable (ok s i is ∧ Guarded step ok (step s i) is))

/-- The guards of a run are those of its two parts. -/
theorem guarded_append (s : S) (is is' : List I) :
    Guarded step ok s (is ++ is') ↔
      Guarded step (fun t i rest => ok t i (rest ++ is')) s is ∧
        Guarded step ok (is.foldl step s) is' := by
  induction is generalizing s with
  | nil => simp
  | cons i is ih =>
    rw [List.cons_append, guarded_cons, guarded_cons, ih, and_assoc]
    rfl

/-- The guard of a run, read at each position of its list of inputs. -/
theorem guarded_iff_split (s : S) (is : List I) :
    Guarded step ok s is ↔
      ∀ pre i post, is = pre ++ i :: post → ok (pre.foldl step s) i post := by
  constructor
  · rintro h pre i post rfl
    exact ((guarded_append s pre (i :: post)).mp h).2.1
  · intro h
    induction is generalizing s with
    | nil => trivial
    | cons i is ih =>
      refine ⟨h [] i is rfl, ih (step s i) fun pre j post hsplit => ?_⟩
      exact h (i :: pre) j post (by rw [hsplit]; rfl)

/-- **Guarded run induction.** -/
theorem Guarded.invariant {P : S → List I → Prop}
    (hstep : ∀ s i is, P s (i :: is) → ok s i is → P (step s i) is) :
    ∀ {is : List I} {s : S}, Guarded step ok s is → P s is → P (is.foldl step s) [] := by
  intro is
  induction is with
  | nil => exact fun _ h => h
  | cons i is ih => exact fun hg h => ih hg.2 (hstep _ i is h hg.1)

/-- **History induction.** A predicate on the inputs so far that every input extends which is
allowed after them. -/
theorem history {P : List I → Prop} {ok : List I → I → Prop} (hnil : P [])
    (hstep : ∀ pre i, P pre → ok pre i → P (pre ++ [i])) :
    ∀ {is : List I}, (∀ pre i post, is = pre ++ i :: post → ok pre i) → P is := by
  intro is
  induction is using List.reverseRecOn with
  | nil => exact fun _ => hnil
  | append_singleton pre i ih =>
    intro hok
    refine hstep pre i (ih fun before j after hsplit => ?_) (hok pre i [] rfl)
    exact hok before j (after ++ [i]) (by rw [hsplit, List.append_assoc]; rfl)

/-- History induction over a guarded run. -/
theorem Guarded.history {ok : S → I → Prop} {P : List I → Prop} {s : S} (hnil : P [])
    (hstep : ∀ pre i, P pre → ok (pre.foldl step s) i → P (pre ++ [i])) {is : List I}
    (hg : Guarded step (fun t i _ => ok t i) s is) : P is :=
  Run.history hnil hstep ((guarded_iff_split s is).mp hg)

/-! ### Properties of every state of a run -/

/-- `P` holds in every state of the run, the first and the last included. -/
def Throughout (step : S → I → S) (P : S → List I → Prop) : S → List I → Prop
  | s, [] => P s []
  | s, i :: is => P s (i :: is) ∧ Throughout step P (step s i) is

variable {P J : S → List I → Prop}

theorem Throughout.head {s : S} {is : List I} (h : Throughout step P s is) : P s is := by
  cases is with
  | nil => exact h
  | cons i is => exact h.1

theorem Throughout.last {s : S} {is : List I} (h : Throughout step P s is) :
    P (is.foldl step s) [] := by
  induction is generalizing s with
  | nil => exact h
  | cons i is ih => exact ih h.2

/-- A weaker property. -/
theorem Throughout.imp {Q : S → List I → Prop} {s : S} {is : List I} (h : Throughout step P s is)
    (himp : ∀ s is, P s is → Q s is) : Throughout step Q s is := by
  induction is generalizing s with
  | nil => exact himp s [] h
  | cons i is ih => exact ⟨himp s (i :: is) h.1, ih h.2⟩

/-- An invariant of the guarded steps holds in every state of a guarded run. -/
theorem Guarded.throughout (hstep : ∀ s i is, P s (i :: is) → ok s i is → P (step s i) is)
    {s : S} {is : List I} (hg : Guarded step ok s is) (h : P s is) : Throughout step P s is := by
  induction is generalizing s with
  | nil => exact h
  | cons i is ih => exact ⟨h, ih hg.2 (hstep s i is h hg.1)⟩

/-- What holds throughout a run may be used for its guards. -/
theorem Throughout.guarded {s : S} {is : List I} (h : Throughout step P s is)
    (hok : ∀ s i is, P s (i :: is) → ok s i is) : Guarded step ok s is := by
  induction is generalizing s with
  | nil => trivial
  | cons i is ih => exact ⟨hok s i is h.1, ih h.2⟩

/-- The states of a run are the ends of its prefixes. -/
theorem throughout_iff_prefix {Q : S → Prop} (s : S) (is : List I) :
    Throughout step (fun t _ => Q t) s is ↔ ∀ pre, pre <+: is → Q (pre.foldl step s) := by
  -- by induction on the inputs; a non-empty prefix begins with the first of them
  induction is generalizing s with
  | nil =>
    refine ⟨fun h pre hpre => ?_, fun h => h [] List.prefix_rfl⟩
    rw [List.prefix_nil.mp hpre]
    exact h
  | cons i is ih =>
    constructor
    · intro h pre hpre
      cases pre with
      | nil => exact h.1
      | cons j pre =>
        obtain ⟨rfl, hpre'⟩ := List.cons_prefix_cons.mp hpre
        exact (ih (step s j)).mp h.2 pre hpre'
    · intro h
      refine ⟨h [] List.nil_prefix, (ih (step s i)).mpr fun pre hpre => ?_⟩
      exact h (i :: pre) (List.cons_prefix_cons.mpr ⟨rfl, hpre⟩)

/-- **Exactness of a guard.** If, under the invariant, a step keeps the property
exactly when its guard holds, then a run is guarded iff it has the property
throughout. -/
theorem guarded_iff_throughout
    (hinv : ∀ s i is, J s (i :: is) → J (step s i) is)
    (hexact : ∀ s i is, J s (i :: is) → P s (i :: is) → (ok s i is ↔ P (step s i) is))
    {s : S} {is : List I} (hI : J s is) (hP : P s is) :
    Guarded step ok s is ↔ Throughout step P s is := by
  induction is generalizing s with
  | nil => exact iff_of_true trivial hP
  | cons i is ih =>
    have hI' := hinv s i is hI
    constructor
    · rintro ⟨hok, hg⟩
      exact ⟨hP, (ih hI' ((hexact s i is hI hP).mp hok)).mp hg⟩
    · rintro ⟨-, ht⟩
      have hP' : P (step s i) is := ht.head
      exact ⟨(hexact s i is hI hP).mpr hP', (ih hI' hP').mpr ht⟩

/-- If a lost property stays lost, the last state of a run decides whether the run
had it throughout, hence whether the run was guarded. -/
theorem guarded_iff_last
    (hinv : ∀ s i is, J s (i :: is) → J (step s i) is)
    (hexact : ∀ s i is, J s (i :: is) → P s (i :: is) → (ok s i is ↔ P (step s i) is))
    (hlost : ∀ s i is, J s (i :: is) → ¬ P s (i :: is) → ¬ P (step s i) is)
    {s : S} {is : List I} (hI : J s is) (hP : P s is) :
    Guarded step ok s is ↔ P (is.foldl step s) [] := by
  constructor
  · intro hg
    exact ((guarded_iff_throughout hinv hexact hI hP).mp hg).last
  · -- were the property lost by the first step, the last state would not have it
    induction is generalizing s with
    | nil => exact fun _ => trivial
    | cons i is ih =>
      intro hlast
      have hI' := hinv s i is hI
      have hP' : P (step s i) is := by
        by_contra hno
        have hend := invariant (P := fun t js => J t js ∧ ¬ P t js)
          (fun t j js h => ⟨hinv t j js h.1, hlost t j js h.1 h.2⟩) ⟨hI', hno⟩
        exact hend.2 hlast
      exact ⟨(hexact s i is hI hP).mpr hP', ih hI' hP' hlast⟩

end Run
