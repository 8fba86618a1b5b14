import Mathlib.Data.List.Basic

/-!
# Programs with state and exceptions

`EStateM ε σ` is the monad of programs that read and write a state `σ` and may stop with
an exception `ε`. The state an exception leaves behind is the state at the moment it was
raised; nothing is rolled back.

`wp x Q E s` says that `x`, run from `s`, returns with `Q` or stops with `E`. The lemmas
below compute it along the structure of a program, and `wp_mono` and `wp_forM` are the
rules for calls and for loops. `Keeps P x` is the special case of a predicate on states
that survives `x` whichever way it ends; it has a rule for each way to build a program, so
that a predicate kept by the primitive operations of a program is kept by the program.
-/

namespace Effect

variable {σ ε α β : Type}

/-- The program returns with `Q` or stops with `E`. -/
def wp (x : EStateM ε σ α) (Q : α → σ → Prop) (E : ε → σ → Prop) (s : σ) : Prop :=
  match x s with
  | .ok a s' => Q a s'
  | .error err s' => E err s'

/-- The state a program leaves behind, whichever way it ends. -/
def after (x : EStateM ε σ α) (s : σ) : σ :=
  match x s with
  | .ok _ s' => s'
  | .error _ s' => s'

/-- Whether a program returns. -/
def returns (x : EStateM ε σ α) (s : σ) : Bool :=
  match x s with
  | .ok _ _ => true
  | .error _ _ => false

section Rules

variable {Q : α → σ → Prop} {E : ε → σ → Prop} {s : σ}

/-! ### Straight-line programs -/

@[simp] theorem wp_pure (a : α) : wp (pure a : EStateM ε σ α) Q E s ↔ Q a s := Iff.rfl

/-- One program after another: an exception of the first ends both. -/
@[simp] theorem wp_bind (x : EStateM ε σ β) (f : β → EStateM ε σ α) :
    wp (x >>= f) Q E s ↔ wp x (fun b => wp (f b) Q E) E s := by
  change wp (EStateM.bind x f) Q E s ↔ _
  unfold wp EStateM.bind
  cases x s <;> rfl

@[simp] theorem wp_get {Q : σ → σ → Prop} : wp (get : EStateM ε σ σ) Q E s ↔ Q s s := Iff.rfl

@[simp] theorem wp_modify {Q : PUnit → σ → Prop} (f : σ → σ) :
    wp (modify f : EStateM ε σ PUnit) Q E s ↔ Q ⟨⟩ (f s) := Iff.rfl

@[simp] theorem wp_throw (err : ε) : wp (throw err : EStateM ε σ α) Q E s ↔ E err s := Iff.rfl

/-- The handler takes over the state of the exception. -/
@[simp] theorem wp_tryCatch (x : EStateM ε σ α) (handler : ε → EStateM ε σ α) :
    wp (tryCatch x handler) Q E s ↔ wp x Q (fun err => wp (handler err) Q E) s := by
  change wp (EStateM.tryCatch x handler) Q E s ↔ _
  unfold wp EStateM.tryCatch
  cases x s <;> rfl

/-! ### Consequence and loops -/

/-- **The rule of consequence.** -/
theorem wp_mono {x : EStateM ε σ α} {Q' : α → σ → Prop} {E' : ε → σ → Prop}
    (h : wp x Q E s) (hQ : ∀ a s', Q a s' → Q' a s') (hE : ∀ err s', E err s' → E' err s') :
    wp x Q' E' s := by
  unfold wp at h ⊢
  cases hx : x s with
  | ok a s' =>
    rw [hx] at h
    exact hQ a s' h
  | error err s' =>
    rw [hx] at h
    exact hE err s' h

/-- The call rule: a specification of the procedure, what its exceptions mean for the caller,
and the rest of the program from where the procedure returns. -/
theorem wp_call {x : EStateM ε σ β} {f : β → EStateM ε σ α} {Q' : β → σ → Prop}
    {E' : ε → σ → Prop} (h : wp x Q' E' s) (hE : ∀ err t, E' err t → E err t)
    (hQ : ∀ b t, Q' b t → wp (f b) Q E t) : wp (x >>= f) Q E s := by
  rw [wp_bind]
  exact wp_mono h hQ hE

/-- Two facts about one run. -/
theorem wp_and {x : EStateM ε σ α} {Q' : α → σ → Prop} {E' : ε → σ → Prop}
    (h : wp x Q E s) (h' : wp x Q' E' s) :
    wp x (fun a t => Q a t ∧ Q' a t) (fun err t => E err t ∧ E' err t) s := by
  unfold wp at *
  cases hx : x s with
  | ok a s' =>
    rw [hx] at h h'
    exact ⟨h, h'⟩
  | error err s' =>
    rw [hx] at h h'
    exact ⟨h, h'⟩

/-- The loop rule: an invariant of the elements still to come and the state. -/
theorem wp_forM {f : β → EStateM ε σ PUnit} {I : List β → σ → Prop}
    (hstep : ∀ b l t, I (b :: l) t → wp (f b) (fun _ => I l) E t) :
    ∀ {l : List β} {s : σ}, I l s → wp (l.forM f) (fun _ => I []) E s := by
  intro l
  induction l with
  | nil => exact fun h => h
  | cons b l ih =>
    intro s h
    change wp (f b >>= fun _ => l.forM f) _ E s
    exact wp_call (hstep b l s h) (fun _ _ h => h) (fun _ _ ht => ih ht)

/-- The loop rule with an invariant of the elements done so far. If a pass raises, the elements
before it have been done. -/
theorem wp_forM_done {f : β → EStateM ε σ PUnit} {I : List β → σ → Prop}
    {E : List β → β → ε → σ → Prop} {l : List β} {s : σ}
    (hstep : ∀ pre b post t, l = pre ++ b :: post → I pre t →
      wp (f b) (fun _ => I (pre ++ [b])) (E pre b) t) (h : I [] s) :
    wp (l.forM f) (fun _ => I l)
      (fun err t => ∃ pre b post, l = pre ++ b :: post ∧ E pre b err t) s := by
  -- the loop rule, with the part of the list gone through as the invariant
  have hloop := wp_forM (f := f) (s := s) (l := l)
    (I := fun rest t => ∃ pre, l = pre ++ rest ∧ I pre t)
    (E := fun err t => ∃ pre b post, l = pre ++ b :: post ∧ E pre b err t)
    (fun b rest t ⟨pre, hsplit, ht⟩ =>
      wp_mono (hstep pre b rest t hsplit ht)
        (fun _ u hu => ⟨pre ++ [b], by rw [hsplit, List.append_assoc]; rfl, hu⟩)
        (fun _ _ hu => ⟨pre, b, rest, hsplit, hu⟩))
    ⟨[], rfl, h⟩
  refine wp_mono hloop (fun _ t ⟨pre, hsplit, ht⟩ => ?_) (fun _ _ ht => ht)
  rw [List.append_nil] at hsplit
  exact hsplit ▸ ht

/-- Every pass of the loop meets `ok` in the state it starts in; the passes after an exception
do not take place. -/
def LoopGuarded (ok : β → σ → Prop) (f : β → EStateM ε σ PUnit) : List β → σ → Prop
  | [], _ => True
  | b :: l, s => ok b s ∧ wp (f b) (fun _ => LoopGuarded ok f l) (fun _ _ => True) s

/-- A condition that always holds guards any loop. -/
theorem LoopGuarded.of_forall {ok : β → σ → Prop} {f : β → EStateM ε σ PUnit}
    (h : ∀ b s, ok b s) : ∀ (l : List β) (s : σ), LoopGuarded ok f l s := by
  intro l
  induction l with
  | nil => exact fun _ => trivial
  | cons b l ih =>
    refine fun s => ⟨h b s, ?_⟩
    unfold wp
    split
    · exact ih _
    · trivial

/-- The loop rule for a guarded loop. -/
theorem LoopGuarded.wp_forM {ok : β → σ → Prop} {f : β → EStateM ε σ PUnit} {I : σ → Prop}
    (hstep : ∀ b t, I t → ok b t → wp (f b) (fun _ => I) (fun _ => I) t) :
    ∀ {l : List β} {s : σ}, LoopGuarded ok f l s → I s →
      wp (l.forM f) (fun _ => I) (fun _ => I) s := by
  intro l s hg hs
  refine wp_mono (Effect.wp_forM (I := fun l t => LoopGuarded ok f l t ∧ I t)
    (fun b l t ht => ?_) ⟨hg, hs⟩) (fun _ _ h => h.2) (fun _ _ h => h)
  exact wp_mono (wp_and ht.1.2 (hstep b t ht.2 ht.1.1)) (fun _ _ h => h) (fun _ _ h => h.2)

theorem wp_iff_after {P : σ → Prop} {x : EStateM ε σ α} :
    wp x (fun _ => P) (fun _ => P) s ↔ P (after x s) := by
  unfold wp after
  cases x s <;> rfl

/-- What a program that returns leaves behind. -/
theorem after_of_returns {P : σ → Prop} {x : EStateM ε σ α} (h : wp x (fun _ => P) E s)
    (hreturns : returns x s = true) : P (after x s) := by
  unfold wp at h
  unfold returns at hreturns
  unfold after
  cases hx : x s with
  | ok a t =>
    rw [hx] at h
    exact h
  | error err t =>
    rw [hx] at hreturns
    cases hreturns

/-- What holds of everything holds of the end. -/
theorem wp_of_forall {x : EStateM ε σ α} (hQ : ∀ a t, Q a t) (hE : ∀ err t, E err t) :
    wp x Q E s := by
  unfold wp
  cases x s with
  | ok a t => exact hQ a t
  | error err t => exact hE err t

/-- What follows from either way in which a program ends. -/
theorem wp_elim {x : EStateM ε σ α} {P : Prop} (h : wp x Q E s) (hQ : ∀ a t, Q a t → P)
    (hE : ∀ err t, E err t → P) : P :=
  (wp_iff_after (P := fun _ => P)).mp (wp_mono h hQ hE)

/-- Two continuations that leave the same state behind wherever the program returns. -/
theorem after_bind_congr {γ : Type} {x : EStateM ε σ β} {f : β → EStateM ε σ α}
    {g : β → EStateM ε σ γ}
    (h : wp x (fun b t => after (f b) t = after (g b) t) (fun _ _ => True) s) :
    after (x >>= f) s = after (x >>= g) s := by
  change after (EStateM.bind x f) s = after (EStateM.bind x g) s
  unfold wp at h
  unfold after EStateM.bind
  cases hx : x s with
  | ok b t =>
    rw [hx] at h
    exact h
  | error err t => rfl

/-- The second program runs where the first has returned, if it has. -/
theorem after_bind_cases (x : EStateM ε σ β) (f : β → EStateM ε σ α) (s : σ) :
    after (x >>= f) s = after x s ∨ ∃ b, after (x >>= f) s = after (f b) (after x s) := by
  change after (EStateM.bind x f) s = _ ∨ ∃ b, after (EStateM.bind x f) s = _
  unfold after EStateM.bind
  cases x s with
  | ok b t => exact Or.inr ⟨b, rfl⟩
  | error err t => exact Or.inl rfl

/-- An exception that is swallowed. -/
theorem after_tryCatch_pure (x : EStateM ε σ α) (f : ε → α) (s : σ) :
    after (tryCatch x fun err => pure (f err)) s = after x s := by
  change after (EStateM.tryCatch x fun err => pure (f err)) s = _
  unfold after EStateM.tryCatch
  cases x s <;> rfl

/-- A program whose result is changed. -/
theorem after_bind_pure (x : EStateM ε σ β) (f : β → α) :
    after (x >>= fun b => pure (f b)) s = after x s := by
  change after (EStateM.bind x fun b => pure (f b)) s = after x s
  unfold after EStateM.bind
  cases x s <;> rfl

end Rules

/-! ### Predicates that survive a program -/

/-- `P` survives `x`, whether it returns or stops. -/
def Keeps (P : σ → Prop) (x : EStateM ε σ α) : Prop :=
  ∀ s, P s → wp x (fun _ => P) (fun _ => P) s

section Keeps

variable {P : σ → Prop}

theorem Keeps.pure (a : α) : Keeps P (Pure.pure a : EStateM ε σ α) := fun _ hs => hs

/-- A predicate that the first program establishes and the second keeps. -/
theorem wp_bind_of_keeps {x : EStateM ε σ β} {f : β → EStateM ε σ α} {s : σ}
    (hx : wp x (fun _ => P) (fun _ => P) s) (hf : ∀ b, Keeps P (f b)) :
    wp (x >>= f) (fun _ => P) (fun _ => P) s := by
  exact wp_call hx (fun _ _ h => h) hf

/-- The handler starts from whatever state the exception left. -/
theorem wp_tryCatch_of_keeps {x : EStateM ε σ α} {handler : ε → EStateM ε σ α} {s : σ}
    (hx : wp x (fun _ => P) (fun _ => P) s) (hhandler : ∀ err, Keeps P (handler err)) :
    wp (tryCatch x handler) (fun _ => P) (fun _ => P) s := by
  rw [wp_tryCatch]
  exact wp_mono hx (fun _ _ h => h) (fun err t ht => hhandler err t ht)

theorem Keeps.bind {x : EStateM ε σ β} {f : β → EStateM ε σ α} (hx : Keeps P x)
    (hf : ∀ b, Keeps P (f b)) : Keeps P (x >>= f) := fun s hs => wp_bind_of_keeps (hx s hs) hf

theorem Keeps.get : Keeps P (MonadState.get : EStateM ε σ σ) := fun _ hs => hs

theorem keeps_modify {f : σ → σ} (hf : ∀ s, P s → P (f s)) :
    Keeps P (modify f : EStateM ε σ PUnit) := fun s hs => hf s hs

theorem Keeps.throw (err : ε) : Keeps P (MonadExcept.throw err : EStateM ε σ α) := fun _ hs => hs

theorem Keeps.tryCatch {x : EStateM ε σ α} {handler : ε → EStateM ε σ α} (hx : Keeps P x)
    (hhandler : ∀ err, Keeps P (handler err)) : Keeps P (MonadExcept.tryCatch x handler) :=
  fun s hs => wp_tryCatch_of_keeps (hx s hs) hhandler

theorem Keeps.ite {c : Prop} [Decidable c] {x y : EStateM ε σ α} (hx : Keeps P x)
    (hy : Keeps P y) : Keeps P (if c then x else y) := by
  split
  · exact hx
  · exact hy

theorem Keeps.forM {f : β → EStateM ε σ PUnit} (hf : ∀ b, Keeps P (f b)) (l : List β) :
    Keeps P (l.forM f) :=
  fun _ hs => wp_forM (I := fun _ => P) (fun b _ t ht => hf b t ht) hs

end Keeps

end Effect
