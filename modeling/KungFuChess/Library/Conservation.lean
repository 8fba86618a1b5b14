import Mathlib.Data.List.Perm.Basic

/-!
# What a run takes in and gives out

Each step of a machine may take things in, hold them, and give them out. If no step loses or
makes one (`out ++ held` after it is `held ++ in` before), no run does: what a run has given out and
what it still holds is what it held at first and what it has taken in, up to order
(`Run.conserved`).
-/

namespace Run

variable {S I A B : Type} {step : S → I → S}

/-- What the steps of a run give, one after the other. -/
def gather (step : S → I → S) (f : S → I → List A) : S → List I → List A
  | _, [] => []
  | s, i :: is => f s i ++ gather step f (step s i) is

variable {f : S → I → List A}

@[simp] theorem gather_nil (s : S) : gather step f s [] = [] := rfl

@[simp] theorem gather_cons (s : S) (i : I) (is : List I) :
    gather step f s (i :: is) = f s i ++ gather step f (step s i) is := rfl

/-- The image of what is gathered is gathered from the images. -/
theorem map_gather (g : A → B) (s : S) (is : List I) :
    (gather step f s is).map g = gather step (fun s i => (f s i).map g) s is := by
  induction is generalizing s with
  | nil => rfl
  | cons i is ih => rw [gather_cons, gather_cons, List.map_append, ih]

/-- What is gathered comes from a step of the run. -/
theorem mem_gather {s : S} {is : List I} {a : A} :
    a ∈ gather step f s is ↔ ∃ pre i post, is = pre ++ i :: post ∧ a ∈ f (pre.foldl step s) i := by
  induction is generalizing s with
  | nil => simp
  | cons i is ih =>
    rw [gather_cons, List.mem_append, ih]
    constructor
    · rintro (h | ⟨pre, j, post, rfl, h⟩)
      · exact ⟨[], i, is, rfl, h⟩
      · exact ⟨i :: pre, j, post, rfl, h⟩
    · -- the step is the first one, or one of the rest
      rintro ⟨pre, j, post, hsplit, h⟩
      cases pre with
      | nil =>
        obtain ⟨rfl, rfl⟩ := List.cons.inj hsplit
        exact Or.inl h
      | cons k pre =>
        obtain ⟨rfl, rfl⟩ := List.cons.inj hsplit
        exact Or.inr ⟨pre, j, post, rfl, h⟩

variable {J : S → Prop} {held : S → List A} {taken given : S → I → List A}

/-- **Nothing is lost and nothing is made**, up to order. -/
theorem conserved (hinv : ∀ s i, J s → J (step s i))
    (hstep : ∀ s i, J s → (given s i ++ held (step s i)).Perm (held s ++ taken s i)) {s : S}
    (h : J s) (is : List I) :
    (gather step given s is ++ held (is.foldl step s)).Perm (held s ++ gather step taken s is) := by
  induction is generalizing s with
  | nil => exact List.perm_append_comm
  | cons i is ih =>
    rw [gather_cons, gather_cons, List.foldl_cons, List.append_assoc, ← List.append_assoc (held s)]
    -- the rest of the run holds what the step has left
    have hrest := ih (hinv s i h)
    refine (hrest.append_left (given s i)).trans ?_
    rw [← List.append_assoc]
    exact (hstep s i h).append_right _

end Run
