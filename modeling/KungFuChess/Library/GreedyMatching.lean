import Mathlib.Data.List.Nodup
import Mathlib.Data.List.Perm.Basic

/-!
# Greedy matching of a queue

`Greedy fits queue pairs left`: from the head of the queue, each element is paired with the first
later one that is still there and fits, and is left over if there is none. What is paired is
taken out of the queue, so that the relation speaks of the elements still free only.

The relation says everything about its result: the pairs and the rest are the queue
(`Greedy.perm`), the pairs fit and are in order (`Greedy.fits`, `Greedy.ordered`), the rest keeps
its order (`Greedy.sublist`), and no two of the rest fit (`Greedy.maximal`): an element that is
passed over fits nothing behind it, and what is left behind it is some of that.

`scan` is the usual program: it goes along the whole queue and keeps the keys of what is
paired in a list. On distinct keys it computes the relation (`greedy_scan`).
-/

namespace GreedyMatching

variable {α κ : Type}

/-- The matching of a queue, and what it leaves over. -/
inductive Greedy (fits : α → α → Prop) : List α → List (α × α) → List α → Prop where
  | nil : Greedy fits [] [] []
  /-- Nothing behind the head fits it. -/
  | leave (a : α) {queue left : List α} {pairs : List (α × α)} (hnone : ∀ b ∈ queue, ¬ fits a b)
      (hrest : Greedy fits queue pairs left) : Greedy fits (a :: queue) pairs (a :: left)
  /-- The head and the first element behind it that fits. -/
  | pair (a b : α) {before after left : List α} {pairs : List (α × α)}
      (hfirst : ∀ c ∈ before, ¬ fits a c) (hfits : fits a b)
      (hrest : Greedy fits (before ++ after) pairs left) :
      Greedy fits (a :: (before ++ b :: after)) ((a, b) :: pairs) left

/-- The elements of the pairs. -/
def members (pairs : List (α × α)) : List α := pairs.flatMap fun pair => [pair.1, pair.2]

namespace Greedy

variable {fits : α → α → Prop} {queue left : List α} {pairs : List (α × α)}

/-- **The pairs and the rest are the queue.** -/
theorem perm (h : Greedy fits queue pairs left) : (members pairs ++ left).Perm queue := by
  induction h with
  | nil => exact List.Perm.refl _
  | leave a hnone hrest ih => exact List.perm_middle.trans (ih.cons a)
  | pair a b hfirst hfits hrest ih =>
    refine List.Perm.cons a ?_
    exact (ih.cons b).trans List.perm_middle.symm

/-- Those who are paired fit. -/
theorem fits_of_mem (h : Greedy fits queue pairs left) : ∀ pair ∈ pairs, fits pair.1 pair.2 := by
  induction h with
  | nil => exact fun pair hpair => absurd hpair List.not_mem_nil
  | leave a hnone hrest ih => exact ih
  | pair a b hfirst hfits hrest ih =>
    intro pair hpair
    obtain rfl | hpair := List.mem_cons.mp hpair
    · exact hfits
    · exact ih pair hpair

/-- The rest keeps its order. -/
theorem sublist (h : Greedy fits queue pairs left) : left.Sublist queue := by
  induction h with
  | nil => exact List.Sublist.refl _
  | leave a hnone hrest ih => exact ih.cons_cons a
  | pair a b hfirst hfits hrest ih =>
    exact (ih.trans ((List.sublist_cons_self b _).append_left _)).cons a

/-- The first of a pair comes before the second. -/
theorem ordered (h : Greedy fits queue pairs left) :
    ∀ pair ∈ pairs, [pair.1, pair.2].Sublist queue := by
  induction h with
  | nil => exact fun pair hpair => absurd hpair List.not_mem_nil
  | leave a hnone hrest ih => exact fun pair hpair => (ih pair hpair).cons a
  | pair a b hfirst hfits hrest ih =>
    intro pair hpair
    obtain rfl | hpair := List.mem_cons.mp hpair
    · refine List.Sublist.cons_cons a (List.singleton_sublist.mpr ?_)
      exact List.mem_append_right _ List.mem_cons_self
    · exact ((ih pair hpair).trans ((List.sublist_cons_self b _).append_left _)).cons a

/-- **No two of the rest fit.** -/
theorem maximal (h : Greedy fits queue pairs left) : left.Pairwise fun a b => ¬ fits a b := by
  induction h with
  | nil => exact List.Pairwise.nil
  | leave a hnone hrest ih =>
    exact List.pairwise_cons.mpr ⟨fun b hb => hnone b (hrest.sublist.subset hb), ih⟩
  | pair a b hfirst hfits hrest ih => exact ih

/-- There is one result. -/
theorem unique {pairs' : List (α × α)} {left' : List α} (h : Greedy fits queue pairs left)
    (h' : Greedy fits queue pairs' left') : pairs = pairs' ∧ left = left' := by
  induction h generalizing pairs' left' with
  | nil =>
    cases h'
    exact ⟨rfl, rfl⟩
  | leave a hnone hrest ih =>
    cases h' with
    | leave _ _ hrest' =>
      obtain ⟨rfl, rfl⟩ := ih hrest'
      exact ⟨rfl, rfl⟩
    | pair _ b _ hfits => exact absurd hfits (hnone b (List.mem_append_right _ List.mem_cons_self))
  | @pair a b before after left pairs hfirst hfits hrest ih =>
    generalize hqueue : a :: (before ++ b :: after) = queue at h'
    cases h' with
    | nil => cases hqueue
    | leave a' hnone =>
      obtain ⟨rfl, rfl⟩ := List.cons.inj hqueue
      exact absurd hfits (hnone b (List.mem_append_right _ List.mem_cons_self))
    | @pair a' b' before' after' _ pairs' hfirst' hfits' hrest' =>
      obtain ⟨rfl, hsplit⟩ := List.cons.inj hqueue
      -- both have found the first that fits
      obtain ⟨rest, hbefore, hafter⟩ | ⟨rest, hbefore, hafter⟩ := List.append_eq_append_iff.mp hsplit
      · cases rest with
        | nil =>
          obtain ⟨rfl, rfl⟩ := List.cons.inj hafter
          rw [List.append_nil] at hbefore
          obtain ⟨rfl, rfl⟩ := ih (hbefore ▸ hrest')
          exact ⟨rfl, rfl⟩
        | cons c rest =>
          obtain ⟨rfl, -⟩ := List.cons.inj hafter
          exact absurd hfits (hfirst' b (hbefore ▸ List.mem_append_right _ List.mem_cons_self))
      · cases rest with
        | nil =>
          obtain ⟨rfl, rfl⟩ := List.cons.inj hafter
          rw [List.append_nil] at hbefore
          obtain ⟨rfl, rfl⟩ := ih (hbefore ▸ hrest')
          exact ⟨rfl, rfl⟩
        | cons c rest =>
          obtain ⟨rfl, -⟩ := List.cons.inj hafter
          exact absurd hfits' (hfirst b' (hbefore ▸ List.mem_append_right _ List.mem_cons_self))

end Greedy

/-! ### The program -/

section Scan

variable [DecidableEq κ] (key : α → κ) (fits : α → α → Prop) [DecidableRel fits]

/-- The pairs of the queue, with the keys of what has been paired before. -/
def scan : List α → List κ → List (α × α)
  | [], _ => []
  | a :: later, used =>
    if key a ∈ used then scan later used
    else
      match later.find? fun b => decide (key b ∉ used ∧ fits a b) with
      | none => scan later used
      | some b => (a, b) :: scan later (used ++ [key a, key b])

/-- What is not among the keys. -/
def free (queue : List α) (used : List κ) : List α := queue.filter fun a => decide (key a ∉ used)

variable {key fits}

theorem free_cons_of_mem {a : α} {queue : List α} {used : List κ} (h : key a ∈ used) :
    free key (a :: queue) used = free key queue used :=
  List.filter_cons_of_neg (by simpa using h)

theorem free_cons_of_not_mem {a : α} {queue : List α} {used : List κ} (h : key a ∉ used) :
    free key (a :: queue) used = a :: free key queue used :=
  List.filter_cons_of_pos (by simpa using h)

/-- Taking out one element more, of a queue with distinct keys. -/
theorem free_append_pair {a b : α} {before after : List α} {used : List κ}
    (hnodup : ((a :: (before ++ b :: after)).map key).Nodup) (hb : key b ∉ used) :
    free key (before ++ b :: after) used = free key before used ++ b :: free key after used ∧
      free key (before ++ b :: after) (used ++ [key a, key b]) =
        free key before used ++ free key after used := by
  rw [List.map_cons, List.nodup_cons, List.map_append, List.map_cons] at hnodup
  obtain ⟨ha, hnodup⟩ := hnodup
  have hab := List.nodup_append.mp hnodup
  have hother : ∀ l : List α, (∀ c ∈ l, key c ≠ key a ∧ key c ≠ key b) →
      free key l (used ++ [key a, key b]) = free key l used := fun l hl =>
    List.filter_congr fun c hc => by
      have hne := hl c hc
      simp [hne.1, hne.2]
  -- the keys are distinct, so that nothing but `b` is taken out
  have hne : ∀ c, key c ∈ before.map key ∨ key c ∈ after.map key → key c ≠ key a ∧ key c ≠ key b := by
    intro c hc
    refine ⟨fun heq => ha ?_, fun heq => ?_⟩
    · rw [← heq]
      exact List.mem_append.mpr (hc.imp_right (List.mem_cons_of_mem _))
    · obtain hc | hc := hc
      · exact hab.2.2 _ hc _ (heq ▸ List.mem_cons_self) rfl
      · exact (List.nodup_cons.mp hab.2.1).1 (heq ▸ hc)
  constructor
  · unfold free
    rw [List.filter_append, List.filter_cons_of_pos (by simpa using hb)]
  · have hbefore := hother before fun c hc => hne c (Or.inl (List.mem_map_of_mem hc))
    have hafter := hother after fun c hc => hne c (Or.inr (List.mem_map_of_mem hc))
    unfold free at *
    rw [List.filter_append, List.filter_cons_of_neg (by simp), hbefore, hafter]

/-- **On distinct keys the program matches greedily** what is free; what it leaves is what is
free afterwards. -/
theorem greedy_scan {queue : List α} : ∀ {used : List κ}, (queue.map key).Nodup →
    Greedy fits (free key queue used) (scan key fits queue used)
      (free key queue (used ++ (members (scan key fits queue used)).map key)) := by
  induction queue with
  | nil => exact fun _ => Greedy.nil
  | cons a later ih =>
    intro used hnodup
    -- the scan goes over the queue: an item taken already, one left alone, or one paired
    have hnodup' := (List.nodup_cons.mp (by rwa [List.map_cons] at hnodup)).2
    unfold scan
    split
    · next hused =>
      rw [free_cons_of_mem hused, free_cons_of_mem (List.mem_append_left _ hused)]
      exact ih hnodup'
    next hfree =>
    rw [free_cons_of_not_mem hfree]
    split
    · next hnone =>
      -- `a` is left; it is not paired later, as its key is in the queue once
      have hleft : key a ∉ used ++ (members (scan key fits later used)).map key := by
        intro hmem
        obtain hmem | hmem := List.mem_append.mp hmem
        · exact hfree hmem
        · obtain ⟨c, hc, hkey⟩ := List.mem_map.mp hmem
          have hlater := (@ih used hnodup').perm.subset (List.mem_append_left _ hc)
          rw [List.map_cons, List.nodup_cons] at hnodup
          exact hnodup.1 (hkey ▸ List.mem_map_of_mem (List.mem_filter.mp hlater).1)
      rw [free_cons_of_not_mem hleft]
      refine Greedy.leave a (fun b hb hfits => ?_) (ih hnodup')
      obtain ⟨hmem, hb⟩ := List.mem_filter.mp hb
      have hno := List.find?_eq_none.mp hnone b hmem
      exact hno (decide_eq_true ⟨of_decide_eq_true hb, hfits⟩)
    · next b hfound =>
      -- the first that fits is the partner, and the two are used from here on
      obtain ⟨hb, before, after, rfl, hbefore⟩ := List.find?_eq_some_iff_append.mp hfound
      obtain ⟨hbfree, hfits⟩ := of_decide_eq_true hb
      obtain ⟨hsplit, hrest⟩ := free_append_pair hnodup hbfree
      have hih := @ih (used ++ [key a, key b]) hnodup'
      rw [hrest, List.append_assoc] at hih
      have hused : key a ∈ used ++ ([key a, key b] ++
          (members (scan key fits (before ++ b :: after) (used ++ [key a, key b]))).map key) := by
        simp
      change Greedy fits _ _ (free key (a :: (before ++ b :: after)) (used ++ ([key a, key b] ++
        (members (scan key fits (before ++ b :: after) (used ++ [key a, key b]))).map key)))
      rw [hsplit, free_cons_of_mem hused]
      refine Greedy.pair a b (fun c hc hfit => ?_) hfits hih
      obtain ⟨hmem, hc⟩ := List.mem_filter.mp hc
      have hno := hbefore c hmem
      simp only [Bool.not_eq_eq_eq_not, Bool.not_true, decide_eq_false_iff_not] at hno
      exact hno ⟨of_decide_eq_true hc, hfit⟩

end Scan

end GreedyMatching
