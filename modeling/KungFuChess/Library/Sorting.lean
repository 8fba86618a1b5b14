import Mathlib.Data.List.Sort
import Mathlib.Data.Prod.Lex

/-!
# Stable sorting by a key

`sortBy key l` sorts `l` by increasing `key`, and keeps the order of `l` among
elements of equal key: insertion sort goes through the list from its end and puts
every element before the elements that are not smaller.

Four facts are needed by users of a sorted batch: a sort is determined by the
elements alone once the key separates them (`sortBy_eq_of_perm`), it commutes with
a map that respects the key order (`sortBy_map`), two lists related element by
element stay so if the keys compare alike (`sortBy_forall₂`), and sorting a batch
whose keys lie below those of a second batch comes first in the joint sort
(`sortBy_append_of_lt`).
-/

namespace Sorting

variable {α β κ : Type} [LinearOrder κ]

/-- Sort by increasing key, stably. -/
def sortBy (key : α → κ) (l : List α) : List α :=
  l.insertionSort (fun a b => key a ≤ key b)

/-- The keys of two elements can be compared. -/
instance instTotalKey (key : α → κ) : Std.Total (fun a b : α => key a ≤ key b) :=
  ⟨fun a b => le_total (key a) (key b)⟩

/-- And the comparison is transitive. -/
instance instTransKey (key : α → κ) : IsTrans α (fun a b : α => key a ≤ key b) :=
  ⟨fun _ _ _ => le_trans⟩

theorem sortBy_perm (key : α → κ) (l : List α) : (sortBy key l).Perm l :=
  List.perm_insertionSort _ l

@[simp] theorem mem_sortBy {key : α → κ} {l : List α} {a : α} : a ∈ sortBy key l ↔ a ∈ l :=
  (sortBy_perm key l).mem_iff

theorem sortBy_pairwise (key : α → κ) (l : List α) :
    (sortBy key l).Pairwise (fun a b => key a ≤ key b) :=
  List.pairwise_insertionSort _ l

/-- A key that separates the elements of a list determines its sort. -/
theorem sortBy_eq_of_perm {key : α → κ} {l l' : List α} (hperm : l.Perm l')
    (hkey : ∀ a ∈ l, ∀ b ∈ l, key a = key b → a = b) : sortBy key l = sortBy key l' := by
  refine @List.Perm.eq_of_pairwise α (fun a b => key a ≤ key b) _ _ ?_
    (sortBy_pairwise key l) (sortBy_pairwise key l')
    ((sortBy_perm key l).trans (hperm.trans (sortBy_perm key l').symm))
  intro a b ha hb hab hba
  have hb' : b ∈ l := hperm.mem_iff.mpr (mem_sortBy.mp hb)
  exact hkey a (mem_sortBy.mp ha) b hb' (le_antisymm hab hba)

/-- Sorting commutes with a map that respects the order of the keys. -/
theorem sortBy_map {key : α → κ} {key' : β → κ} (f : α → β) (l : List α)
    (hf : ∀ a ∈ l, ∀ b ∈ l, key a ≤ key b ↔ key' (f a) ≤ key' (f b)) :
    sortBy key' (l.map f) = (sortBy key l).map f :=
  (List.map_insertionSort _ _ f l hf).symm

/-- Related lists are sorted alike by keys that compare related elements alike. -/
theorem sortBy_forall₂ {R : α → β → Prop} {key : α → κ} {key' : β → κ}
    (hkey : ∀ {a a' b b'}, R a a' → R b b' → (key a ≤ key b ↔ key' a' ≤ key' b'))
    {l : List α} {l' : List β} (h : List.Forall₂ R l l') :
    List.Forall₂ R (sortBy key l) (sortBy key' l') := by
  -- both lists are projections of the list of pairs
  let pairs := l.zip l'
  have hpairs : ∀ x ∈ pairs, R x.1 x.2 := fun x hx => List.forall₂_zip h hx
  have hfst : pairs.map Prod.fst = l := List.map_fst_zip h.length_eq.le
  have hsnd : pairs.map Prod.snd = l' := List.map_snd_zip h.length_eq.ge
  have hleft : sortBy key (pairs.map Prod.fst) = (sortBy (fun x => key x.1) pairs).map Prod.fst :=
    sortBy_map Prod.fst pairs fun _ _ _ _ => Iff.rfl
  have hright : sortBy key' (pairs.map Prod.snd) = (sortBy (fun x => key x.1) pairs).map Prod.snd :=
    sortBy_map Prod.snd pairs fun x hx y hy => hkey (hpairs x hx) (hpairs y hy)
  rw [← hfst, ← hsnd, hleft, hright, List.forall₂_map_left_iff, List.forall₂_map_right_iff,
    List.forall₂_same]
  exact fun x hx => hpairs x (mem_sortBy.mp hx)

/-- A batch whose keys all lie below those of a second one is sorted in front of it. -/
theorem sortBy_append_of_lt {key : α → κ} {l l' : List α}
    (hlt : ∀ a ∈ l, ∀ b ∈ l', key a < key b)
    (hl : ∀ a ∈ l, ∀ b ∈ l, key a = key b → a = b)
    (hl' : ∀ a ∈ l', ∀ b ∈ l', key a = key b → a = b) :
    sortBy key (l ++ l') = sortBy key l ++ sortBy key l' := by
  -- both sides are sorted and hold the same, so they can differ in equal keys only
  refine @List.Perm.eq_of_pairwise α (fun a b => key a ≤ key b) _ _ ?_
    (sortBy_pairwise key _) ?_ ?_
  · intro a b ha hb hab hba
    have heq : key a = key b := le_antisymm hab hba
    rw [mem_sortBy, List.mem_append] at ha
    rw [List.mem_append, mem_sortBy, mem_sortBy] at hb
    rcases ha with ha | ha <;> rcases hb with hb | hb
    · exact hl a ha b hb heq
    · exact absurd heq (hlt a ha b hb).ne
    · exact absurd heq.symm (hlt b hb a ha).ne
    · exact hl' a ha b hb heq
  · rw [List.pairwise_append]
    refine ⟨sortBy_pairwise key l, sortBy_pairwise key l', fun a ha b hb => ?_⟩
    exact (hlt a (mem_sortBy.mp ha) b (mem_sortBy.mp hb)).le
  · exact (sortBy_perm key _).trans
      ((sortBy_perm key l).append (sortBy_perm key l')).symm

end Sorting
