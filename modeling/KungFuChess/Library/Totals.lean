import Mathlib.Algebra.BigOperators.Group.List.Basic
import Mathlib.Algebra.Group.Basic
import Mathlib.Tactic.Abel
import KungFuChess.Library.Dict

/-!
# Totals over a dictionary

The sum of what the values of a dictionary count for. A new value adds what it counts for
(`total_set_of_get?_eq_none`), and one that is written over also takes away what the old one did
(`total_set_of_get?_eq_some`), whatever else the dictionary holds.
-/

namespace Dict

variable {K V A : Type} [AddCommGroup A]

/-- What the values count for together. -/
def total (f : V → A) (d : Dict K V) : A := (d.values.map f).sum

variable [DecidableEq K] {f : V → A} {d : Dict K V} {k : K} {v : V}

/-- A new key adds what its value counts for. -/
theorem total_set_of_get?_eq_none (h : d.get? k = none) :
    (d.set k v).total f = d.total f + f v := by
  unfold total
  rw [values_set_of_get?_eq_none v h, List.map_append, List.sum_append, List.map_singleton,
    List.sum_singleton]

/-- A key that is there exchanges one value for another. -/
theorem total_set_of_get?_eq_some {old : V} (h : d.get? k = some old) :
    (d.set k v).total f = d.total f - f old + f v := by
  obtain ⟨pre, post, hsplit⟩ := List.append_of_mem (mem_entries_iff.mpr h)
  have hkey : k ∈ d.keys := mem_keys_iff.mpr ⟨old, h⟩
  -- the key stands at this place only
  have hnodup := d.nodup
  rw [hsplit, List.map_append, List.map_cons, List.nodup_append, List.nodup_cons] at hnodup
  have hsame : ∀ entries : List (K × V), k ∉ entries.map Prod.fst →
      entries.map (fun p => if p.1 = k then (k, v) else p) = entries := by
    intro entries hnot
    have hother : ∀ p ∈ entries, (if p.1 = k then (k, v) else p) = id p := fun p hp =>
      if_neg fun hk : p.1 = k => hnot (hk ▸ List.mem_map_of_mem hp)
    rw [List.map_congr_left hother, List.map_id]
  have hset : (d.set k v).entries = pre ++ (k, v) :: post := by
    change (if k ∈ d.keys then _ else _) = _
    rw [if_pos hkey, hsplit, List.map_append, List.map_cons, if_pos rfl]
    rw [hsame pre fun hk => hnodup.2.2 k hk k List.mem_cons_self rfl, hsame post hnodup.2.1.1]
  unfold total values
  rw [hset, hsplit]
  simp only [List.map_append, List.map_cons, List.sum_append, List.sum_cons]
  abel

/-- **A change of one value.** -/
theorem total_modify (g : V → V) :
    (d.modify k g).total f = d.total f + (d.get? k).elim 0 fun v => f (g v) - f v := by
  cases h : d.get? k with
  | none =>
    rw [modify, h, Option.elim_none, add_zero]
  | some old =>
    rw [modify, h, total_set_of_get?_eq_some h, Option.elim_some]
    abel

end Dict
