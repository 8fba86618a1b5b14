import Mathlib.Data.List.Nodup
import Mathlib.Data.List.Basic

/-!
# Insertion-ordered dictionaries

A dictionary in the sense of a scripting language: a finite map that remembers
the order in which its keys were first inserted. Writing to a present key keeps
the key's place, writing to a fresh key appends it, and deleting a key closes the
gap. Iteration runs over `entries` in that order, so a loop over a dictionary is a
loop over a list.

Mathlib's `AList` has the same look-ups but another order (`AList.insert` moves a
rewritten key to the front), which is why the structure is set up here. A
dictionary carries the proof that its keys are pairwise distinct; every operation
re-establishes it, so no later proof has to.

The look-up laws `get?_set` and `get?_pop` are the interface: together with
`mem_entries_iff` they are what proofs about loops over a dictionary use.
-/

/-- A finite map that remembers the insertion order of its keys. -/
structure Dict (K V : Type) where
  /-- The key/value pairs, oldest key first. -/
  entries : List (K × V)
  /-- No key occurs twice. -/
  nodup : (entries.map Prod.fst).Nodup

namespace Dict

variable {K V : Type}

/-- The dictionary without keys. -/
def empty : Dict K V := ⟨[], List.nodup_nil⟩

/-- The keys in insertion order. -/
def keys (d : Dict K V) : List K := d.entries.map Prod.fst

/-- The values in the insertion order of their keys. -/
def values (d : Dict K V) : List V := d.entries.map Prod.snd

section Lookup

variable [DecidableEq K]

/-- The value stored under `k`, if any. -/
def get? (d : Dict K V) (k : K) : Option V :=
  (d.entries.find? (fun p => p.1 = k)).map Prod.snd

/-- Whether `k` is a key. -/
def contains (d : Dict K V) (k : K) : Bool := (d.get? k).isSome

/-- Store `v` under `k`: in place when `k` is present, at the end when it is not. -/
def set (d : Dict K V) (k : K) (v : V) : Dict K V where
  entries :=
    if k ∈ d.keys then d.entries.map (fun p => if p.1 = k then (k, v) else p)
    else d.entries ++ [(k, v)]
  nodup := by
    split
    · have hkeys : (d.entries.map (fun p => if p.1 = k then (k, v) else p)).map Prod.fst
          = d.entries.map Prod.fst := by
        rw [List.map_map]
        refine List.map_congr_left fun p _ => ?_
        by_cases hp : p.1 = k <;> simp [hp]
      rw [hkeys]
      exact d.nodup
    · next hk =>
      rw [List.map_append, List.map_cons, List.map_nil]
      exact List.Nodup.append d.nodup (List.nodup_singleton k)
        (List.disjoint_singleton.mpr hk)

/-- Delete the key `k`; nothing happens when it is absent. -/
def pop (d : Dict K V) (k : K) : Dict K V where
  entries := d.entries.filter (fun p => p.1 ≠ k)
  nodup := d.nodup.sublist (List.filter_sublist.map Prod.fst)

/-- Apply `f` to the value under `k`, as code does that mutates an object it has
looked up. -/
def modify (d : Dict K V) (k : K) (f : V → V) : Dict K V :=
  match d.get? k with
  | some v => d.set k (f v)
  | none => d

/-! ### Look-ups and entries -/

/-- **Look-ups read the entries.** As no key occurs twice, a pair is an entry
exactly when its value is what the key looks up to. -/
theorem mem_entries_iff {d : Dict K V} {k : K} {v : V} :
    (k, v) ∈ d.entries ↔ d.get? k = some v := by
  obtain ⟨l, hl⟩ := d
  change (k, v) ∈ l ↔ (l.find? (fun p => p.1 = k)).map Prod.snd = some v
  -- by induction on the entries; the head is the key's only pair, or none of its pairs
  induction l with
  | nil => simp
  | cons p l ih =>
    obtain ⟨k', v'⟩ := p
    rw [List.map_cons, List.nodup_cons] at hl
    by_cases hk : k' = k
    · subst hk
      have hnot : (k', v) ∉ l := fun h => hl.1 (List.mem_map.mpr ⟨(k', v), h, rfl⟩)
      simp [hnot, eq_comm]
    · rw [List.mem_cons, List.find?_cons_of_neg (by simpa using hk), ← ih hl.2]
      simp [Ne.symm hk]

/-- The keys are those that look up to something. -/
theorem mem_keys_iff {d : Dict K V} {k : K} : k ∈ d.keys ↔ ∃ v, d.get? k = some v := by
  unfold keys
  rw [List.mem_map]
  constructor
  · rintro ⟨⟨k', v⟩, hmem, rfl⟩
    exact ⟨v, mem_entries_iff.mp hmem⟩
  · rintro ⟨v, hv⟩
    exact ⟨(k, v), mem_entries_iff.mpr hv, rfl⟩

omit [DecidableEq K] in
/-- A loop over the keys meets each of them once. -/
theorem not_mem_of_keys_eq {d : Dict K V} {k : K} {pre post : List K}
    (h : d.keys = pre ++ k :: post) : k ∉ pre := by
  have hnodup : (pre ++ k :: post).Nodup := h ▸ d.nodup
  exact fun hk => (List.nodup_append.mp hnodup).2.2 _ hk _ List.mem_cons_self rfl

theorem get?_eq_none_iff {d : Dict K V} {k : K} : d.get? k = none ↔ k ∉ d.keys := by
  rw [mem_keys_iff]
  cases d.get? k <;> simp

@[simp] theorem contains_iff {d : Dict K V} {k : K} :
    d.contains k = true ↔ ∃ v, d.get? k = some v := by
  rw [contains, Option.isSome_iff_exists]

theorem get?_ne_none_of_contains {d : Dict K V} {k : K} (h : d.contains k = true) :
    d.get? k ≠ none := by
  obtain ⟨v, hv⟩ := contains_iff.mp h
  rw [hv]
  exact Option.some_ne_none v

/-- A fresh key comes last. -/
theorem entries_set_of_not_mem {d : Dict K V} {k : K} (v : V) (h : k ∉ d.keys) :
    (d.set k v).entries = d.entries ++ [(k, v)] := if_neg h

/-- A new key brings a new value at the end. -/
theorem values_set_of_get?_eq_none {d : Dict K V} {k : K} (v : V) (h : d.get? k = none) :
    (d.set k v).values = d.values ++ [v] := by
  unfold values
  rw [entries_set_of_not_mem v (get?_eq_none_iff.mp h), List.map_append]
  rfl

/-- Two dictionaries with the same entries up to order look up the same. -/
theorem get?_eq_of_mem_iff {d d' : Dict K V} {k : K}
    (h : ∀ v, (k, v) ∈ d.entries ↔ (k, v) ∈ d'.entries) : d.get? k = d'.get? k := by
  refine Option.ext fun v => ?_
  rw [← mem_entries_iff, ← mem_entries_iff]
  exact h v

@[simp] theorem get?_empty (k : K) : (empty : Dict K V).get? k = none := rfl

/-! ### The look-up laws -/

/-- The key that is written looks up to the value written, -/
@[simp] theorem get?_set_self (d : Dict K V) (k : K) (v : V) : (d.set k v).get? k = some v := by
  rw [← mem_entries_iff]
  unfold set
  dsimp only
  split
  · next hk =>
    obtain ⟨p, hp, rfl⟩ := List.mem_map.mp hk
    exact List.mem_map.mpr ⟨p, hp, by simp⟩
  · simp

/-- and the others look up to what they did. -/
theorem get?_set_of_ne (d : Dict K V) {k k' : K} (v : V) (h : k' ≠ k) :
    (d.set k v).get? k' = d.get? k' := by
  refine get?_eq_of_mem_iff fun v' => ?_
  unfold set
  dsimp only
  split
  · -- a pair of another key is mapped to itself
    rw [List.mem_map]
    constructor
    · rintro ⟨p, hp, he⟩
      split at he
      · exact absurd (congrArg Prod.fst he).symm h
      · exact he ▸ hp
    · exact fun hp => ⟨(k', v'), hp, by simp [h]⟩
  · simp [h]

/-- **A write, read back.** -/
theorem get?_set (d : Dict K V) (k k' : K) (v : V) :
    (d.set k v).get? k' = if k' = k then some v else d.get? k' := by
  split
  · next h => rw [h, get?_set_self]
  · next h => exact get?_set_of_ne d v h

/-- The key that is deleted looks up to nothing, -/
@[simp] theorem get?_pop_self (d : Dict K V) (k : K) : (d.pop k).get? k = none := by
  rw [get?_eq_none_iff, mem_keys_iff]
  rintro ⟨v, hv⟩
  have hmem := mem_entries_iff.mpr hv
  simp [pop] at hmem

theorem get?_pop_of_ne (d : Dict K V) {k k' : K} (h : k' ≠ k) :
    (d.pop k).get? k' = d.get? k' := by
  refine get?_eq_of_mem_iff fun v => ?_
  simp [pop, h]

/-- **A deletion, read back.** -/
theorem get?_pop (d : Dict K V) (k k' : K) :
    (d.pop k).get? k' = if k' = k then none else d.get? k' := by
  split
  · next h => rw [h, get?_pop_self]
  · next h => exact get?_pop_of_ne d h

/-- Modifying a key leaves the others. -/
theorem get?_modify_of_ne (d : Dict K V) {k k' : K} (f : V → V) (h : k' ≠ k) :
    (d.modify k f).get? k' = d.get? k' := by
  unfold modify
  split
  · exact get?_set_of_ne d _ h
  · rfl

/-- And applies the function to its own value. -/
@[simp] theorem get?_modify_self (d : Dict K V) (k : K) (f : V → V) :
    (d.modify k f).get? k = (d.get? k).map f := by
  unfold modify
  split
  · next v hv => rw [get?_set_self, hv, Option.map_some]
  · next hv => rw [hv, Option.map_none]

/-- **A modification, read back.** -/
theorem get?_modify (d : Dict K V) (k k' : K) (f : V → V) :
    (d.modify k f).get? k' = if k' = k then (d.get? k).map f else d.get? k' := by
  split
  · next h => rw [h, get?_modify_self]
  · next h => exact get?_modify_of_ne d f h

/-! ### Building from pairs -/

/-- The dictionary of a list of pairs: of two pairs with the same key the last one counts. -/
def ofList (pairs : List (K × V)) : Dict K V :=
  pairs.foldl (fun d pair => d.set pair.1 pair.2) empty

/-- A dictionary is built from its entries. -/
theorem ofList_entries (d : Dict K V) : ofList d.entries = d := by
  have hext : ∀ {d d' : Dict K V}, d.entries = d'.entries → d = d' := by
    rintro ⟨_, _⟩ ⟨_, _⟩ rfl
    rfl
  -- the keys still to come are new
  have hfold : ∀ (pairs : List (K × V)) (done : Dict K V),
      ((done.entries ++ pairs).map Prod.fst).Nodup →
      (pairs.foldl (fun d pair => d.set pair.1 pair.2) done).entries = done.entries ++ pairs := by
    intro pairs
    induction pairs with
    | nil => exact fun done _ => (List.append_nil _).symm
    | cons pair pairs ih =>
      intro done hnodup
      have hnew : pair.1 ∉ done.keys := by
        rw [List.map_append, List.map_cons] at hnodup
        exact fun hmem => (List.nodup_append.mp hnodup).2.2 _ hmem _ List.mem_cons_self rfl
      have hset : (done.set pair.1 pair.2).entries = done.entries ++ [pair] :=
        entries_set_of_not_mem pair.2 hnew
      rw [List.foldl_cons, ih, hset, List.append_assoc]
      · rfl
      · rw [hset, List.append_assoc]
        exact hnodup
  exact hext (hfold d.entries empty d.nodup)

/-! ### Renaming -/

/-- Rename the keys along an injection and the values along with them, keeping the order. -/
def rename {K' V' : Type} (f : K → K') (hf : Function.Injective f) (g : V → V') (d : Dict K V) :
    Dict K' V' where
  entries := d.entries.map (Prod.map f g)
  nodup := by
    have hkeys : (d.entries.map (Prod.map f g)).map Prod.fst = (d.entries.map Prod.fst).map f := by
      rw [List.map_map, List.map_map]
      rfl
    rw [hkeys]
    exact d.nodup.map hf

/-- A renamed key looks up to the mapped value. -/
theorem get?_rename {K' V' : Type} [DecidableEq K'] (f : K → K') (hf : Function.Injective f)
    (g : V → V') (d : Dict K V) (k : K) : (d.rename f hf g).get? (f k) = (d.get? k).map g := by
  refine Option.ext fun v => ?_
  rw [← mem_entries_iff, Option.map_eq_some_iff]
  change (f k, v) ∈ d.entries.map (Prod.map f g) ↔ _
  rw [List.mem_map]
  constructor
  · rintro ⟨⟨k', v'⟩, hentry, heq⟩
    obtain ⟨hk, hv⟩ := Prod.mk.inj heq
    obtain rfl := hf hk
    exact ⟨v', mem_entries_iff.mp hentry, hv⟩
  · rintro ⟨v', hv', rfl⟩
    exact ⟨(k, v'), mem_entries_iff.mpr hv', rfl⟩

end Lookup

end Dict
