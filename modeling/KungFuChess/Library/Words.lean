import Mathlib.Data.List.Basic

/-!
# Words of a text

A text is a list of characters, some of which separate. Its words are the maximal runs of the
others. Words that are joined by single separators are found again (`words_join`); so joining
the words of a text changes it in its separators only.
-/

namespace Words

variable {α : Type} {sep : α → Bool}

/-- The maximal runs between separators. -/
def words (sep : α → Bool) (text : List α) : List (List α) :=
  (text.splitOnP sep).filter (· ≠ [])

/-- Not empty, and without separators. -/
structure IsWord (sep : α → Bool) (word : List α) : Prop where
  nonempty : word ≠ []
  solid : ∀ c ∈ word, sep c = false

/-- A field has no separator in it. -/
theorem solid_of_mem_splitOnP {text word : List α} (h : word ∈ text.splitOnP sep) :
    ∀ c ∈ word, sep c = false := by
  induction text generalizing word with
  | nil =>
    rw [List.splitOnP_nil, List.mem_singleton] at h
    subst h
    exact fun c hc => absurd hc List.not_mem_nil
  | cons c text ih =>
    rw [List.splitOnP_cons_eq_if_modifyHead] at h
    split at h
    · obtain rfl | h := List.mem_cons.mp h
      · exact fun c hc => absurd hc List.not_mem_nil
      · exact ih h
    · next hc =>
      -- the first word of the rest is one character longer
      obtain ⟨first, rest, hsplit⟩ :=
        List.exists_cons_of_ne_nil (List.splitOnP_ne_nil sep text)
      rw [hsplit, List.modifyHead_cons] at h
      rw [hsplit] at ih
      obtain rfl | h := List.mem_cons.mp h
      · intro d hd
        obtain rfl | hd := List.mem_cons.mp hd
        · exact Bool.eq_false_iff.mpr hc
        · exact ih List.mem_cons_self d hd
      · exact ih (List.mem_cons_of_mem first h)

/-- The first field ends at the first separator, or with the text. -/
theorem splitOnP_eq_cons_iff {text first : List α} {rest : List (List α)} :
    text.splitOnP sep = first :: rest ↔ (∀ c ∈ first, sep c = false) ∧
      ((text = first ∧ rest = []) ∨
        ∃ c tail, sep c = true ∧ text = first ++ c :: tail ∧ rest = tail.splitOnP sep) := by
  constructor
  · intro h
    refine ⟨solid_of_mem_splitOnP (h ▸ List.mem_cons_self), ?_⟩
    induction text generalizing first with
    | nil =>
      rw [List.splitOnP_nil] at h
      obtain ⟨rfl, rfl⟩ := List.cons.inj h
      exact .inl ⟨rfl, rfl⟩
    | cons c text ih =>
      rw [List.splitOnP_cons_eq_if_modifyHead] at h
      split at h
      · next hc =>
        -- the text begins with a separator
        obtain ⟨rfl, rfl⟩ := List.cons.inj h
        exact .inr ⟨c, text, hc, rfl, rfl⟩
      · obtain ⟨head, fields, hsplit⟩ := List.exists_cons_of_ne_nil (List.splitOnP_ne_nil sep text)
        rw [hsplit, List.modifyHead_cons] at h
        obtain ⟨rfl, rfl⟩ := List.cons.inj h
        obtain ⟨rfl, rfl⟩ | ⟨d, tail, hd, rfl, rfl⟩ := ih hsplit
        · exact .inl ⟨rfl, rfl⟩
        · exact .inr ⟨d, tail, hd, rfl, rfl⟩
  · rintro ⟨hsolid, ⟨rfl, rfl⟩ | ⟨c, tail, hc, rfl, rfl⟩⟩
    · exact List.splitOnP_eq_singleton hsolid
    · exact List.splitOnP_append_cons_of_forall_mem hsolid c hc tail

/-- The first field, where the separator is one character. -/
theorem splitOn_eq_cons_iff [BEq α] [LawfulBEq α] {space : α} {text first : List α}
    {rest : List (List α)} :
    text.splitOn space = first :: rest ↔ space ∉ first ∧
      ((text = first ∧ rest = []) ∨
        ∃ tail, text = first ++ space :: tail ∧ rest = tail.splitOn space) := by
  -- a word without the separator, in the two spellings
  have hsolid : (∀ c ∈ first, (c == space) = false) ↔ space ∉ first := by
    constructor
    · intro h hmem
      exact absurd (h space hmem) (by simp)
    · intro h c hc
      exact beq_eq_false_iff_ne.mpr (ne_of_mem_of_not_mem hc h)
  unfold List.splitOn
  rw [splitOnP_eq_cons_iff, hsolid]
  refine and_congr_right fun _ => or_congr_right ?_
  constructor
  · rintro ⟨c, tail, hc, htext, hrest⟩
    obtain rfl := eq_of_beq hc
    exact ⟨tail, htext, hrest⟩
  · rintro ⟨tail, htext, hrest⟩
    exact ⟨space, tail, beq_self_eq_true space, htext, hrest⟩

/-- A word is made of characters of the text. -/
theorem mem_of_mem_splitOnP {text word : List α} (h : word ∈ text.splitOnP sep) {c : α}
    (hc : c ∈ word) : c ∈ text := by
  -- by induction on the text; the first field grows by one character, or a new one begins
  induction text generalizing word with
  | nil =>
    rw [List.splitOnP_nil, List.mem_singleton] at h
    exact absurd (h ▸ hc) List.not_mem_nil
  | cons d text ih =>
    rw [List.splitOnP_cons_eq_if_modifyHead] at h
    split at h
    · obtain rfl | h := List.mem_cons.mp h
      · exact absurd hc List.not_mem_nil
      · exact List.mem_cons_of_mem d (ih h hc)
    · obtain ⟨first, rest, hsplit⟩ := List.exists_cons_of_ne_nil (List.splitOnP_ne_nil sep text)
      rw [hsplit, List.modifyHead_cons] at h
      rw [hsplit] at ih
      obtain rfl | h := List.mem_cons.mp h
      · obtain rfl | hc := List.mem_cons.mp hc
        · exact List.mem_cons_self
        · exact List.mem_cons_of_mem d (ih List.mem_cons_self hc)
      · exact List.mem_cons_of_mem d (ih (List.mem_cons_of_mem first h) hc)

theorem isWord_of_mem_words {text word : List α} (h : word ∈ words sep text) : IsWord sep word := by
  obtain ⟨hmem, hnonempty⟩ := List.mem_filter.mp h
  exact ⟨of_decide_eq_true hnonempty, solid_of_mem_splitOnP hmem⟩

/-- A text without words is made of separators. -/
theorem sep_of_words_eq_nil {text : List α} (h : words sep text = []) : ∀ c ∈ text, sep c = true := by
  induction text with
  | nil => exact fun c hc => absurd hc List.not_mem_nil
  | cons c text ih =>
    unfold words at h ih
    rw [List.splitOnP_cons_eq_if_modifyHead] at h
    -- a separator at the head is dropped with the empty word before it
    split at h
    · next hc =>
      rw [List.filter_cons_of_neg (by simp)] at h
      intro d hd
      obtain rfl | hd := List.mem_cons.mp hd
      · exact hc
      · exact ih h d hd
    · -- the first word begins with the character
      obtain ⟨first, rest, hsplit⟩ := List.exists_cons_of_ne_nil (List.splitOnP_ne_nil sep text)
      rw [hsplit, List.modifyHead_cons, List.filter_cons_of_pos (by simp)] at h
      exact absurd h (List.cons_ne_nil _ _)

/-- **Joined words are found again.** -/
theorem words_join {space : α} (hspace : sep space = true) {ws : List (List α)}
    (hws : ∀ word ∈ ws, IsWord sep word) : words sep ([space].intercalate ws) = ws := by
  unfold words
  induction ws with
  | nil => rfl
  | cons word ws ih =>
    have hword := hws word List.mem_cons_self
    have hkept : decide (word ≠ []) = true := decide_eq_true hword.nonempty
    cases ws with
    | nil =>
      rw [List.intercalate_singleton, List.splitOnP_eq_singleton hword.solid,
        List.filter_cons_of_pos (p := fun w : List α => decide (w ≠ [])) hkept, List.filter_nil]
    -- the separator ends the first word
    | cons word' ws =>
      rw [List.intercalate_cons_cons, List.append_assoc, List.singleton_append,
        List.splitOnP_append_cons_of_forall_mem hword.solid space hspace,
        List.filter_cons_of_pos (p := fun w : List α => decide (w ≠ [])) hkept,
        ih fun w hw => hws w (List.mem_cons_of_mem word hw)]

end Words
