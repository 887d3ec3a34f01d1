/-!
# Ascending association lists

Finite maps as lists of entries in ascending order of their keys, one entry for each key.
Insertion puts a new key in its place and keeps an equal one, replacing its value.
-/

namespace Tariff.Assoc

variable {κ α : Type} [Ord κ]

/-- The value of a key. -/
def find? (k : κ) : List (κ × α) → Option α
  | [] => none
  | (k', a) :: entries => if compare k k' = .eq then some a else find? k entries

/-- The entries with `k` mapped to `a`. -/
def insert (k : κ) (a : α) : List (κ × α) → List (κ × α)
  | [] => [(k, a)]
  | (k', a') :: entries =>
    match compare k k' with
    | .lt => (k, a) :: (k', a') :: entries
    | .eq => (k', a) :: entries
    | .gt => (k', a') :: insert k a entries

/-- The entries without the key `k`. -/
def erase (k : κ) : List (κ × α) → List (κ × α)
  | [] => []
  | (k', a) :: entries => if compare k k' = .eq then entries else (k', a) :: erase k entries

/-- The keys ascend, so that none occurs twice. -/
def Ascending (entries : List (κ × α)) : Prop :=
  entries.Pairwise fun e f => compare e.1 f.1 = .lt

/-- Keys that compare as equal have the same value. -/
theorem find?_congr [Std.TransOrd κ] {k k' : κ} (h : compare k k' = .eq)
    (entries : List (κ × α)) :
  find? k entries = find? k' entries
  := by
  induction entries with
  | nil => rfl
  | cons e entries ih => simp only [find?, Std.TransCmp.congr_left h, ih]

/-- An inserted key is found with the inserted value. -/
theorem find?_insert_self [Std.ReflOrd κ] (k : κ) (a : α) (entries : List (κ × α)) :
  find? k (insert k a entries) = some a
  := by
  induction entries with
  | nil => simp [insert, find?, Std.ReflOrd.compare_self]
  | cons e entries ih =>
    obtain ⟨k', a'⟩ := e
    simp only [insert]
    split
    · simp [find?, Std.ReflOrd.compare_self]
    · rename_i h
      simp [find?, h]
    · rename_i h
      simp [find?, h, ih]

/-- The value of another key stays when a key is inserted. -/
theorem find?_insert_of_ne [Std.TransOrd κ] {k k' : κ} (h : compare k' k ≠ .eq) (a : α)
    (entries : List (κ × α)) :
  find? k' (insert k a entries) = find? k' entries
  := by
  induction entries with
  | nil => simp [insert, find?, h]
  | cons e entries ih =>
    obtain ⟨l, b⟩ := e
    simp only [insert]
    split
    · simp [find?, h]
    · rename_i hl
      rw [Std.TransCmp.congr_right hl] at h
      simp [find?, h]
    · simp [find?, ih]

/-- An entry after an insertion has the inserted key and value, or was there up to its value. -/
theorem eq_or_mem_of_mem_insert {k : κ} {a : α} {entries : List (κ × α)} {e : κ × α}
    (he : e ∈ insert k a entries) :
  (e.1 = k ∨ ∃ f ∈ entries, e.1 = f.1) ∧ (e.2 = a ∨ e ∈ entries)
  := by
  induction entries with
  | nil =>
    simp only [insert, List.mem_singleton] at he
    simp [he]
  | cons f entries ih =>
    obtain ⟨k', a'⟩ := f
    simp only [insert] at he
    split at he <;> simp only [List.mem_cons] at he ⊢
    · rcases he with rfl | rfl | he
      · simp
      · simp
      · exact ⟨Or.inr ⟨e, Or.inr he, rfl⟩, Or.inr (Or.inr he)⟩
    · rcases he with rfl | he
      · simp
      · exact ⟨Or.inr ⟨e, Or.inr he, rfl⟩, Or.inr (Or.inr he)⟩
    · rcases he with rfl | he
      · simp
      · obtain ⟨hk, ha⟩ := ih he
        refine ⟨?_, ?_⟩
        · rcases hk with hk | ⟨f, hf, hk⟩
          · exact Or.inl hk
          · exact Or.inr ⟨f, Or.inr hf, hk⟩
        · rcases ha with ha | ha
          · exact Or.inl ha
          · exact Or.inr (Or.inr ha)

/-- Insertion keeps the keys ascending. -/
theorem ascending_insert [Std.TransOrd κ] (k : κ) (a : α) {entries : List (κ × α)}
    (h : Ascending entries) :
  Ascending (insert k a entries)
  := by
  induction entries with
  | nil => simp [insert, Ascending]
  | cons e entries ih =>
    obtain ⟨k', a'⟩ := e
    obtain ⟨hhead, htail⟩ := List.pairwise_cons.mp h
    simp only [insert]
    split
    · rename_i hk
      refine List.pairwise_cons.mpr ⟨?_, h⟩
      intro f hf
      rcases List.mem_cons.mp hf with rfl | hf
      · exact hk
      · exact Std.TransCmp.lt_trans hk (hhead f hf)
    · exact List.pairwise_cons.mpr ⟨hhead, htail⟩
    · rename_i hk
      refine List.pairwise_cons.mpr ⟨?_, ih htail⟩
      intro f hf
      rcases (eq_or_mem_of_mem_insert hf).1 with hf | ⟨g, hg, hf⟩
      · rw [hf]
        exact Std.OrientedCmp.gt_iff_lt.mp hk
      · rw [hf]
        exact hhead g hg

/-- The entries that stay when a key is removed keep their order. -/
theorem erase_sublist (k : κ) (entries : List (κ × α)) :
  (erase k entries).Sublist entries
  := by
  induction entries with
  | nil => exact List.Sublist.refl _
  | cons e entries ih =>
    simp only [erase]
    split
    · exact List.sublist_cons_self _ _
    · exact ih.cons_cons _

/-- Removal keeps the keys ascending. -/
theorem ascending_erase (k : κ) {entries : List (κ × α)} (h : Ascending entries) :
  Ascending (erase k entries)
  := List.Pairwise.sublist (erase_sublist k entries) h

/-- A key below all others has no value among them. -/
theorem find?_eq_none_of_lt {k : κ} {entries : List (κ × α)}
    (h : ∀ e ∈ entries, compare k e.1 = .lt) :
  find? k entries = none
  := by
  induction entries with
  | nil => rfl
  | cons e entries ih =>
    have he := h e (List.mem_cons_self ..)
    simp only [find?, he]
    apply ih
    intro f hf
    apply h f (List.mem_cons_of_mem _ hf)

/-- A removed key has no value. -/
theorem find?_erase_self [Std.TransOrd κ] (k : κ) {entries : List (κ × α)}
    (h : Ascending entries) :
  find? k (erase k entries) = none
  := by
  induction entries with
  | nil => rfl
  | cons e entries ih =>
    obtain ⟨hhead, htail⟩ := List.pairwise_cons.mp h
    simp only [erase]
    split
    · rename_i hk
      apply find?_eq_none_of_lt
      intro f hf
      rw [Std.TransCmp.congr_left hk]
      exact hhead f hf
    · rename_i hk
      simp [find?, hk, ih htail]

/-- The value of another key stays when a key is removed. -/
theorem find?_erase_of_ne [Std.TransOrd κ] {k k' : κ} (h : compare k' k ≠ .eq)
    (entries : List (κ × α)) :
  find? k' (erase k entries) = find? k' entries
  := by
  induction entries with
  | nil => rfl
  | cons e entries ih =>
    simp only [erase]
    split
    · rename_i hk
      rw [Std.TransCmp.congr_right hk] at h
      simp [find?, h]
    · simp [find?, ih]

end Tariff.Assoc
