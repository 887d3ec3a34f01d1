import Tariff.Json.Printing
import Tariff.Proofs.Json.Values

/-!
# Layouts

A text of a value gives its parts between commas, with blanks around them or not.  Parts are read
from it as they stand, whatever the blanks.
-/

namespace Tariff.Json

/-- What is written for parts, with commas between them. -/
def separated {α : Type} (write : α → List Char) : List α → List Char
  | [] => []
  | a :: as => write a ++ as.flatMap fun a => ',' :: write a

/-- Characters that are all blank. -/
def Blank (cs : List Char) : Prop :=
  ∀ c ∈ cs, isBlank c = true

/-- A way of writing values. -/
structure Layout where
  /-- What stands before a part inside so many containers. -/
  line : Nat → List Char
  /-- What stands behind the colon of a member. -/
  gap : List Char
  /-- The text of a value inside so many containers. -/
  chars : Nat → Json → List Char
  line_blank (level : Nat) : Blank (line level)
  gap_blank : Blank gap
  chars_null (level : Nat) : chars level .null = "null".toList
  chars_true (level : Nat) : chars level (.bool true) = "true".toList
  chars_false (level : Nat) : chars level (.bool false) = "false".toList
  chars_number (level : Nat) (n : Number) : chars level (.number n) = n.chars
  chars_string (level : Nat) (s : String) : chars level (.string s) = quoted s
  chars_array_nil (level : Nat) : chars level (.array []) = ['[', ']']
  chars_array (level : Nat) (item : Json) (items : List Json) :
    chars level (.array (item :: items)) =
      '[' :: (separated (fun v => line (level + 1) ++ chars (level + 1) v) (item :: items) ++
        (line level ++ [']']))
  chars_object_nil (level : Nat) : chars level (.object []) = ['\x7b', '\x7d']
  chars_object (level : Nat) (m : String × Json) (members : List (String × Json)) :
    chars level (.object (m :: members)) =
      '\x7b' :: (separated
        (fun m => line (level + 1) ++ (quoted m.1 ++ ':' :: (gap ++ chars (level + 1) m.2)))
        (m :: members) ++ (line level ++ ['\x7d']))

namespace Layout

/-! ### The two layouts -/

/-- Items without blanks stand between commas. -/
theorem compactItems_eq (items : List Json) :
  compactItems items = separated compactChars items
  := by
  induction items with
  | nil => rfl
  | cons item items ih =>
    cases items with
    | nil => simp [compactItems, separated]
    | cons item' items => simp [compactItems, separated, ih]

/-- Members without blanks stand between commas. -/
theorem compactMembers_eq (members : List (String × Json)) :
  compactMembers members = separated (fun m => quoted m.1 ++ ':' :: compactChars m.2) members
  := by
  induction members with
  | nil => rfl
  | cons m members ih =>
    cases members with
    | nil => simp [compactMembers, separated]
    | cons m' members => simp [compactMembers, separated, ih]

/-- Items on lines of their own stand between commas. -/
theorem indentedItems_eq (level : Nat) (items : List Json) :
  indentedItems level items = separated (fun v => newLine level ++ indentedChars level v) items
  := by
  induction items with
  | nil => rfl
  | cons item items ih =>
    cases items with
    | nil => simp [indentedItems, separated]
    | cons item' items => simp [indentedItems, separated, ih]

/-- Members on lines of their own stand between commas. -/
theorem indentedMembers_eq (level : Nat) (members : List (String × Json)) :
  indentedMembers level members =
    separated (fun m => newLine level ++ quoted m.1 ++ ':' :: ' ' :: indentedChars level m.2)
      members
  := by
  induction members with
  | nil => rfl
  | cons m members ih =>
    cases members with
    | nil => simp [indentedMembers, separated]
    | cons m' members => simp [indentedMembers, separated, ih]

/-- Values without blanks. -/
def compact : Layout where
  line _ := []
  gap := []
  chars _ := compactChars
  line_blank := by simp [Blank]
  gap_blank := by simp [Blank]
  chars_null _ := by rw [compactChars]
  chars_true _ := by rw [compactChars]
  chars_false _ := by rw [compactChars]
  chars_number _ _ := by rw [compactChars]
  chars_string _ _ := by rw [compactChars]
  chars_array_nil _ := by simp [compactChars, compactItems]
  chars_array _ _ _ := by simp [compactChars, compactItems_eq]
  chars_object_nil _ := by simp [compactChars, compactMembers]
  chars_object _ _ _ := by simp [compactChars, compactMembers_eq]

/-- Values with their parts on lines of their own. -/
def indented : Layout where
  line := newLine
  gap := [' ']
  chars := indentedChars
  line_blank level := by
    intro c c_mem
    rcases List.mem_cons.mp c_mem with rfl | c_mem
    · rfl
    · rw [List.eq_of_mem_replicate c_mem]
      rfl
  gap_blank := by simp [Blank, isBlank]
  chars_null _ := by rw [indentedChars]
  chars_true _ := by rw [indentedChars]
  chars_false _ := by rw [indentedChars]
  chars_number _ _ := by rw [indentedChars]
  chars_string _ _ := by rw [indentedChars]
  chars_array_nil _ := by rw [indentedChars]
  chars_array _ _ _ := by simp [indentedChars, indentedItems_eq]
  chars_object_nil _ := by rw [indentedChars]
  chars_object _ _ _ := by simp [indentedChars, indentedMembers_eq]

end Layout

/-! ### Reading parts -/

/-- Leading blanks are dropped. -/
theorem dropBlanks_blank_append {blanks : List Char} (blank : Blank blanks) (cs : List Char) :
  dropBlanks (blanks ++ cs) = dropBlanks cs
  := List.dropWhile_append_of_pos blank

/-- No numeral goes on with a blank. -/
theorem isNumeric_of_isBlank {c : Char} (blank : isBlank c = true) :
  isNumeric c = false
  := by
  simp only [isBlank, Bool.or_eq_true, decide_eq_true_eq] at blank
  rcases blank with ((rfl | rfl) | rfl) | rfl <;> decide

namespace Reader

variable {α σ : Type} {step : σ → α → Option σ} {part : σ → Reader σ} {body : α → List Char}
  {line trail rest : List Char} {close : Char} {as : List α}

/-- Parts that are read one after the other, each from what is written for it. -/
structure ReadsParts (step : σ → α → Option σ) (part : σ → Reader σ) (body : α → List Char)
    (close : Char) (as : List α) : Prop where
  close_eq : close = ']' ∨ close = '\x7d'
  starts (a : α) : ∃ c cs, body a = c :: cs ∧ isBlank c = false ∧ c ≠ close
  reads (s : σ) (blanks : List Char) (a : α) (rest : List Char) : a ∈ as → Blank blanks →
    EndsNumeral rest → part s (blanks ++ (body a ++ rest)) = answer .malformed rest (step s a)

/-- A numeral ends before further parts and before the closing bracket. -/
theorem ReadsParts.endsNumeral (parts : ReadsParts step part body close as)
    (trail_blank : Blank trail) (others : List α) :
  EndsNumeral ((others.flatMap fun a => ',' :: (line ++ body a)) ++ (trail ++ close :: rest))
  := by
  intro c c_mem
  cases others with
  | nil =>
    cases trail with
    | nil =>
      cases c_mem
      rcases parts.close_eq with rfl | rfl <;> rfl
    | cons c trail =>
      cases c_mem
      apply isNumeric_of_isBlank (trail_blank _ List.mem_cons_self)
  | cons a others =>
    cases c_mem
    rfl

/-- The closing bracket is not blank. -/
theorem ReadsParts.isBlank_close (parts : ReadsParts step part body close as) :
  isBlank close = false
  := by
  rcases parts.close_eq with rfl | rfl <;> rfl

/-- The closing bracket is no comma. -/
theorem ReadsParts.comma_ne (parts : ReadsParts step part body close as) :
  ',' ≠ close
  := by
  rcases parts.close_eq with rfl | rfl <;> decide

/-- Further parts are read from what is written for them. -/
theorem ReadsParts.moreParts_eq (parts : ReadsParts step part body close as)
    (line_blank : Blank line) (trail_blank : Blank trail) {others : List α}
    (others_mem : ∀ a ∈ others, a ∈ as) {count : Nat} (enough : others.length < count) (s : σ) :
  moreParts close part count s
      ((others.flatMap fun a => ',' :: (line ++ body a)) ++ (trail ++ close :: rest)) =
    answer .malformed rest (others.foldlM step s)
  := by
  induction others generalizing count s with
  | nil =>
    obtain ⟨count, rfl⟩ : ∃ k, count = k + 1 := Nat.exists_eq_add_one_of_ne_zero (by omega)
    unfold moreParts
    rw [List.flatMap_nil, List.nil_append, dropBlanks_blank_append trail_blank,
      dropBlanks_cons parts.isBlank_close]
    dsimp only
    rw [if_pos rfl]
    rfl
  | cons a others ih =>
    obtain ⟨count, rfl⟩ : ∃ k, count = k + 1 := Nat.exists_eq_add_one_of_ne_zero (by omega)
    have others_mem' : ∀ a ∈ others, a ∈ as :=
      fun a a_mem => others_mem a (List.mem_cons_of_mem _ a_mem)
    have read := parts.reads s line a
      ((others.flatMap fun a => ',' :: (line ++ body a)) ++ (trail ++ close :: rest))
      (others_mem a List.mem_cons_self) line_blank (parts.endsNumeral trail_blank others)
    unfold moreParts
    rw [List.flatMap_cons, List.cons_append, List.cons_append, dropBlanks_cons (by decide)]
    dsimp only
    rw [if_neg parts.comma_ne, if_pos rfl, List.append_assoc, List.append_assoc, List.foldlM_cons]
    cases stepped : step s a with
    | none =>
      rw [stepped] at read
      apply bind_of_error read
    | some s =>
      rw [stepped] at read
      rw [bind_of_ok read]
      apply ih others_mem' (Nat.lt_of_succ_lt_succ enough) s

/-- The parts of a container are read from what is written for them. -/
theorem ReadsParts.parts_eq {a : α} {others : List α}
    (parts : ReadsParts step part body close (a :: others)) (line_blank : Blank line)
    (trail_blank : Blank trail) (s : σ) (rest : List Char) :
  Reader.parts close part s
      (separated (fun a => line ++ body a) (a :: others) ++ (trail ++ close :: rest)) =
    answer .malformed rest ((a :: others).foldlM step s)
  := by
  have ends : EndsNumeral
      ((others.flatMap fun a => ',' :: (line ++ body a)) ++ (trail ++ close :: rest)) :=
    parts.endsNumeral trail_blank others
  have read := parts.reads s [] a _ List.mem_cons_self (by simp [Blank]) ends
  obtain ⟨c, cs, body_eq, not_blank, c_ne⟩ := parts.starts a
  rw [body_eq, List.nil_append] at read
  have written : others.length ≤ (others.flatMap fun a => ',' :: (line ++ body a)).length :=
    length_le_length_flatMap (by simp) others
  unfold Reader.parts
  rw [separated, List.append_assoc, List.append_assoc, dropBlanks_blank_append line_blank, body_eq,
    List.cons_append, dropBlanks_cons not_blank]
  dsimp only
  rw [if_neg c_ne, List.foldlM_cons]
  rw [List.cons_append] at read
  cases stepped : step s a with
  | none =>
    rw [stepped] at read
    apply bind_of_error read
  | some s =>
    rw [stepped] at read
    rw [bind_of_ok read]
    apply parts.moreParts_eq line_blank trail_blank
    · intro a a_mem
      apply List.mem_cons_of_mem _ a_mem
    · simp only [List.length_append, List.length_cons]
      omega

end Reader

end Tariff.Json
