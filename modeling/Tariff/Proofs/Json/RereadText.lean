import Tariff.Proofs.Json.WrittenValues

/-!
# Texts of values that are read back

A value that is read back has the same text as before exactly if each of its numbers has.  The
number at which two texts differ can be told from them, as a numeral ends before the next mark.
-/

namespace Tariff.Json

/-- A number has the same text again after it has been read back. -/
def Number.IsSteady (n : Number) : Prop :=
  n.reread?.map compact = some n.toText

instance (n : Number) : Decidable n.IsSteady :=
  inferInstanceAs (Decidable (_ = _))

variable {cs cs' rest rest' : List Char} {depth : Nat}

/-! ### Texts of numbers -/

/-- Characters that are written for a number. -/
def IsNumberText (cs : List Char) : Prop :=
  cs = "null".toList ∨ (cs ≠ [] ∧ ∀ c ∈ cs, isNumeric c = true)

/-- Digits go on with a numeral. -/
theorem isNumeric_of_isDigit {c : Char} (digit : c.isDigit = true) :
  isNumeric c = true
  := by
  simp [isNumeric, digit]

/-- All characters of a numeral go on with it. -/
theorem WrittenNumeral.isNumeric_of_mem {w : WrittenNumeral} {c : Char} (c_mem : c ∈ w.chars) :
  isNumeric c = true
  := by
  simp only [chars, List.mem_append] at c_mem
  rcases c_mem with c_mem | c_mem | c_mem
  · apply isNumeric_of_isDigit (w.whole_digits.isDigit c c_mem)
  · cases fraction : w.fraction with
    | none =>
      rw [fraction] at c_mem
      cases c_mem
    | some ds =>
      rw [fraction] at c_mem
      rcases List.mem_cons.mp c_mem with rfl | c_mem
      · rfl
      · apply isNumeric_of_isDigit ((w.fraction_digits ds fraction).isDigit c c_mem)
  · cases exponent : w.exponent with
    | none =>
      rw [exponent] at c_mem
      cases c_mem
    | some e =>
      rw [exponent] at c_mem
      rcases List.mem_cons.mp c_mem with rfl | c_mem
      · rfl
      rcases List.mem_cons.mp c_mem with rfl | c_mem
      · cases e.1 <;> rfl
      · apply isNumeric_of_isDigit ((w.exponent_digits e exponent).isDigit c c_mem)

/-- Whatever is written for a number is the text of one. -/
theorem Number.isNumberText_chars (n : Number) :
  IsNumberText n.chars
  := by
  rcases n.chars_cases with null | ⟨negative, w, chars_eq⟩
  · exact .inl null
  · obtain ⟨c, cs, w_eq, -⟩ := w.chars_eq_cons
    right
    rw [chars_eq]
    cases negative with
    | false => exact ⟨by simp [Text.signed, w_eq], fun c c_mem => w.isNumeric_of_mem c_mem⟩
    | true =>
      refine ⟨by simp [Text.signed], ?_⟩
      intro c c_mem
      rcases List.mem_cons.mp c_mem with rfl | c_mem
      · rfl
      · apply w.isNumeric_of_mem c_mem

/-- A number is read back as a number or as nothing. -/
theorem Number.isNumberText_of_reread? {n : Number} {v : Json} (read : n.reread? = some v) :
  IsNumberText v.compactChars
  := by
  have no_more : EndsNumeral [] := by simp [EndsNumeral]
  obtain ⟨v?, cases, read_chars⟩ := Reader.exists_reread n
  rw [Reader.reread?_eq (read_chars _ [] no_more)] at read
  rcases cases v read with rfl | ⟨m, rfl⟩
  · left
    rw [compactChars]
  · rw [compactChars]
    apply m.isNumberText_chars

/-- A numeral is all that goes on with it. -/
theorem takeWhile_isNumeric (numeric : ∀ c ∈ cs, isNumeric c = true) (ends : EndsNumeral rest) :
  (cs ++ rest).takeWhile isNumeric = cs
  := by
  rw [List.takeWhile_append_of_pos numeric]
  cases rest with
  | nil => simp
  | cons c rest => simp [ends c rfl]

/-- The text of a number in front can be told from a whole text. -/
theorem IsNumberText.append_inj (number : IsNumberText cs) (number' : IsNumberText cs')
    (ends : EndsNumeral rest) (ends' : EndsNumeral rest') (eq : cs ++ rest = cs' ++ rest') :
  cs = cs' ∧ rest = rest'
  := by
  have taken := congrArg (List.takeWhile isNumeric) eq
  -- Of the word no character is numeric, of a numeral there is one.
  have cs_eq : cs = cs' := by
    rcases number with rfl | ⟨ne_nil, numeric⟩
    · rcases number' with rfl | ⟨ne_nil', numeric'⟩
      · rfl
      · rw [takeWhile_isNumeric numeric' ends'] at taken
        exact absurd taken.symm ne_nil'
    · rw [takeWhile_isNumeric numeric ends] at taken
      rcases number' with rfl | ⟨ne_nil', numeric'⟩
      · exact absurd taken ne_nil
      · rw [takeWhile_isNumeric numeric' ends'] at taken
        apply taken
  subst cs_eq
  exact ⟨rfl, List.append_cancel_left eq⟩

/-! ### Texts of parts -/

section Parts

variable {α : Type} {P : α → Prop} {write : α → List Char} {close : Char} {as bs : List α}

/-- If two texts go on alike behind the same beginning then a condition holds. -/
def Tells (p : Prop) (cs cs' : List Char) : Prop :=
  ∀ rest rest', EndsNumeral rest → EndsNumeral rest' → cs ++ rest = cs' ++ rest' →
    rest = rest' ∧ p

/-- No numeral goes on with further parts or with the closing bracket. -/
theorem endsNumeral_parts (closes : isNumeric close = false) (as : List α) :
  EndsNumeral ((as.flatMap fun a => ',' :: write a) ++ close :: rest)
  := by
  intro c c_mem
  cases as with
  | nil =>
    cases c_mem
    apply closes
  | cons a as =>
    cases c_mem
    rfl

/-- Further parts are told apart if each of them is. -/
theorem tells_moreParts (closes : isNumeric close = false)
    (each : List.Forall₂ (fun a b => Tells (P a) (write a) (write b)) as bs)
    (eq : (as.flatMap fun a => ',' :: write a) ++ close :: rest =
      (bs.flatMap fun b => ',' :: write b) ++ close :: rest') :
  rest = rest' ∧ ∀ a ∈ as, P a
  := by
  induction each with
  | nil => exact ⟨(List.cons.inj eq).2, by simp⟩
  | cons first _ ih =>
    simp only [List.flatMap_cons, List.cons_append, List.append_assoc, List.cons.injEq,
      true_and] at eq
    -- Behind the part there is a mark in both texts, so that no numeral goes on.
    obtain ⟨eq', holds⟩ := first _ _ (endsNumeral_parts closes _) (endsNumeral_parts closes _) eq
    obtain ⟨rest_eq, all⟩ := ih eq'
    exact ⟨rest_eq, List.forall_mem_cons.mpr ⟨holds, all⟩⟩

/-- Parts are told apart if each of them is. -/
theorem tells_separated (closes : isNumeric close = false)
    (each : List.Forall₂ (fun a b => Tells (P a) (write a) (write b)) as bs) :
  Tells (∀ a ∈ as, P a) (separated write as ++ [close]) (separated write bs ++ [close])
  := by
  intro rest rest' _ _ eq
  rw [List.append_assoc, List.append_assoc, List.singleton_append, List.singleton_append] at eq
  cases each with
  | nil => exact ⟨(List.cons.inj eq).2, by simp⟩
  | cons first more =>
    rw [separated, separated, List.append_assoc, List.append_assoc] at eq
    obtain ⟨eq', holds⟩ := first _ _ (endsNumeral_parts closes _) (endsNumeral_parts closes _) eq
    obtain ⟨rest_eq, all⟩ := tells_moreParts closes more eq'
    exact ⟨rest_eq, List.forall_mem_cons.mpr ⟨holds, all⟩⟩

/-- Parts that are written alike one by one are written alike all together. -/
theorem separated_congr (each : List.Forall₂ (fun a b => write a = write b) as bs) :
  separated write as = separated write bs
  := by
  have more {as bs : List α} (each : List.Forall₂ (fun a b => write a = write b) as bs) :
      (as.flatMap fun a => ',' :: write a) = bs.flatMap fun b => ',' :: write b := by
    induction each with
    | nil => rfl
    | cons eq _ ih => rw [List.flatMap_cons, List.flatMap_cons, eq, ih]
  cases each with
  | nil => rfl
  | cons eq others => rw [separated, separated, eq, more others]

/-- Behind the same characters texts are told apart by what follows. -/
theorem Tells.append_left {p : Prop} (tells : Tells p cs cs') (front : List Char) :
  Tells p (front ++ cs) (front ++ cs')
  := by
  intro rest rest' ends ends' eq
  rw [List.append_assoc, List.append_assoc] at eq
  apply tells rest rest' ends ends' (List.append_cancel_left eq)

end Parts

/-! ### Texts of values -/

/-- The texts of an array and of the array read back tell which of its numbers are steady if those
of its items do. -/
theorem tells_array {items items' : List Json}
    (each : ∀ v ∈ items, ∀ v', reread? depth v = some v' →
      Tells (∀ n ∈ v.numbers, n.IsSteady) v.compactChars v'.compactChars)
    (read : rereadItems? depth items = some items') :
  Tells (∀ n ∈ (array items).numbers, n.IsSteady)
    (array items).compactChars (array items').compactChars
  := by
  have tells := tells_separated (show isNumeric ']' = false from rfl)
    (forall₂_of_rereadItems? each read)
  rw [compactChars, compactChars, Layout.compactItems_eq, Layout.compactItems_eq]
  intro rest rest' ends ends' eq
  obtain ⟨rest_eq, steady⟩ := tells.append_left ['['] rest rest' ends ends' eq
  refine ⟨rest_eq, ?_⟩
  intro n n_mem
  obtain ⟨v, v_mem, n_mem⟩ := (mem_numbersInItems items).mp n_mem
  apply steady v v_mem n n_mem

/-- The texts of an object and of the object read back tell which of its numbers are steady if
those of the values of its members do. -/
theorem tells_object {members members' : List (String × Json)}
    (each : ∀ m ∈ members, ∀ v', reread? depth m.2 = some v' →
      Tells (∀ n ∈ m.2.numbers, n.IsSteady) m.2.compactChars v'.compactChars)
    (read : rereadMembers? depth members = some members') :
  Tells (∀ n ∈ (object members).numbers, n.IsSteady)
    (object members).compactChars (object members').compactChars
  := by
  have each_member : ∀ m ∈ members, ∀ v', reread? depth m.2 = some v' →
      Tells (∀ n ∈ m.2.numbers, n.IsSteady)
        (quoted m.1 ++ ':' :: m.2.compactChars) (quoted m.1 ++ ':' :: v'.compactChars) := by
    intro m m_mem v' read_v
    apply ((each m m_mem v' read_v).append_left [':']).append_left (quoted m.1)
  have tells := tells_separated (show isNumeric '\x7d' = false from rfl)
    (forall₂_of_rereadMembers? each_member read)
  rw [compactChars, compactChars, Layout.compactMembers_eq, Layout.compactMembers_eq]
  intro rest rest' ends ends' eq
  obtain ⟨rest_eq, steady⟩ := tells.append_left ['\x7b'] rest rest' ends ends' eq
  refine ⟨rest_eq, ?_⟩
  intro n n_mem
  obtain ⟨m, m_mem, n_mem⟩ := (mem_numbersInMembers members).mp n_mem
  apply steady m m_mem n n_mem

/-- If the text of a value goes on like that of the value read back then its numbers are steady. -/
theorem tells_steady {v v' : Json} (read : reread? depth v = some v') :
  Tells (∀ n ∈ v.numbers, n.IsSteady) v.compactChars v'.compactChars
  := by
  induction v using Json.ind generalizing depth v' with
  | null =>
    cases read
    exact fun _ _ _ _ eq => ⟨List.append_cancel_left eq, by simp [numbers]⟩
  | bool b =>
    cases read
    exact fun _ _ _ _ eq => ⟨List.append_cancel_left eq, by simp [numbers]⟩
  | string s =>
    cases read
    exact fun _ _ _ _ eq => ⟨List.append_cancel_left eq, by simp [numbers]⟩
  | number n =>
    rw [reread?] at read
    intro rest rest' ends ends' eq
    rw [compactChars] at eq
    obtain ⟨chars_eq, rest_eq⟩ :=
      n.isNumberText_chars.append_inj (Number.isNumberText_of_reread? read) ends ends' eq
    refine ⟨rest_eq, ?_⟩
    intro m m_mem
    rw [numbers, List.mem_singleton] at m_mem
    rw [m_mem, Number.IsSteady, read, Option.map_some, compact, ← chars_eq, Number.toText]
  | array items ih =>
    cases depth with
    | zero => cases read
    | succ depth =>
      obtain ⟨items', read_items, rfl⟩ := Option.map_eq_some_iff.mp read
      apply tells_array (fun v v_mem v' => ih v v_mem) read_items
  | object members ih =>
    cases depth with
    | zero => cases read
    | succ depth =>
      obtain ⟨members', read_members, rfl⟩ := Option.map_eq_some_iff.mp read
      apply tells_object (fun m m_mem v' => ih m m_mem) read_members

/-- The text of a value whose numbers are steady is read back as a value with that text. -/
theorem compactChars_of_steady {v v' : Json} (read : reread? depth v = some v')
    (steady : ∀ n ∈ v.numbers, n.IsSteady) :
  v.compactChars = v'.compactChars
  := by
  induction v using Json.ind generalizing depth v' with
  | null =>
    cases read
    rfl
  | bool b =>
    cases read
    rfl
  | string s =>
    cases read
    rfl
  | number n =>
    have text_eq := steady n (by simp [numbers])
    rw [reread?] at read
    rw [Number.IsSteady, read, Option.map_some, Option.some.injEq] at text_eq
    rw [compactChars]
    apply (String.ofList_injective text_eq).symm
  | array items ih =>
    cases depth with
    | zero => cases read
    | succ depth =>
      obtain ⟨items', read_items, rfl⟩ := Option.map_eq_some_iff.mp read
      have each : List.Forall₂ (fun v v' => compactChars v = compactChars v') items items' := by
        apply forall₂_of_rereadItems? _ read_items
        intro v v_mem v' read_v
        apply ih v v_mem read_v
        intro n n_mem
        apply steady n ((mem_numbersInItems items).mpr ⟨v, v_mem, n_mem⟩)
      rw [compactChars, compactChars, Layout.compactItems_eq, Layout.compactItems_eq,
        separated_congr each]
  | object members ih =>
    cases depth with
    | zero => cases read
    | succ depth =>
      obtain ⟨members', read_members, rfl⟩ := Option.map_eq_some_iff.mp read
      have each : List.Forall₂ (fun m m' => quoted m.1 ++ ':' :: compactChars m.2 =
          quoted m'.1 ++ ':' :: compactChars m'.2) members members' := by
        apply forall₂_of_rereadMembers? _ read_members
        intro m m_mem v' read_v
        have steady_m : ∀ n ∈ m.2.numbers, n.IsSteady :=
          fun n n_mem => steady n ((mem_numbersInMembers members).mpr ⟨m, m_mem, n_mem⟩)
        rw [ih m m_mem read_v steady_m]
      rw [compactChars, compactChars, Layout.compactMembers_eq, Layout.compactMembers_eq,
        separated_congr each]

/-- A value that is read back has the same text exactly if its numbers are steady. -/
theorem compact_eq_iff {v v' : Json} (read : reread? depth v = some v') :
  v.compact = v'.compact ↔ ∀ n ∈ v.numbers, n.IsSteady
  := by
  constructor
  · intro eq
    have no_more : EndsNumeral [] := by simp [EndsNumeral]
    have chars_eq : v.compactChars ++ [] = v'.compactChars ++ [] :=
      congrArg (· ++ []) (String.ofList_injective eq)
    apply (tells_steady read [] [] no_more no_more chars_eq).2
  · intro steady
    rw [compact, compact, compactChars_of_steady read steady]

end Tariff.Json
