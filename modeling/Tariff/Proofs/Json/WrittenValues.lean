import Tariff.Proofs.Json.Layout
import Tariff.Proofs.Json.Reread
import Tariff.Proofs.Json.WrittenNumerals

/-!
# Reading what has been written

The text of a value, in whatever layout, is read as the value with its numbers read back.
-/

namespace Tariff.Json

namespace Reader

variable {blanks rest : List Char} {depth : Nat}

/-! ### Leaves -/

/-- A value is read behind blanks. -/
theorem value_blank_append (blank : Blank blanks) (cs : List Char) :
  value depth (blanks ++ cs) = value depth cs
  := by
  rw [value, valueWith_eq, valueWith_eq, dropBlanks_blank_append blank]

/-- A value that is no number without sign is read behind its first character. -/
theorem value_cons {c : Char} (not_blank : isBlank c = false) (no_digit : c.isDigit = false)
    (cs : List Char) :
  value depth (c :: cs) = valueFrom .wanted depth c cs
  := by
  rw [value, valueWith_eq, dropBlanks_cons not_blank]
  simp [no_digit]

/-- The words are read. -/
theorem value_words :
  value depth ("null".toList ++ rest) = .ok (.null, rest) ∧
    value depth ("true".toList ++ rest) = .ok (.bool true, rest) ∧
    value depth ("false".toList ++ rest) = .ok (.bool false, rest)
  := by
  refine ⟨?_, ?_, ?_⟩
  · apply (value_cons (c := 'n') (by decide) (by decide) ("ull".toList ++ rest)).trans rfl
  · apply (value_cons (c := 't') (by decide) (by decide) ("rue".toList ++ rest)).trans rfl
  · apply (value_cons (c := 'f') (by decide) (by decide) ("alse".toList ++ rest)).trans rfl

/-- A quoted text stands between two quotes. -/
theorem quoted_append (s : String) (rest : List Char) :
  quoted s ++ rest = '"' :: (s.toList.flatMap escape ++ '"' :: rest)
  := by
  simp [quoted]

/-- A quoted text is read. -/
theorem value_quoted (s : String) :
  value depth (quoted s ++ rest) = .ok (.string s, rest)
  := by
  have read := stringTail_quoted s rest
  rw [quoted_append, value_cons (by decide) (by decide)]
  apply map_eq_ok.mpr ⟨s, read, rfl⟩

/-- A digit is not blank and no bracket. -/
theorem not_blank_of_isDigit {c : Char} (digit : c.isDigit = true) :
  isBlank c = false ∧ c ≠ ']' ∧ c ≠ '\x7d'
  := by
  refine ⟨?_, ?_, ?_⟩
  · cases blank : isBlank c with
    | false => rfl
    | true =>
      simp only [isBlank, Bool.or_eq_true, decide_eq_true_eq] at blank
      rcases blank with ((rfl | rfl) | rfl) | rfl <;> cases digit
  · rintro rfl
    cases digit
  · rintro rfl
    cases digit

/-- A written number is read behind its sign. -/
theorem number_written (negative : Bool) (w : WrittenNumeral) (ends : EndsNumeral rest) :
  number negative (w.chars ++ rest) = answer .malformed rest (w.numeral.value? negative)
  := by
  unfold number
  rw [bind_of_ok (numeral_written _ w ends)]
  cases w.numeral.value? negative <;> rfl

/-- A written number is read. -/
theorem value_written (negative : Bool) (w : WrittenNumeral) (ends : EndsNumeral rest) :
  value depth (Text.signed negative w.chars ++ rest) =
    answer .malformed rest ((w.numeral.value? negative).map .number)
  := by
  have read : (Json.number <$> Leaves.wanted.number negative) (w.chars ++ rest) = _ :=
    map_answer (number_written negative w ends)
  cases negative with
  | true => exact (value_cons (by decide) (by decide) _).trans read
  | false =>
    obtain ⟨c, cs, chars_eq, digit⟩ := w.chars_eq_cons
    obtain ⟨not_blank, -⟩ := not_blank_of_isDigit digit
    rw [Text.signed, if_neg (by decide)]
    rw [chars_eq] at read ⊢
    rw [value, valueWith_eq, List.cons_append, dropBlanks_cons not_blank]
    dsimp only
    rw [if_pos digit]
    apply read

/-- What is written for a number is read alike wherever it stands, and if as anything then as a
number or as nothing. -/
theorem exists_reread (n : Number) :
  ∃ v? : Option Json, (∀ v ∈ v?, v = .null ∨ ∃ m, v = .number m) ∧
    ∀ depth rest, EndsNumeral rest → value depth (n.chars ++ rest) = answer .malformed rest v?
  := by
  rcases n.chars_cases with null | ⟨negative, w, chars_eq⟩
  · refine ⟨some .null, ?_, ?_⟩
    · intro v v_mem
      exact .inl (Option.some.inj v_mem).symm
    · intro depth rest _
      rw [null]
      apply value_words.1
  · refine ⟨(w.numeral.value? negative).map .number, ?_, ?_⟩
    · intro v v_mem
      obtain ⟨m, -, number_eq⟩ := Option.map_eq_some_iff.mp v_mem
      exact .inr ⟨m, number_eq.symm⟩
    · intro depth rest ends
      rw [chars_eq]
      apply value_written negative w ends

/-- What the text of a number is read as is what it is read back as. -/
theorem reread?_eq {n : Number} {v? : Option Json}
    (read : value nestingLimit (n.chars ++ []) = answer .malformed [] v?) :
  n.reread? = v?
  := by
  have blank : dropBlanks [] = [] := rfl
  refine toOption_run ?_ blank
  rw [Number.toText, String.toList_ofList, ← List.append_nil n.chars, read]
  cases v? <;> rfl

/-- A number is read wherever it stands as from its text alone. -/
theorem value_number (n : Number) (ends : EndsNumeral rest) :
  value depth (n.chars ++ rest) = answer .malformed rest n.reread?
  := by
  obtain ⟨v?, -, read⟩ := exists_reread n
  have no_more : EndsNumeral [] := by simp [EndsNumeral]
  rw [reread?_eq (read _ [] no_more)]
  apply read depth rest ends

/-- What is written for a number starts with a character that is not blank and closes nothing. -/
theorem number_starts (n : Number) :
  ∃ c cs, n.chars = c :: cs ∧ isBlank c = false ∧ c ≠ ']' ∧ c ≠ '\x7d'
  := by
  rcases n.chars_cases with null | ⟨negative, w, chars_eq⟩
  · exact ⟨'n', _, null, by decide, by decide, by decide⟩
  · cases negative with
    | true => exact ⟨'-', _, chars_eq, by decide, by decide, by decide⟩
    | false =>
      obtain ⟨c, cs, w_eq, digit⟩ := w.chars_eq_cons
      exact ⟨c, cs, chars_eq.trans w_eq, not_blank_of_isDigit digit⟩

/-! ### Containers -/

/-- What is written for a value starts with a character that is not blank and closes nothing. -/
theorem chars_starts (layout : Layout) (level : Nat) (v : Json) :
  ∃ c cs, layout.chars level v = c :: cs ∧ isBlank c = false ∧ c ≠ ']' ∧ c ≠ '\x7d'
  := by
  cases v with
  | null => exact ⟨'n', _, layout.chars_null level, by decide, by decide, by decide⟩
  | bool b =>
    cases b with
    | false => exact ⟨'f', _, layout.chars_false level, by decide, by decide, by decide⟩
    | true => exact ⟨'t', _, layout.chars_true level, by decide, by decide, by decide⟩
  | number n =>
    rw [layout.chars_number]
    apply number_starts n
  | string s => exact ⟨'"', _, layout.chars_string level s, by decide, by decide, by decide⟩
  | array items =>
    cases items with
    | nil => exact ⟨'[', _, layout.chars_array_nil level, by decide, by decide, by decide⟩
    | cons item items =>
      exact ⟨'[', _, layout.chars_array level item items, by decide, by decide, by decide⟩
  | object members =>
    cases members with
    | nil => exact ⟨'\x7b', _, layout.chars_object_nil level, by decide, by decide, by decide⟩
    | cons m members =>
      exact ⟨'\x7b', _, layout.chars_object level m members, by decide, by decide, by decide⟩

/-- A mark is read behind blanks. -/
theorem mark_blank_append {c : Char} (blank : Blank blanks) (not_blank : isBlank c = false)
    (rest : List Char) :
  mark c (blanks ++ c :: rest) = .ok ((), rest)
  := by
  unfold mark
  rw [dropBlanks_blank_append blank, dropBlanks_cons not_blank]
  apply if_pos rfl

/-- The name of a member is read. -/
theorem memberName_written (name : String) (blank : Blank blanks) (rest : List Char) :
  memberName unitCharacter (blanks ++ (quoted name ++ ':' :: rest)) = .ok (name, rest)
  := by
  unfold memberName
  rw [quoted_append, bind_of_ok (mark_blank_append blank (by decide) _),
    bind_of_ok (stringTail_quoted name _)]
  have colon : mark ':' (':' :: rest) = .ok ((), rest) := rfl
  rw [bind_of_ok colon]
  rfl

/-- What is written for a member. -/
def memberChars (layout : Layout) (level : Nat) (m : String × Json) : List Char :=
  quoted m.1 ++ ':' :: (layout.gap ++ layout.chars level m.2)

/-- A member is read back if its value is. -/
theorem member_written (layout : Layout) (level : Nat) (m : String × Json) (blank : Blank blanks)
    (read : value depth (layout.chars level m.2 ++ rest) =
      answer .malformed rest (reread? depth m.2)) :
  member depth (blanks ++ (memberChars layout level m ++ rest)) =
    answer .malformed rest ((reread? depth m.2).map fun v => (m.1, v))
  := by
  unfold member memberChars
  rw [List.append_assoc, List.cons_append, List.append_assoc,
    bind_of_ok (memberName_written m.1 blank _)]
  rw [← value_blank_append layout.gap_blank] at read
  cases reread : reread? depth m.2 with
  | none =>
    rw [reread] at read
    apply bind_of_error read
  | some v =>
    rw [reread] at read
    rw [bind_of_ok read]
    rfl

/-- Items are read back from what is written for them. -/
theorem readsParts_items (layout : Layout) (level : Nat) {items : List Json}
    (read : ∀ v ∈ items, ∀ rest, EndsNumeral rest →
      value depth (layout.chars level v ++ rest) = answer .malformed rest (reread? depth v)) :
  ReadsParts (fun before v => (reread? depth v).map (· :: before))
    (fun items => (· :: items) <$> value depth) (layout.chars level) ']' items
  where
  close_eq := .inl rfl
  starts v := by
    obtain ⟨c, cs, chars_eq, not_blank, c_ne, -⟩ := chars_starts layout level v
    exact ⟨c, cs, chars_eq, not_blank, c_ne⟩
  reads before blanks v rest v_mem blank ends := by
    have read_v := read v v_mem rest ends
    rw [← value_blank_append blank] at read_v
    apply map_answer read_v

/-- Members are read back from what is written for them. -/
theorem readsParts_members (layout : Layout) (level : Nat) {members : List (String × Json)}
    {σ : Type} (insert : σ → String × Json → σ)
    (read : ∀ m ∈ members, ∀ rest, EndsNumeral rest →
      value depth (layout.chars level m.2 ++ rest) = answer .malformed rest (reread? depth m.2)) :
  ReadsParts (fun before m => (reread? depth m.2).map fun v => insert before (m.1, v))
    (fun before => insert before <$> member depth) (memberChars layout level) '\x7d' members
  where
  close_eq := .inr rfl
  starts m := ⟨'"', _, quoted_append m.1 _, by decide, by decide⟩
  reads before blanks m rest m_mem blank ends := by
    have read_m := member_written layout level m blank (read m m_mem rest ends)
    have read_insert := map_answer (f := insert before) read_m
    rwa [Option.map_map] at read_insert

/-- An array is read back if its items are. -/
theorem value_array (layout : Layout) (level : Nat) {items : List Json}
    (read : ∀ depth, ∀ v ∈ items, ∀ rest, EndsNumeral rest →
      value depth (layout.chars (level + 1) v ++ rest) = answer .malformed rest (reread? depth v)) :
  value depth (layout.chars level (.array items) ++ rest) =
    answer .malformed rest (reread? depth (.array items))
  := by
  cases items with
  | nil =>
    rw [layout.chars_array_nil]
    apply (value_cons (by decide) (by decide) _).trans
    cases depth <;> rfl
  | cons item items =>
    rw [layout.chars_array, List.cons_append, List.append_assoc, List.append_assoc,
      List.singleton_append]
    apply (value_cons (by decide) (by decide) _).trans
    cases depth with
    | zero => rfl
    | succ depth =>
      have read_items := (readsParts_items layout (level + 1) (read depth)).parts_eq
        (layout.line_blank (level + 1)) (layout.line_blank level) [] rest
      rw [foldlM_rereadItems?] at read_items
      change arrayTail .wanted (depth + 1) _ = _
      rw [arrayTail_succ, map_answer read_items, reread?]
      cases rereadItems? depth (item :: items) <;> simp

/-- An object is read back if the values of its members are. -/
theorem value_object (layout : Layout) (level : Nat) {members : List (String × Json)}
    (ascending : Assoc.Ascending members)
    (read : ∀ depth, ∀ m ∈ members, ∀ rest, EndsNumeral rest →
      value depth (layout.chars (level + 1) m.2 ++ rest) =
        answer .malformed rest (reread? depth m.2)) :
  value depth (layout.chars level (.object members) ++ rest) =
    answer .malformed rest (reread? depth (.object members))
  := by
  cases members with
  | nil =>
    rw [layout.chars_object_nil]
    apply (value_cons (by decide) (by decide) _).trans
    cases depth <;> rfl
  | cons m members =>
    rw [layout.chars_object, List.cons_append, List.append_assoc, List.append_assoc,
      List.singleton_append]
    apply (value_cons (by decide) (by decide) _).trans
    cases depth with
    | zero => rfl
    | succ depth =>
      have read_members := (readsParts_members layout (level + 1)
        (fun members m => Assoc.insert m.1 m.2 members) (read depth)).parts_eq
        (layout.line_blank (level + 1)) (layout.line_blank level) [] rest
      rw [foldlM_rereadMembers? _ [] ascending] at read_members
      change objectTail .wanted (depth + 1) _ = _
      rw [objectTail_succ, reread?]
      apply (map_answer read_members).trans
      cases rereadMembers? depth (m :: members) <;> simp

/-- What is written for a value is read as the value with its numbers read back. -/
theorem value_chars (layout : Layout) {v : Json} (sorted : v.Sorted) (level : Nat)
    (ends : EndsNumeral rest) :
  value depth (layout.chars level v ++ rest) = answer .malformed rest (reread? depth v)
  := by
  induction v using Json.ind generalizing depth level rest with
  | null =>
    rw [layout.chars_null]
    apply value_words.1
  | bool b =>
    cases b with
    | true =>
      rw [layout.chars_true]
      apply value_words.2.1
    | false =>
      rw [layout.chars_false]
      apply value_words.2.2
  | number n =>
    rw [layout.chars_number]
    apply value_number n ends
  | string s =>
    rw [layout.chars_string]
    apply value_quoted s
  | array items ih =>
    cases sorted with
    | array _ sorted =>
      apply value_array
      intro depth v v_mem rest ends
      apply ih v v_mem (sorted v v_mem) (level + 1) ends
  | object members ih =>
    cases sorted with
    | object _ ascending sorted =>
      apply value_object _ _ ascending
      intro depth m m_mem rest ends
      apply ih m m_mem (sorted m m_mem) (level + 1) ends

/-- The text of a value gives what the value is read back as. -/
theorem toOption_ofText_compact {v : Json} (sorted : v.Sorted) :
  (ofText v.compact).toOption = reread? nestingLimit v
  := by
  have no_more : EndsNumeral [] := by simp [EndsNumeral]
  have blank : dropBlanks [] = [] := rfl
  have text_eq : v.compact.toList = Layout.compact.chars 0 v ++ [] := by
    rw [List.append_nil]
    apply String.toList_ofList
  refine toOption_run ?_ blank
  rw [text_eq, value_chars .compact sorted 0 no_more]
  cases reread? nestingLimit v <;> rfl

/-- Nothing but a string is read back as a string. -/
theorem eq_string_of_reread? {v : Json} {s : String} (read : reread? depth v = some (.string s)) :
  v = .string s
  := by
  cases v with
  | null => cases read
  | bool b => cases read
  | string s' =>
    cases read
    rfl
  | number n =>
    have no_more : EndsNumeral [] := by simp [EndsNumeral]
    obtain ⟨v?, cases, read_chars⟩ := exists_reread n
    rw [reread?, reread?_eq (read_chars _ [] no_more)] at read
    rcases cases _ read with eq | ⟨m, eq⟩ <;> cases eq
  | array items =>
    cases depth with
    | zero => cases read
    | succ depth =>
      obtain ⟨_, _, eq⟩ := Option.map_eq_some_iff.mp read
      cases eq
  | object members =>
    cases depth with
    | zero => cases read
    | succ depth =>
      obtain ⟨_, _, eq⟩ := Option.map_eq_some_iff.mp read
      cases eq

/-- A map is read back from the text of the object with its entries. -/
theorem members_written (layout : Layout) (level : Nat) (map : SortedMap String Json)
    (sorted : ∀ e ∈ map.entries, e.2.Sorted) (rest : List Char) :
  members (layout.chars level (.object map.entries) ++ rest) =
    answer .malformed rest (rereadMap? (nestingLimit - 1) map)
  := by
  unfold rereadMap?
  cases entries_eq : map.entries with
  | nil =>
    rw [layout.chars_object_nil]
    rfl
  | cons m entries =>
    rw [layout.chars_object, List.cons_append, List.append_assoc, List.append_assoc,
      List.singleton_append]
    have read : ∀ e ∈ m :: entries, ∀ rest, EndsNumeral rest →
        value (nestingLimit - 1) (layout.chars (level + 1) e.2 ++ rest) =
          answer .malformed rest (reread? (nestingLimit - 1) e.2) := by
      intro e e_mem rest ends
      rw [← entries_eq] at e_mem
      apply value_chars layout (sorted e e_mem) (level + 1) ends
    have read_entries := (readsParts_members layout (level + 1)
      (fun (found : SortedMap String Json) m => found.insert m.1 m.2) read).parts_eq
      (layout.line_blank (level + 1)) (layout.line_blank level) .empty rest
    rw [← read_entries]
    simp only [member, map_eq_pure_bind, bind_assoc, pure_bind]
    rfl

end Reader

end Tariff.Json
