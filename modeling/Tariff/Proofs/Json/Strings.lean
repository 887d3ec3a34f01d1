import Tariff.Json.Printing
import Tariff.Proofs.Json.Follows

/-!
# Reading strings

A string is read alike with more text behind, and where it can be read it can also be skipped.  A
pair of surrogates is then skipped as two characters.  Every text is read back when it has been
quoted.
-/

namespace Tariff.Json.Reader

variable {settled : Prop} {n : Nat} {tail cs rest : List Char}

/-! ### Strings -/

/-- A hexadecimal digit has one byte. -/
theorem utf8Size_of_hexValue? {c : Char} {digit : Nat} (h : hexValue? c = some digit) :
  c.utf8Size = 1
  := by
  have le_of_hex : c.toNat ≤ 127 := by
    unfold hexValue? at h
    split at h
    case isTrue isDigit =>
      have le_nine : c.toNat ≤ '9'.toNat := (Char.isDigit_iff_toNat.mp isDigit).2
      apply Nat.le_trans le_nine (by decide)
    case isFalse =>
      split at h
      case isTrue lower => apply Nat.le_trans (Char.le_def.mp lower.2) (by decide)
      case isFalse =>
        split at h
        case isTrue upper => apply Nat.le_trans (Char.le_def.mp upper.2) (by decide)
        case isFalse => cases h
  apply Char.utf8Size_eq_one_iff.mpr le_of_hex

/-- A text of hexadecimal digits has as many bytes as digits. -/
theorem utf8ByteSize_of_hexValues {digits : List Nat} (h : cs.mapM hexValue? = some digits) :
  (String.ofList cs).utf8ByteSize = cs.length
  := by
  induction cs generalizing digits with
  | nil => rfl
  | cons c cs ih =>
    simp only [List.mapM_cons, Option.bind_eq_bind, Option.bind_eq_some_iff] at h
    obtain ⟨digit, hex, digits', hexs, -⟩ := h
    rw [← List.singleton_append, String.ofList_append, String.utf8ByteSize_append, ih hexs,
      ← String.singleton_eq_ofList, String.utf8ByteSize_singleton, utf8Size_of_hexValue? hex]
    simp [Nat.add_comm]

/-- A code unit is read from four characters. -/
theorem length_of_codeUnit {unit : Nat} (read : codeUnit cs = .ok (unit, rest)) :
  4 ≤ cs.length
  := by
  unfold codeUnit at read
  split at read
  case isTrue => cases read
  case isFalse enough =>
    split at read
    case h_1 digits hexs =>
      rw [utf8ByteSize_of_hexValues hexs, List.length_take] at enough
      omega
    case h_2 => cases read

/-- Code units are read alike with more text behind. -/
theorem follows_codeUnit :
  Follows settled n tail Eq codeUnit codeUnit
  := by
  intro cs unit rest _ read
  have long := length_of_codeUnit read
  unfold codeUnit at read ⊢
  rw [List.take_append_of_le_length long, List.drop_append_of_le_length long]
  split at read
  case isTrue => cases read
  case isFalse enough =>
    rw [if_neg enough]
    split at read
    case h_1 digits eq =>
      cases read
      exact ⟨by simp, _, fun _ => rfl, rfl⟩
    case h_2 => cases read

/-- Second halves of pairs of surrogates are read alike with more text behind. -/
theorem follows_trailingUnit :
  Follows settled n tail Eq trailingUnit trailingUnit
  := by
  intro cs unit rest short read
  unfold trailingUnit at read
  split at read
  case h_1 => cases read
  case h_2 => cases read
  case h_3 mid =>
    obtain ⟨rest_le, read'⟩ := follows_codeUnit mid unit rest
      (Nat.le_of_succ_le (Nat.le_of_succ_le short)) read
    exact ⟨Nat.le_succ_of_le (Nat.le_succ_of_le rest_le), read'⟩
  case h_4 => cases read

/-- Characters for escaped code units are read alike with more text behind. -/
theorem follows_unitCharacter (unit : Nat) :
  Follows settled n tail Eq (unitCharacter unit) (unitCharacter unit)
  := by
  unfold unitCharacter
  split
  · exact .fail
  · split
    · exact .pure rfl
    · apply follows_trailingUnit.bind
      rintro trailing _ rfl
      split
      · exact .pure rfl
      · exact .fail

/-- The character that a letter behind a backslash stands for. -/
def letterEscape? (c : Char) : Option Char :=
  if c = '"' ∨ c = '\\' ∨ c = '/' then some c
  else if c = 'b' then some '\x08'
  else if c = 'f' then some '\x0c'
  else if c = 'n' then some '\n'
  else if c = 'r' then some '\r'
  else if c = 't' then some '\t'
  else none

/-- A letter behind a backslash is an escape of its own unless it announces a code unit. -/
theorem escaped_cons {c : Char} (finish : Nat → Reader Char) (c_ne : c ≠ 'u') (cs : List Char) :
  escaped finish (c :: cs) =
    match letterEscape? c with
    | some c' => .ok (c', cs)
    | none => .error .malformed
  := by
  simp only [escaped, letterEscape?]
  repeat (split; · rfl)
  rfl

/-- Escapes are read alike with more text behind. -/
theorem follows_escaped {finish : Nat → Reader Char}
    (follows_finish : ∀ n unit, Follows settled n tail Eq (finish unit) (finish unit)) :
  Follows settled n tail Eq (escaped finish) (escaped finish)
  := by
  intro cs c rest short read
  cases cs with
  | nil => cases read
  | cons letter cs =>
    by_cases unit : letter = 'u'
    · subst unit
      have unit_follows : Follows settled n tail Eq (codeUnit >>= finish) (codeUnit >>= finish) := by
        apply follows_codeUnit.bind
        rintro unit _ rfl
        apply follows_finish n unit
      obtain ⟨rest_le, read'⟩ := unit_follows cs c rest (Nat.le_of_succ_le short) read
      exact ⟨Nat.le_succ_of_le rest_le, read'⟩
    · rw [escaped_cons finish unit] at read
      rw [List.cons_append, escaped_cons finish unit]
      split at read
      · cases read
        exact ⟨Nat.le_succ _, c, fun _ => rfl, rfl⟩
      · cases read

/-- What is no quote and no backslash stands for itself in a string. -/
theorem character_cons {c : Char} (finish : Nat → Reader Char) (no_quote : c ≠ '"')
    (no_escape : c ≠ '\\') (cs : List Char) :
  character finish (c :: cs) =
    if c.toNat < 32 then .error .malformed else .ok (some c, cs)
  := by
  simp [character]

/-- Characters of strings are read alike with more text behind. -/
theorem follows_character {finish : Nat → Reader Char}
    (follows_finish : ∀ n unit, Follows settled n tail Eq (finish unit) (finish unit)) :
  Follows settled n tail Eq (character finish) (character finish)
  := by
  intro cs c? rest short read
  cases cs with
  | nil => cases read
  | cons c cs =>
    by_cases quote : c = '"'
    · subst quote
      cases read
      exact ⟨Nat.le_succ _, none, fun _ => rfl, rfl⟩
    · by_cases escape : c = '\\'
      · subst escape
        have escape_follows : Follows settled n tail Eq (some <$> escaped finish)
            (some <$> escaped finish) :=
          (follows_escaped follows_finish).map fun _ _ => congrArg some
        obtain ⟨rest_le, read'⟩ := escape_follows cs c? rest (Nat.le_of_succ_le short) read
        exact ⟨Nat.le_succ_of_le rest_le, read'⟩
      · rw [character_cons finish quote escape] at read
        rw [List.cons_append, character_cons finish quote escape]
        split at read
        case isTrue => cases read
        case isFalse printable =>
          cases read
          rw [if_neg printable]
          exact ⟨Nat.le_succ _, _, fun _ => rfl, rfl⟩

/-- Strings are read alike with more text behind and if more characters are allowed. -/
theorem follows_characters {finish : Nat → Reader Char} {count count' : Nat}
    (follows_finish : ∀ n unit, Follows settled n tail Eq (finish unit) (finish unit))
    (count_le : count ≤ count') :
  Follows settled n tail Eq (characters finish count) (characters finish count')
  := by
  induction count generalizing count' with
  | zero => exact .fail
  | succ count ih =>
    cases count' with
    | zero => cases count_le
    | succ count' =>
      apply (follows_character follows_finish).bind
      rintro c? _ rfl
      cases c? with
      | none => exact .pure rfl
      | some c =>
        apply (ih (Nat.le_of_succ_le_succ count_le)).bind
        rintro cs _ rfl
        exact .pure rfl

/-- Strings are read alike with more text behind. -/
theorem follows_stringTail {finish : Nat → Reader Char}
    (follows_finish : ∀ n unit, Follows settled n tail Eq (finish unit) (finish unit)) :
  Follows settled n tail Eq (stringTail finish) (stringTail finish)
  := by
  intro cs s rest short read
  have string_follows : Follows settled n tail Eq (String.ofList <$> characters finish (cs.length + 1))
      (String.ofList <$> characters finish ((cs ++ tail).length + 1)) := by
    apply (follows_characters follows_finish (by simp)).map
    rintro _ _ rfl
    rfl
  apply string_follows cs s rest short read

/-- Member names follow one another if strings do. -/
theorem follows_memberName {finish finish' : Nat → Reader Char} {R : String → String → Prop}
    (follows_string : Follows settled n tail R (stringTail finish) (stringTail finish')) :
  Follows settled n tail R (memberName finish) (memberName finish')
  := by
  apply (follows_mark '"').bind
  rintro _ _ -
  apply follows_string.bind
  intro name name' related
  apply (follows_mark ':').bind
  rintro _ _ -
  exact .pure related

/-! ### Skipped strings -/

/-- A second half of a pair of surrogates is an escaped code unit. -/
theorem of_trailingUnit {unit : Nat} (read : trailingUnit cs = .ok (unit, rest)) :
  ∃ mid, cs = '\\' :: 'u' :: mid ∧ codeUnit mid = .ok (unit, rest)
  := by
  unfold trailingUnit at read
  split at read
  case h_1 => cases read
  case h_2 => cases read
  case h_3 mid => exact ⟨mid, rfl, read⟩
  case h_4 => cases read

/-- A character for an escaped code unit takes no more text, or the second half of a pair. -/
theorem of_unitCharacter {unit : Nat} {c : Char} (read : unitCharacter unit cs = .ok (c, rest)) :
  rest = cs ∨ ∃ trailing, trailingUnit cs = .ok (trailing, rest)
  := by
  unfold unitCharacter at read
  split at read
  case isTrue => cases read
  case isFalse =>
    split at read
    case isTrue =>
      cases read
      exact .inl rfl
    case isFalse =>
      obtain ⟨trailing, mid, read_trailing, read_c⟩ := bind_eq_ok.mp read
      split at read_c
      case isTrue =>
        obtain rfl : mid = rest := (Prod.mk.inj (Except.ok.inj read_c)).2
        exact .inr ⟨trailing, read_trailing⟩
      case isFalse => cases read_c

/-- A code unit takes no more text than there is. -/
theorem length_le_of_codeUnit {unit : Nat} (read : codeUnit cs = .ok (unit, rest)) :
  rest.length ≤ cs.length
  := by
  have follows : Follows True cs.length [] Eq codeUnit codeUnit := follows_codeUnit
  apply (follows cs unit rest (Nat.le_refl _) read).1

/-- An escape takes no more text than there is. -/
theorem length_le_of_escaped {c : Char} (read : escaped unitCharacter cs = .ok (c, rest)) :
  rest.length ≤ cs.length
  := by
  have follows : Follows True cs.length [] Eq (escaped unitCharacter) (escaped unitCharacter) :=
    follows_escaped fun _ => follows_unitCharacter
  apply (follows cs c rest (Nat.le_refl _) read).1

/-- A string ends with a quote. -/
theorem of_character_none {finish : Nat → Reader Char}
    (read : character finish cs = .ok (none, rest)) :
  cs = '"' :: rest
  := by
  cases cs with
  | nil => cases read
  | cons c cs =>
    by_cases quote : c = '"'
    · subst quote
      cases read
      rfl
    · by_cases escape : c = '\\'
      · subst escape
        obtain ⟨c, -, some_eq⟩ := map_eq_ok.mp read
        cases some_eq
      · rw [character_cons finish quote escape] at read
        split at read
        · cases read
        · cases read

/-- An escaped code unit is skipped. -/
theorem character_skipped_unit {unit : Nat} (read : codeUnit cs = .ok (unit, rest)) :
  character Leaves.skipped.unit ('\\' :: 'u' :: cs) = .ok (some '?', rest)
  := map_eq_ok.mpr ⟨'?', bind_eq_ok.mpr ⟨unit, rest, read, rfl⟩, rfl⟩

/-- A character of a string is skipped as one or as two. -/
theorem character_skipped {c : Char} (read : character unitCharacter cs = .ok (some c, rest)) :
  ∃ c' mid, character Leaves.skipped.unit cs = .ok (some c', mid) ∧ mid.length < cs.length ∧
    (mid = rest ∨ rest.length < mid.length ∧
      ∃ c'', character Leaves.skipped.unit mid = .ok (some c'', rest))
  := by
  cases cs with
  | nil => cases read
  | cons first cs =>
    by_cases quote : first = '"'
    · subst quote
      cases read
    · by_cases escape : first = '\\'
      · subst escape
        obtain ⟨_, read_escaped, _⟩ := map_eq_ok.mp read
        cases cs with
        | nil => cases read_escaped
        | cons letter cs =>
          by_cases unit : letter = 'u'
          · subst unit
            obtain ⟨unit, mid, read_unit, read_c⟩ := bind_eq_ok.mp read_escaped
            have mid_le : mid.length ≤ cs.length := length_le_of_codeUnit read_unit
            have mid_lt : mid.length < ('\\' :: 'u' :: cs).length :=
              Nat.lt_succ_of_lt (Nat.lt_succ_of_le mid_le)
            refine ⟨'?', mid, character_skipped_unit read_unit, mid_lt, ?_⟩
            -- When halves of pairs are skipped each of them is a character of its own.
            rcases of_unitCharacter read_c with rfl | ⟨trailing, read_trailing⟩
            · left
              rfl
            · right
              obtain ⟨cs', rfl, read_second⟩ := of_trailingUnit read_trailing
              have rest_le : rest.length ≤ cs'.length := length_le_of_codeUnit read_second
              have rest_lt : rest.length < ('\\' :: 'u' :: cs').length :=
                Nat.lt_succ_of_lt (Nat.lt_succ_of_le rest_le)
              exact ⟨rest_lt, '?', character_skipped_unit read_second⟩
          · have skipped : escaped Leaves.skipped.unit (letter :: cs) =
                escaped unitCharacter (letter :: cs) := by
              rw [escaped_cons _ unit, escaped_cons _ unit]
            have rest_le : rest.length ≤ (letter :: cs).length := length_le_of_escaped read_escaped
            rw [← skipped] at read_escaped
            have rest_lt : rest.length < ('\\' :: letter :: cs).length := Nat.lt_succ_of_le rest_le
            exact ⟨_, rest, map_eq_ok.mpr ⟨_, read_escaped, rfl⟩, rest_lt, .inl rfl⟩
      · rw [character_cons unitCharacter quote escape] at read
        split at read
        case isTrue => cases read
        case isFalse printable =>
          cases read
          refine ⟨c, _, ?_, Nat.lt_succ_self _, .inl rfl⟩
          rw [character_cons _ quote escape, if_neg printable]

/-- A character and then others are read one after the other. -/
theorem characters_succ {finish : Nat → Reader Char} {count : Nat} {c : Char} {s mid : List Char}
    (first : character finish cs = .ok (some c, mid))
    (more : characters finish count mid = .ok (s, rest)) :
  characters finish (count + 1) cs = .ok (c :: s, rest)
  := bind_eq_ok.mpr ⟨some c, mid, first, bind_eq_ok.mpr ⟨s, rest, more, rfl⟩⟩

/-- The characters of a string are skipped if there may be as many as the text has. -/
theorem characters_skipped {count count' : Nat} {s : List Char}
    (read : characters unitCharacter count cs = .ok (s, rest)) (enough : cs.length < count') :
  ∃ s', characters Leaves.skipped.unit count' cs = .ok (s', rest)
  := by
  induction count generalizing cs s count' with
  | zero => cases read
  | succ count ih =>
    obtain ⟨count', rfl⟩ : ∃ k, count' = k + 1 := Nat.exists_eq_add_one_of_ne_zero (by omega)
    obtain ⟨c?, mid, read_c, read_more⟩ := bind_eq_ok.mp read
    cases c? with
    | none =>
      cases read_more
      rw [of_character_none read_c]
      exact ⟨[], rfl⟩
    | some c =>
      obtain ⟨cs', _, read_cs', pure_eq⟩ := bind_eq_ok.mp read_more
      cases pure_eq
      obtain ⟨c', mid', skip_first, mid_lt, rfl | ⟨rest_lt, c'', skip_second⟩⟩ :=
        character_skipped read_c
      · have enough' : mid'.length < count' := by omega
        obtain ⟨s', skip_more⟩ := ih read_cs' enough'
        exact ⟨_, characters_succ skip_first skip_more⟩
      · obtain ⟨count', rfl⟩ : ∃ k, count' = k + 1 := Nat.exists_eq_add_one_of_ne_zero (by omega)
        have enough' : mid.length < count' := by omega
        obtain ⟨s', skip_more⟩ := ih read_cs' enough'
        exact ⟨_, characters_succ skip_first (characters_succ skip_second skip_more)⟩

/-- Where a string can be read it can be skipped. -/
theorem follows_skipped_stringTail :
  Follows settled n [] (fun _ _ => True) (stringTail unitCharacter) (stringTail Leaves.skipped.unit)
  := by
  intro cs s rest short read
  have follows : Follows settled n [] Eq (stringTail unitCharacter) (stringTail unitCharacter) :=
    follows_stringTail fun _ => follows_unitCharacter
  obtain ⟨rest_le, -⟩ := follows cs s rest short read
  obtain ⟨s, read_characters, rfl⟩ := map_eq_ok.mp read
  obtain ⟨s', skip⟩ := characters_skipped read_characters (Nat.lt_succ_self cs.length)
  rw [List.append_nil, List.append_nil]
  exact ⟨rest_le, _, fun _ => map_eq_ok.mpr ⟨s', skip, rfl⟩, trivial⟩

/-! ### Quoted texts -/

/-- A digit is read back as its value. -/
theorem hexValue?_digitChar {digit : Nat} (h : digit < 16) :
  hexValue? (Nat.digitChar digit) = some digit
  := by
  revert digit
  decide

/-- An escaped control character is read back. -/
theorem character_controlEscape {c : Char} (control : c.toNat < 32) (cs : List Char) :
  character unitCharacter (controlEscape c ++ cs) = .ok (some c, cs)
  := by
  have hexs : ['0', '0', Nat.digitChar (c.toNat / 16), Nat.digitChar (c.toNat % 16)].mapM
      hexValue? = some [0, 0, c.toNat / 16, c.toNat % 16] := by
    have zero : hexValue? '0' = some 0 := rfl
    have high := hexValue?_digitChar (show c.toNat / 16 < 16 by omega)
    have low := hexValue?_digitChar (show c.toNat % 16 < 16 by omega)
    simp [zero, high, low]
  have read_unit : codeUnit
      ('0' :: '0' :: Nat.digitChar (c.toNat / 16) :: Nat.digitChar (c.toNat % 16) :: cs) =
        .ok (c.toNat, cs) := by
    have bytes := utf8ByteSize_of_hexValues hexs
    simp only [codeUnit, List.take_succ_cons, List.take_zero, bytes, hexs]
    simp [Nat.div_add_mod]
  have read_c : unitCharacter c.toNat cs = .ok (c, cs) := by
    have no_trailing : ¬ (0xDC00 ≤ c.toNat ∧ c.toNat ≤ 0xDFFF) := by omega
    have no_leading : c.toNat < 0xD800 ∨ 0xDBFF < c.toNat := by omega
    rw [unitCharacter, if_neg no_trailing, if_pos no_leading, Char.ofNat_toNat]
    rfl
  apply map_eq_ok.mpr ⟨c, bind_eq_ok.mpr ⟨c.toNat, cs, read_unit, read_c⟩, rfl⟩

/-- A character is read back from what stands for it between quotes. -/
theorem character_escape (c : Char) (cs : List Char) :
  character unitCharacter (escape c ++ cs) = .ok (some c, cs)
  := by
  unfold escape
  split
  case isTrue eq => rw [eq]; rfl
  split
  case isTrue eq => rw [eq]; rfl
  split
  case isTrue eq => rw [eq]; rfl
  split
  case isTrue eq => rw [eq]; rfl
  split
  case isTrue eq => rw [eq]; rfl
  split
  case isTrue eq => rw [eq]; rfl
  split
  case isTrue eq => rw [eq]; rfl
  split
  case isTrue control => apply character_controlEscape control cs
  case isFalse no_quote no_escape _ _ _ _ _ printable =>
    rw [List.singleton_append, character_cons _ no_quote no_escape, if_neg printable]

/-- Characters are read back from what stands for them between quotes. -/
theorem characters_escape (s : List Char) {count : Nat} (enough : s.length < count) :
  characters unitCharacter count (s.flatMap escape ++ '"' :: rest) = .ok (s, rest)
  := by
  induction s generalizing count with
  | nil =>
    cases count with
    | zero => cases enough
    | succ count => rfl
  | cons c s ih =>
    cases count with
    | zero => cases enough
    | succ count =>
      rw [List.flatMap_cons, List.append_assoc]
      apply characters_succ (character_escape c _) (ih (Nat.lt_of_succ_lt_succ enough))

/-- There are at least as many characters as parts if something is written for each part. -/
theorem length_le_length_flatMap {α : Type} {write : α → List Char}
    (written : ∀ a, 1 ≤ (write a).length) (as : List α) :
  as.length ≤ (as.flatMap write).length
  := by
  induction as with
  | nil => apply Nat.le_refl _
  | cons a as ih =>
    have some_written := written a
    rw [List.flatMap_cons, List.length_append, List.length_cons]
    omega

/-- Something is written for every character. -/
theorem one_le_length_escape (c : Char) :
  1 ≤ (escape c).length
  := by
  unfold escape
  repeat' split
  all_goals simp [controlEscape]

/-- A quoted text is read back. -/
theorem stringTail_quoted (s : String) (rest : List Char) :
  stringTail unitCharacter (s.toList.flatMap escape ++ '"' :: rest) = .ok (s, rest)
  := by
  have enough := length_le_length_flatMap one_le_length_escape s.toList
  apply map_eq_ok.mpr
  refine ⟨s.toList, characters_escape s.toList ?_, String.ofList_toList⟩
  rw [List.length_append]
  omega

end Tariff.Json.Reader
