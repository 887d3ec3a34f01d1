import Tariff.Proofs.Binary64.Integers
import Tariff.Proofs.Json.RereadNumbers
import Tariff.Proofs.Json.SingleFields
import Tariff.Proofs.Usage.DetailForms
import Tariff.Proofs.Usage.LenientEntries

/-!
# Integers in texts

Quota and the integer fields of entries may be given as JSON integers, which are taken exactly, or as
their decimal texts, which are taken as binary64 numbers.  The main statement says for which integers
both give the same: those of 53 bits up to a power of two and the largest one, for token counts also
the negative ones, and for the kind of an entry all.
-/

namespace Tariff

open Binary64 (IsShort ofInt64)

variable {n : Int64}

/-- The JSON integer. -/
def numberOf (n : Int64) : Json :=
  .number (.integer n.toInt)

/-- The decimal text of an integer as a JSON string. -/
def decimalOf (n : Int64) : Json :=
  .string (Json.Number.integer n.toInt).toText

/-! ### Texts with one member -/

/-- The text of an object with one member. -/
def memberText (name : String) (v : Json) : String :=
  (Json.object [(name, v)]).compact

/-- The only member of a text is read, if it holds a string. -/
theorem memberList_string (name s : String) :
  Json.memberList (memberText name (.string s)) = .ok [(name, .string s)]
  := by
  apply Json.memberList_compact
  · simp [Json.Sorted.string]
  · simp [Json.reread?]

/-- The only member of a text is read, if it holds an integer of 64 bits. -/
theorem memberList_numberOf (n : Int64) (name : String) :
  Json.memberList (memberText name (numberOf n)) = .ok [(name, numberOf n)]
  := by
  apply Json.memberList_compact
  · simp [numberOf, Json.Sorted.number]
  · simp [numberOf, Json.reread?, Json.Number.reread?_integer (Json.inRange_int64 n)]

/-! ### Uses -/

/-- How a field uses an integer. -/
inductive IntegerUse where
  /-- As it is. -/
  | integer
  /-- As the number of a kind of entry. -/
  | kind
  /-- As a number of tokens, none for a negative one. -/
  | tokens
deriving DecidableEq

/-- The integers that are used alike whether they are given as integers or as texts. -/
def IntegerUse.Agrees : IntegerUse → Int64 → Prop
  | .integer, n => n = Int64.maxValue ∨ IsShort n.toInt
  | .kind, _ => True
  | .tokens, n => n < 0 ∨ n = Int64.maxValue ∨ IsShort n.toInt

namespace LenientNumber

/-- A JSON integer of 64 bits is taken exactly. -/
theorem int64?_numberOf (n : Int64) :
  int64? (numberOf n) = some n
  := by
  have bits : Int64.minValue.toInt ≤ n.toInt ∧ n.toInt ≤ Int64.maxValue.toInt := by
    rw [← Int64.le_iff_toInt_le, ← Int64.le_iff_toInt_le]
    exact ⟨n.minValue_le, n.le_maxValue⟩
  have taken : ofInt n.toInt = .integer n := by
    rw [ofInt, if_pos bits, Int64.ofInt_toInt]
  simp [int64?, numberOf, ofJson?, taken, toInt64]

/-- The text of an integer is taken as the number nearest to the integer. -/
theorem int64?_decimalOf (n : Int64) :
  int64? (decimalOf n) = some (ofInt64 n).toInt64
  := by
  have not_blank : Text.isAllBlank (Json.Number.integer n.toInt).toText = false := by
    rw [Json.Number.toText, Json.Number.chars_integer]
    apply Binary64.isAllBlank_written
  simp [int64?, decimalOf, ofJson?, not_blank, toInt64, Binary64.ofText_int64]

/-- A number of tokens is no negative number. -/
theorem tokenCount_eq_of_nonpos {v : Json} (found : int64? v = some n) (nonpos : n ≤ 0) :
  tokenCount v = 0
  := by
  have toInt_le : n.toInt ≤ 0 := Int64.le_iff_toInt_le.mp nonpos
  rw [tokenCount, found, Option.getD_some, Int.toNat_of_nonpos toInt_le]
  rfl

/-- Different positive numbers of tokens differ. -/
theorem tokenCount_inj {m : Int64} {v w : Json} (found : int64? v = some m) (found' : int64? w = some n)
    (nonneg : 0 ≤ m) (nonneg' : 0 ≤ n) :
  tokenCount v = tokenCount w ↔ m = n
  := by
  rw [Int64.le_iff_toInt_le, Int64.toInt_zero] at nonneg nonneg'
  have lt := m.toInt_lt
  have lt' := n.toInt_lt
  rw [tokenCount, tokenCount, found, found', Option.getD_some, Option.getD_some, ← Int64.toInt_inj,
    ← UInt64.toNat_inj, UInt64.toNat_ofNat', UInt64.toNat_ofNat']
  omega

/-- An integer and its text are the same number of tokens if the integer is negative or comes back
from the number nearest to it. -/
theorem tokenCount_decimalOf_eq_iff (n : Int64) :
  tokenCount (decimalOf n) = tokenCount (numberOf n) ↔ IntegerUse.tokens.Agrees n
  := by
  -- Zero comes back and the nearest number keeps the order, so that both have the same sign.
  have zero_back : (ofInt64 0).toInt64 = 0 := by decide +kernel
  rw [IntegerUse.Agrees, ← Binary64.toInt64_ofInt64_eq_iff]
  rcases Int64.lt_or_le n 0 with negative | nonneg
  · have nonpos : (ofInt64 n).toInt64 ≤ 0 := by
      rw [← zero_back]
      exact Binary64.toInt64_ofInt64_mono (Int64.le_of_lt negative)
    rw [tokenCount_eq_of_nonpos (int64?_decimalOf n) nonpos,
      tokenCount_eq_of_nonpos (int64?_numberOf n) (Int64.le_of_lt negative)]
    simp [negative]
  · have nonneg' : 0 ≤ (ofInt64 n).toInt64 := by
      rw [← zero_back]
      exact Binary64.toInt64_ofInt64_mono nonneg
    rw [tokenCount_inj (int64?_decimalOf n) (int64?_numberOf n) nonneg' nonneg]
    simp [Int64.not_lt.mpr nonneg]

end LenientNumber

namespace EntryKind

/-- No kind has a number that is not positive or too large. -/
theorem ofNumber_of_outside (outside : n ≤ 0 ∨ 5 < n) :
  ofNumber n = .unknown
  := by
  have none_eq : [topUp, consume, manage, system, error].find? (fun kind => kind.number = n) = none := by
    rw [List.find?_eq_none]
    intro kind kind_mem found
    obtain rfl := of_decide_eq_true found
    revert outside kind_mem
    cases kind <;> decide
  rw [ofNumber, none_eq, Option.getD_none]

/-- An integer and the number nearest to it are the number of the same kind. -/
theorem ofNumber_ofInt64 (n : Int64) :
  ofNumber (ofInt64 n).toInt64 = ofNumber n
  := by
  -- Only one to five are numbers of kinds: they come back, as zero and six do, which bound the others.
  have zero_back : (ofInt64 0).toInt64 = 0 := by decide +kernel
  have six_back : (ofInt64 6).toInt64 = 6 := by decide +kernel
  rcases Int64.le_total n 0 with nonpos | nonneg
  · have nonpos' := Binary64.toInt64_ofInt64_mono nonpos
    rw [zero_back] at nonpos'
    rw [ofNumber_of_outside (.inl nonpos), ofNumber_of_outside (.inl nonpos')]
  · rcases Int64.le_total 6 n with large | small
    · have large' := Binary64.toInt64_ofInt64_mono large
      have five_lt : (5 : Int64) < 6 := by decide
      rw [six_back] at large'
      rw [ofNumber_of_outside (.inr (Int64.lt_of_lt_of_le five_lt large)),
        ofNumber_of_outside (.inr (Int64.lt_of_lt_of_le five_lt large'))]
    · have isShort : IsShort n.toInt := by
        have lower : 0 ≤ n.toInt := Int64.le_iff_toInt_le.mp nonneg
        have upper : n.toInt ≤ 6 := Int64.le_iff_toInt_le.mp small
        have le : n.toInt.natAbs ≤ 6 := by omega
        exact Binary64.isShort_of_lt (le.trans_lt (by decide))
      rw [(Binary64.toInt64_ofInt64_eq_iff n).mpr (.inr isShort)]

end EntryKind

/-- Quota comes back from its text if it comes back from the number nearest to it. -/
theorem Quota.ofText_toText_eq_iff (n : Int64) :
  ofText (toText ⟨n⟩) = ⟨n⟩ ↔ IntegerUse.integer.Agrees n
  := by
  have text_eq : toText ⟨n⟩ = (Json.Number.integer n.toInt).toText := rfl
  rw [ofText, ofReal, Binary64.finitePart_of_isFinite (Binary64.isFinite_ofText _), text_eq,
    Binary64.ofText_int64, Quota.mk.injEq]
  exact Binary64.toInt64_ofInt64_eq_iff n

/-- Quota does not always come back from its text. -/
theorem Quota.not_forall_ofText_toText :
  ¬ ∀ q : Quota, ofText q.toText = q
  := by
  intro back
  have lost : ofText (toText ⟨9007199254740993⟩) = ⟨9007199254740992⟩ := by decide +kernel
  rw [back] at lost
  revert lost
  decide

/-! ### Price details -/

namespace UsageDetail

/-- How a field of price details uses an integer; none if it is no integer field. -/
def Field.use? : Field → Option IntegerUse
  | .cacheWriteTokens | .cacheReadTokens | .reasoningTokens => some .tokens
  | .fullQuota => some .integer
  | _ => none

/-- Every field of details can be set on its own. -/
theorem sets (f : Field) :
  fill.Sets f fun v detail => detail.set f v
  where
  fills _ _ := rfl
  commutes _ detail v w g_ne := congrArg some (set_comm detail g_ne.symm w v)

/-- An integer field of details is the same for an integer and its text if they are used alike. -/
theorem terms_set_eq_iff {f : Field} {use : IntegerUse} (used : f.use? = some use)
    (detail : UsageDetail) (n : Int64) :
  (detail.set f (decimalOf n)).terms = (detail.set f (numberOf n)).terms ↔ use.Agrees n
  := by
  have tokens_iff := LenientNumber.tokenCount_decimalOf_eq_iff n
  have number_eq := LenientNumber.int64?_numberOf n
  have decimal_eq := LenientNumber.int64?_decimalOf n
  cases f with
  | cacheWriteTokens | cacheReadTokens | reasoningTokens =>
    cases used
    simp [set, terms, tokens_iff]
  | fullQuota =>
    cases used
    simp [set, terms, number_eq, decimal_eq, IntegerUse.Agrees, Binary64.toInt64_ofInt64_eq_iff]
  | _ => cases used

/-- Two values hold price details each, as objects or as texts, which differ in the value of one field
and nothing else. -/
inductive DifferIn (f : Field) (v v' : Json) : Json → Json → Prop
  | object (name : String) (before behind : List (String × Json))
      (named : Field.ofLabel? name = some f) :
      DifferIn f v v' (.object (before ++ (name, v) :: behind))
        (.object (before ++ (name, v') :: behind))
  | text (text text' : String) (differ : shape.DifferIn f v v' text text') :
      DifferIn f v v' (.string text) (.string text')

/-- Values that differ in one field of the details that they hold give the same details but for that
field, or no details. -/
theorem DifferIn.exists_detail {f : Field} {v v' details details' : Json}
    (differ : DifferIn f v v' details details') :
  ∃ detail? : Option UsageDetail,
    ofJson? details = detail?.map (set · f v) ∧ ofJson? details' = detail?.map (set · f v')
  := by
  cases differ with
  | object name before behind named =>
    have named : shape.named? name = some f := named
    obtain ⟨detail?, detail_eq⟩ := (sets f).exists_foldlM_take_eq_map named before behind empty
    refine ⟨detail?, ?_, ?_⟩
    · rw [ofJson?, ofMembers?, ofMembersFrom?_eq_foldlM, detail_eq]
    · rw [ofJson?, ofMembers?, ofMembersFrom?_eq_foldlM, detail_eq]
  | text text text' differ =>
    obtain ⟨not_blank, not_blank'⟩ := differ.isAllBlank
    have distinct : shape.order.Nodup := by decide
    obtain ⟨detail?, read, read'⟩ :=
      differ.exists_record (sets f) fills_shape (fun _ => rfl) distinct empty
    refine ⟨detail?, ?_, ?_⟩
    · rw [ofJson?, not_blank, if_neg Bool.false_ne_true]
      exact read
    · rw [ofJson?, not_blank', if_neg Bool.false_ne_true]
      exact read'

end UsageDetail

/-! ### Entries -/

namespace UsageEntry

/-- How a field of an entry uses an integer; none if it is no integer field. -/
def Field.use? : Field → Option IntegerUse
  | .id | .quota => some .integer
  | .kind => some .kind
  | .promptTokens | .completionTokens => some .tokens
  | .modelName | .terms => none

/-- Every field of an entry but the model name can be set on its own. -/
theorem sets {f : Field} (ne : f ≠ .modelName) :
  fill.Sets f fun v entry => entry.set f v
  where
  fills entry v := by
    have accepted : f.accepts v = true := by
      cases f with
      | modelName => exact absurd rfl ne
      | _ => rfl
    rw [fill, if_pos accepted]
  commutes g entry v w g_ne := fill_set entry g_ne v w

/-- An integer field of an entry is the same for an integer and its text if they are used alike. -/
theorem set_eq_iff {f : Field} {use : IntegerUse} (used : f.use? = some use) (entry : UsageEntry)
    (n : Int64) :
  entry.set f (decimalOf n) = entry.set f (numberOf n) ↔ use.Agrees n
  := by
  have tokens_iff := LenientNumber.tokenCount_decimalOf_eq_iff n
  have number_eq := LenientNumber.int64?_numberOf n
  have decimal_eq := LenientNumber.int64?_decimalOf n
  cases f with
  | promptTokens | completionTokens =>
    cases used
    simp [set, tokens_iff]
  | id | quota =>
    cases used
    simp [set, number_eq, decimal_eq, IntegerUse.Agrees, Binary64.toInt64_ofInt64_eq_iff]
  | kind =>
    cases used
    simp [set, number_eq, decimal_eq, IntegerUse.Agrees, EntryKind.ofNumber_ofInt64]
  | modelName | terms => cases used

/-- Where one of two texts that differ in the value of a field holds an entry, so does the other. -/
theorem exists_entry_of_differIn {f : Field} {v v' : Json} {text text' : String} {entry : UsageEntry}
    (ne : f ≠ .modelName) (differ : shape.DifferIn f v v' text text')
    (decoded : reader.run text = .ok entry) :
  ∃ base : UsageEntry, entry = base.set f v ∧ reader.run text' = .ok (base.set f v')
  := by
  have distinct : shape.order.Nodup := by decide
  obtain ⟨base?, read, read'⟩ :=
    differ.exists_record (sets ne) fills_shape (fun _ => rfl) distinct {}
  obtain ⟨base, rfl, entry_eq⟩ :=
    Option.map_eq_some_iff.mp (read.symm.trans (Except.toOption_eq_some.mpr decoded))
  exact ⟨base, entry_eq.symm, Except.toOption_eq_some.mp read'⟩

/-- Quota comes back from its text exactly for integers that are used alike as integers and as texts.
The same holds for an entry that has an integer in one of its fields, or in one of the fields of its
price details: it is read as the same entry from the text of the integer. -/
theorem integer_text_iff (n : Int64) :
  (Quota.ofText (Quota.toText ⟨n⟩) = ⟨n⟩ ↔ IntegerUse.integer.Agrees n) ∧
    ∀ (text text' : String) (entry : UsageEntry), reader.run text = .ok entry →
      (∀ (f : Field) (use : IntegerUse), f.use? = some use →
        shape.DifferIn f (numberOf n) (decimalOf n) text text' →
        ∃ entry', reader.run text' = .ok entry' ∧ (entry' = entry ↔ use.Agrees n)) ∧
      (∀ (f : UsageDetail.Field) (use : IntegerUse) (details details' : Json), f.use? = some use →
        UsageDetail.DifferIn f (numberOf n) (decimalOf n) details details' →
        shape.DifferIn .terms details details' text text' →
        ∃ entry', reader.run text' = .ok entry' ∧
          (entry' = entry ↔ entry.terms = none ∨ use.Agrees n))
  := by
  refine ⟨Quota.ofText_toText_eq_iff n, fun text text' entry decoded => ⟨?_, ?_⟩⟩
  · intro f use used differ
    have ne : f ≠ .modelName := by
      rintro rfl
      cases used
    obtain ⟨base, rfl, read'⟩ := exists_entry_of_differIn ne differ decoded
    exact ⟨_, read', set_eq_iff used base n⟩
  · intro f use details details' used differ differ_terms
    -- Details that cannot be read are none with the integer and with its text.
    obtain ⟨base, rfl, read'⟩ := exists_entry_of_differIn (by decide) differ_terms decoded
    obtain ⟨detail?, detail_eq, detail_eq'⟩ := differ.exists_detail
    refine ⟨_, read', ?_⟩
    cases detail? with
    | none => simp [set, detail_eq, detail_eq']
    | some detail =>
      simp [set, detail_eq, detail_eq', UsageDetail.terms_set_eq_iff used detail n]

/-- With an odd integer of 54 bits and with its text entries have different quota, but the same number
of tokens, which is none as the integer is negative. -/
theorem integer_text_odd :
  let odd := numberOf (-9007199254740993)
  let text := decimalOf (-9007199254740993)
  Quota.ofText (Quota.toText ⟨-9007199254740993⟩) ≠ ⟨-9007199254740993⟩ ∧
    (∃ entry entry', reader.run (memberText "quota" odd) = .ok entry ∧
      reader.run (memberText "quota" text) = .ok entry' ∧ entry' ≠ entry) ∧
    ∃ entry, reader.run (memberText "other" (.string (memberText "cache_tokens" odd))) = .ok entry ∧
      reader.run (memberText "other" (.string (memberText "cache_tokens" text))) = .ok entry
  := by
  intro odd text
  obtain ⟨quota_iff, entry_iff⟩ := integer_text_iff (-9007199254740993)
  have long : ¬ IntegerUse.integer.Agrees (-9007199254740993) := by
    rintro (largest | isShort)
    · revert largest
      decide
    · revert isShort
      exact Binary64.not_isShort_of_odd (by decide) (by decide)
  have number_read := memberList_numberOf (-9007199254740993)
  refine ⟨fun back => long (quota_iff.mp back), ?_, ?_⟩
  · have readable : (reader.run (memberText "quota" odd)).toOption.isSome = true := by decide +kernel
    obtain ⟨entry, some_eq⟩ := Option.isSome_iff_exists.mp readable
    have decoded := Except.toOption_eq_some.mp some_eq
    have differ : shape.DifferIn .quota odd text (memberText "quota" odd) (memberText "quota" text) :=
      .object "quota" [] [] (by decide) (number_read "quota") (memberList_string "quota" _)
    obtain ⟨entry', decoded', same_iff⟩ := (entry_iff _ _ entry decoded).1 _ _ rfl differ
    exact ⟨entry, entry', decoded, decoded', fun same => long (same_iff.mp same)⟩
  · have readable : (reader.run (memberText "other"
        (.string (memberText "cache_tokens" odd)))).toOption.isSome = true := by decide +kernel
    obtain ⟨entry, some_eq⟩ := Option.isSome_iff_exists.mp readable
    have decoded := Except.toOption_eq_some.mp some_eq
    have differ : UsageDetail.shape.DifferIn .cacheReadTokens odd text
        (memberText "cache_tokens" odd) (memberText "cache_tokens" text) :=
      .object "cache_tokens" [] [] (by decide) (number_read "cache_tokens")
        (memberList_string "cache_tokens" _)
    have differ_terms : shape.DifferIn .terms (.string (memberText "cache_tokens" odd))
        (.string (memberText "cache_tokens" text)) _ _ :=
      .object "other" [] [] (by decide) (memberList_string "other" _) (memberList_string "other" _)
    obtain ⟨entry', decoded', same_iff⟩ :=
      (entry_iff _ _ entry decoded).2 _ _ _ _ rfl (.text _ _ differ) differ_terms
    obtain rfl := same_iff.mpr (.inr (.inl (by decide)))
    exact ⟨entry', decoded, decoded'⟩

end UsageEntry

end Tariff
