import Tariff.Proofs.Usage.DetailForms

/-!
# Recorded price details

An entry holds price details as a JSON value or as a text with one.  The main statement says when
both give the same: always but for arrays with no more items than details have fields, which are
refused as a value and accepted in a text.
-/

namespace Tariff.UsageEntry

open Json UsageDetail

/-- The text of an entry that holds the given price details and nothing else. -/
def textWith (details : String) : String :=
  "\x7b\"metadata\":" ++ details ++ "\x7d"

/-- The characters of an entry with price details. -/
theorem toList_textWith (details : String) :
  (textWith details).toList =
    '\x7b' :: '"' :: ("metadata".toList.flatMap escape ++
      '"' :: ':' :: (details.toList ++ ['\x7d']))
  := by
  simp only [textWith, String.toList_append]
  rfl

/-- A value is read behind the name of its field as it is read alone. -/
theorem of_value_of_ofText {details : String} {v v' : Json} {rest : List Char}
    (isText : ofText details = .ok v)
    (read : Reader.value (nestingLimit - 1) (details.toList ++ ['\x7d']) = .ok (v', rest)) :
  v' = v ∧ dropBlanks rest = ['\x7d']
  := by
  have no_numeral : EndsNumeral ['\x7d'] := by simp [EndsNumeral, isNumeric]
  have ends : EndsNumeral [] := by simp [EndsNumeral]
  obtain ⟨blanks, read_alone, blank⟩ := Reader.run_eq_ok.mp isText
  have read_more := Reader.value_append no_numeral (Nat.le_refl nestingLimit) read_alone
  have read_deeper := Reader.value_append ends (Nat.sub_le nestingLimit 1) read
  rw [List.append_nil, List.append_nil, read_more] at read_deeper
  cases read_deeper
  constructor
  · rfl
  · unfold dropBlanks at blank ⊢
    rw [List.dropWhile_append, blank]
    rfl

/-- The details of an entry are read as a value behind their name. -/
theorem of_recordMember {cs behind : List Char} {state : UsageEntry × List Field}
    (read : Reader.recordMember shape ({}, [])
      ('"' :: ("metadata".toList.flatMap escape ++ '"' :: ':' :: cs)) = .ok (state, behind)) :
  ∃ v, Reader.value (nestingLimit - 1) cs = .ok (v, behind) ∧
    state = ({ terms := (UsageDetail.ofJson? v).map UsageDetail.terms }, [.terms])
  := by
  have read_name := Reader.stringTail_quoted "metadata" (':' :: cs)
  have named : shape.named? "metadata" = some .terms := by decide
  unfold Reader.recordMember at read
  dsimp only at read
  rw [Reader.bind_of_ok (show Reader.mark '"' _ = .ok ((), _) from rfl),
    Reader.bind_of_ok read_name, named] at read
  dsimp only at read
  rw [if_neg List.not_mem_nil,
    Reader.bind_of_ok (show Reader.mark ':' _ = .ok ((), _) from rfl)] at read
  obtain ⟨entry, mid, read_field, pure_eq⟩ := Reader.bind_eq_ok.mp read
  obtain ⟨v, mid', read_v, pure_eq'⟩ := Reader.bind_eq_ok.mp read_field
  cases pure_eq
  cases pure_eq'
  exact ⟨v, read_v, rfl⟩

/-- An entry with nothing but price details has the terms that the details amount to. -/
theorem terms_of_textWith {details : String} {v : Json} {entry : UsageEntry}
    (isText : ofText details = .ok v) (read : reader.run (textWith details) = .ok entry) :
  entry.terms = (UsageDetail.ofJson? v).map UsageDetail.terms
  := by
  obtain ⟨rest, read, -⟩ := Reader.run_eq_ok.mp read
  rw [toList_textWith] at read
  obtain ⟨⟨record, seen⟩, mid, read_parts, finished⟩ := Reader.bind_eq_ok.mp read
  obtain ⟨state, behind, read_member, read_more⟩ := Reader.bind_eq_ok.mp read_parts
  obtain ⟨v', read_v, rfl⟩ := of_recordMember read_member
  obtain ⟨rfl, closing⟩ := of_value_of_ofText isText read_v
  -- There is nothing behind the details but the closing bracket.
  unfold Reader.moreParts at read_more
  simp only [List.length_cons, closing, if_true] at read_more
  cases read_more
  dsimp only at finished
  split at finished
  case isTrue =>
    cases finished
    rfl
  case isFalse => cases finished

/-- Details in a text are those that a record in it gives, if it holds a value. -/
theorem ofJson?_string {text : String} {v : Json} (isText : ofText text = .ok v) :
  UsageDetail.ofJson? (.string text) = (UsageDetail.reader.run text).toOption
  := by
  simp [UsageDetail.ofJson?, isAllBlank_of_ofText isText]

/-- Price details in an entry and in a text in it give the same terms, except that an array with no
more items than details have fields gives terms from a text only.  A value that is no text gives
terms only if it is an object. -/
theorem terms_eq_iff {text quoted : String} {v : Json} {entry entry' : UsageEntry}
    (isText : ofText text = .ok v) (no_string : v.string? = none) (distinct : DistinctNames text)
    (isQuoted : ofText quoted = .ok (.string text))
    (read : reader.run (textWith text) = .ok entry)
    (read' : reader.run (textWith quoted) = .ok entry') :
  (entry.terms = entry'.terms ↔
      ∀ items, v = .array items → UsageDetail.Field.all.length < items.length) ∧
    (entry.terms.isSome → ∃ members, v = .object members)
  := by
  rw [terms_of_textWith isText read, terms_of_textWith isQuoted read', ofJson?_string isText]
  cases v with
  | object members =>
    rw [toOption_run_of_object isText distinct]
    simp [UsageDetail.ofJson?]
  | array items =>
    have some_iff := isSome_run_of_array isText
    constructor
    · constructor
      · intro same items' items_eq
        cases items_eq
        apply Nat.lt_of_not_le
        intro few
        obtain ⟨detail, some_eq⟩ := Option.isSome_iff_exists.mp (some_iff.mpr few)
        rw [some_eq] at same
        cases same
      · intro many
        have none_eq : (UsageDetail.reader.run text).toOption = none := by
          apply Option.not_isSome_iff_eq_none.mp
          intro is_some
          apply Nat.not_lt_of_le (some_iff.mp is_some) (many items rfl)
        rw [none_eq]
        rfl
    · intro impossible
      cases impossible
  | string s => cases no_string
  | null =>
    rw [toOption_run_of_scalar isText rfl]
    simp [UsageDetail.ofJson?]
  | bool b =>
    rw [toOption_run_of_scalar isText rfl]
    simp [UsageDetail.ofJson?]
  | number n =>
    rw [toOption_run_of_scalar isText rfl]
    simp [UsageDetail.ofJson?]

/-- The text of an array of one number, and the string with that text. -/
theorem ofText_one :
  ofText "[1]" = .ok (.array [.number (.integer 1)]) ∧ DistinctNames "[1]" ∧
    ofText "\"[1]\"" = .ok (.string "[1]")
  := by
  refine ⟨rfl, ?_, rfl⟩
  intro members read
  have refused : Reader.membersBackwards.run "[1]" = .error .mismatched := rfl
  cases refused.symm.trans read

/-- An array of an input ratio gives no terms as it is, but in a text it does. -/
theorem terms_ne_of_array :
  let entry : UsageEntry := {}
  let entry' : UsageEntry := { terms := some { empty with inputRatio := some 1 }.terms }
  reader.run (textWith "[1]") = .ok entry ∧ reader.run (textWith "\"[1]\"") = .ok entry' ∧
    ¬ entry.terms = entry'.terms
  := by
  have read : reader.run (textWith "[1]") = .ok {} := by decide +kernel
  have read' : reader.run (textWith "\"[1]\"") =
      .ok { terms := some { empty with inputRatio := some 1 }.terms } := by decide +kernel
  obtain ⟨isText, distinct, isQuoted⟩ := ofText_one
  refine ⟨read, read', fun same => ?_⟩
  have many := (terms_eq_iff isText rfl distinct isQuoted read read').1.mp same _ rfl
  revert many
  decide

/-- Price details do not always mean the same in an entry and in a text in it. -/
theorem not_forall_terms_eq :
  ¬ ∀ (text quoted : String) (v : Json) (entry entry' : UsageEntry), ofText text = .ok v →
    v.string? = none → DistinctNames text → ofText quoted = .ok (.string text) →
    reader.run (textWith text) = .ok entry → reader.run (textWith quoted) = .ok entry' →
    entry.terms = entry'.terms
  := by
  intro same
  obtain ⟨isText, distinct, isQuoted⟩ := ofText_one
  have terms_eq := same "[1]" "\"[1]\"" _ {}
    { terms := some { empty with inputRatio := some 1 }.terms } isText rfl distinct isQuoted
    (by decide +kernel) (by decide +kernel)
  cases terms_eq

end Tariff.UsageEntry
