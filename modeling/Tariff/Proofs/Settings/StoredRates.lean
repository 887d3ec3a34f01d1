import Tariff.Proofs.Decimal.ShortDecimals
import Tariff.Proofs.Decimal.Values
import Tariff.Proofs.Settings.Landing
import Tariff.Settings.Billing

/-!
# Exchange rates that have been set

A rate that is set as a text is loaded as it was from a store in memory.  A store in a file reads the
text as a JSON number and gives back the digits of that number: integers of 64 bits come back, and any
other rate is loaded as the decimal that the digits of a binary64 number denote.  This has the value
of the rate if its coefficient has 52 bits and its places are at most 22.
-/

namespace Tariff

namespace Keeping

variable {keeping : Keeping} {r : Decimal}

/-- The text that is given back for the digits of a decimal without a sign: the digits themselves, or
those of their number after it has been read back as often as the store does it. -/
def textOf (keeping : Keeping) (r : Decimal) : String :=
  if keeping = .text then r.toText
  else (Json.Number.reread^[keeping.rereadings - 1] r.number).toText

/-- A store in a file takes the digits of a decimal for their number. -/
theorem valueOf_toText (unsigned : r.negative = false) (in_file : keeping ≠ .text) :
  keeping.valueOf r.toText = .number r.number
  := by
  have value_eq : SettingsFile.valueOf r.toText = .number r.number := by
    rw [SettingsFile.valueOf, Decimal.ofText_toText unsigned]
  cases keeping with
  | text => exact absurd rfl in_file
  | value => apply value_eq
  | reloaded => apply value_eq

/-- The digits of a decimal can be loaded again. -/
theorem keeps_toText (unsigned : r.negative = false) :
  keeping.Keeps (keeping.valueOf r.toText)
  := by
  cases keeping with
  | text => trivial
  | value => trivial
  | reloaded =>
    rw [valueOf_toText unsigned (by decide)]
    apply Option.isSome_of_eq_some (Json.rereadAs_number r.inRange_number _ (by decide))

/-- The digits of a decimal are given back as those of their number, unless they are kept as a
text. -/
theorem givenBack_toText (unsigned : r.negative = false) :
  keeping.givenBack r.toText = keeping.textOf r
  := by
  cases keeping with
  | text => rfl
  | value =>
    rw [givenBack, valueOf_toText unsigned (by decide)]
    rfl
  | reloaded =>
    rw [givenBack, valueOf_toText unsigned (by decide), kept,
      Json.rereadAs_number r.inRange_number _ (by decide)]
    rfl

end Keeping

namespace BillingRules

variable {store store' : Store} {host host' : Host} {keeping : Keeping} {r rate : Decimal}

/-- A rate is loaded from its digits. -/
theorem exchangeRateOf_toText (positive : .zero < r) :
  exchangeRateOf (some r.toText) = r
  := by
  have unsigned := (Decimal.zero_lt_iff.mp positive).1
  rw [exchangeRateOf, Option.bind_some, Decimal.ofTrimmed?_toText (by simp [unsigned])]
  dsimp only
  rw [if_pos positive]

/-- What has been set is loaded as the rate that its text gives when it is given back. -/
theorem loadExchangeRate_eq (positive : .zero < r)
    (saved : Access.set exchangeRateKey r.toText (store, host) = (.ok (), store', host'))
    (uncovered : store.Uncovered [exchangeRateKey] host) (keeping_eq : store.keeping? = some keeping) :
  (loadExchangeRate (store', host')).1 = .ok (exchangeRateOf (some (keeping.textOf r)))
  := by
  have unsigned := (Decimal.zero_lt_iff.mp positive).1
  obtain ⟨next, get_eq⟩ := Store.get_of_set (Access.set_of_set saved) uncovered keeping_eq
    (Keeping.keeps_toText unsigned)
  rw [Keeping.givenBack_toText unsigned] at get_eq
  rw [loadExchangeRate, map_eq_pure_bind, Access.bind_of_ok (Access.get_of_get get_eq)]
  rfl

/-- A text that gives another rate than one gives the rate that it denotes. -/
theorem exchangeRateOf_cases (text : String) :
  exchangeRateOf (some text) = .one ∨ Decimal.ofTrimmed? text = some (exchangeRateOf (some text))
  := by
  rw [exchangeRateOf, Option.bind_some]
  cases Decimal.ofTrimmed? text with
  | none => exact .inl rfl
  | some rate =>
    dsimp only
    split
    case isTrue => exact .inr rfl
    case isFalse => exact .inl rfl

/-- A text that denotes a positive rate gives it. -/
theorem exchangeRateOf_of_denotes {text : String} (denotes : Decimal.ofTrimmed? text = some rate)
    (positive : .zero < rate) :
  exchangeRateOf (some text) = rate
  := by
  rw [exchangeRateOf, Option.bind_some, denotes]
  dsimp only
  rw [if_pos positive]

/-- The digits of a number denote a decimal of some value. -/
def Denotes (x : Binary64) (r : Decimal) : Prop :=
  ∃ d, Decimal.ofTrimmed? (Json.Number.real x).toText = some d ∧ compare d r = .eq

/-- The digits of the number one denote all decimals of that value, however often the number is read
back. -/
theorem denotes_one (one : compare .one r = .eq) (count : Nat) :
  Denotes (Json.rereadReal^[count] 1) r
  := by
  have reread_one : Json.rereadReal 1 = 1 := by decide +kernel
  have denoted : Decimal.ofTrimmed? (Json.Number.real 1).toText =
      some ⟨false, 10, 1, by decide, by decide⟩ := by
    decide +kernel
  have same : compare (⟨false, 10, 1, by decide, by decide⟩ : Decimal) .one = .eq := by decide
  rw [Function.iterate_fixed reread_one]
  exact ⟨_, denoted, Std.TransCmp.eq_trans same one⟩

/-- The text of an integer of 64 bits comes back. -/
theorem textOf_integer (unsigned : r.negative = false) (no_places : r.scale = 0)
    (short : r.coefficient < pow2 64) :
  keeping.textOf r = r.toText
  := by
  have steady : Json.Number.reread (.integer r.coefficient) = .integer r.coefficient := rfl
  have text_eq : (Json.Number.integer r.coefficient).toText = r.toText := by
    have not_negative : ¬ (r.coefficient : Int) < 0 := by omega
    have one : pow10 0 = 1 := rfl
    rw [Json.Number.toText, Json.Number.chars, Text.integer, decide_eq_false not_negative,
      Int.natAbs_natCast, Decimal.toText, unsigned, Decimal.unsignedChars, Text.fixedPoint,
      no_places, if_pos rfl, one, Nat.div_one, List.append_nil]
  rw [Keeping.textOf, Decimal.number_of_integer no_places short, Function.iterate_fixed steady,
    text_eq, ite_self]

/-- In a file the text of any other rate comes back as that of a finite number. -/
theorem textOf_real {x : Binary64} (number_eq : r.number = .real x) (in_file : keeping ≠ .text) :
  keeping.textOf r = (Json.Number.real (Json.rereadReal^[keeping.rereadings - 1] x)).toText
  := by
  have semiconj : Function.Semiconj Json.Number.real Json.rereadReal Json.Number.reread :=
    fun _ => rfl
  rw [Keeping.textOf, if_neg in_file, number_eq, semiconj.iterate_right]

/-- A positive rate comes back in value exactly if its text is kept, it is an integer of 64 bits, or
the digits of the number that its own digits are read as denote it. -/
theorem compare_textOf_eq_iff (positive : .zero < r) :
  compare (exchangeRateOf (some (keeping.textOf r))) r = .eq ↔
    keeping = .text ∨ (r.scale = 0 ∧ r.coefficient < pow2 64) ∨
      ∃ x, r.number = .real x ∧ Denotes (Json.rereadReal^[keeping.rereadings - 1] x) r
  := by
  have unsigned := (Decimal.zero_lt_iff.mp positive).1
  have same : compare (exchangeRateOf (some r.toText)) r = .eq := by
    rw [exchangeRateOf_toText positive]
    apply Std.ReflOrd.compare_self
  by_cases in_file : keeping = .text
  · subst in_file
    apply iff_of_true same (.inl rfl)
  by_cases integer : r.scale = 0 ∧ r.coefficient < pow2 64
  · rw [textOf_integer unsigned integer.1 integer.2]
    apply iff_of_true same (.inr (.inl integer))
  obtain ⟨x, number_eq, -⟩ := Decimal.exists_number_eq_real integer
  rw [textOf_real number_eq in_file]
  constructor
  · intro comes_back
    refine .inr (.inr ⟨x, number_eq, ?_⟩)
    rcases exchangeRateOf_cases
      (Json.Number.real (Json.rereadReal^[keeping.rereadings - 1] x)).toText with one | denotes
    · -- The default comes back only for a rate of one, whose digits do not give way to it.
      rw [one] at comes_back
      have places : r.scale ≠ 0 := by
        intro no_places
        have coefficient_eq := Decimal.coefficient_of_one unsigned comes_back
        rw [no_places] at coefficient_eq
        exact integer ⟨no_places, coefficient_eq ▸ by decide⟩
      have x_eq : 1 = x :=
        Json.Number.real.inj ((Decimal.number_of_one unsigned comes_back places).symm.trans number_eq)
      rw [← x_eq]
      apply denotes_one comes_back
    · exact ⟨_, denotes, comes_back⟩
  · rintro (text | found | ⟨x', number_eq', d, denotes, d_eq⟩)
    · exact absurd text in_file
    · exact absurd found integer
    · cases number_eq.symm.trans number_eq'
      have positive_d : .zero < d := (Std.TransCmp.congr_right d_eq).trans positive
      rw [exchangeRateOf_of_denotes denotes positive_d]
      exact d_eq

/-- A positive rate with a short coefficient and few places always comes back in value. -/
theorem compare_textOf_of_short (positive : .zero < r) (short : r.coefficient < pow2 52)
    (few : r.scale ≤ 22) :
  compare (exchangeRateOf (some (keeping.textOf r))) r = .eq
  := by
  obtain ⟨unsigned, pos⟩ := Decimal.zero_lt_iff.mp positive
  apply (compare_textOf_eq_iff positive).mpr
  right
  rcases Nat.eq_zero_or_pos r.scale with no_places | places_pos
  · exact .inl ⟨no_places, short.trans (by decide)⟩
  · right
    refine ⟨_, Decimal.number_of_short short few places_pos, ?_⟩
    rw [Function.iterate_fixed (Json.rereadReal_quotient pos short few places_pos)]
    apply Decimal.exists_ofTrimmed?_quotient unsigned pos short few places_pos

/-- What is loaded after a positive rate has been set, and when this is the rate in value: always if
the coefficient has 52 bits and there are at most 22 places. -/
theorem loadExchangeRate_set (positive : .zero < r)
    (saved : Access.set exchangeRateKey r.toText (store, host) = (.ok (), store', host'))
    (uncovered : store.Uncovered [exchangeRateKey] host) (keeping_eq : store.keeping? = some keeping) :
  let rate := exchangeRateOf (some (keeping.textOf r))
  (loadExchangeRate (store', host')).1 = .ok rate ∧
    (compare rate r = .eq ↔
      keeping = .text ∨ (r.scale = 0 ∧ r.coefficient < pow2 64) ∨
        ∃ x, r.number = .real x ∧ Denotes (Json.rereadReal^[keeping.rereadings - 1] x) r) ∧
    (r.coefficient < pow2 52 → r.scale ≤ 22 → compare rate r = .eq)
  := ⟨loadExchangeRate_eq positive saved uncovered keeping_eq, compare_textOf_eq_iff positive,
    compare_textOf_of_short positive⟩

/-- A rate with three digits comes back from a store in a file that reloads. -/
theorem loadExchangeRate_set_three_digits :
  let r : Decimal := ⟨false, 731, 2, by decide, by decide⟩
  let saved := Access.set exchangeRateKey r.toText
    (.single (.file (.opened "s.json" true)), Session.bareHost)
  saved.1 = .ok () ∧ ∃ rate, (loadExchangeRate saved.2).1 = .ok rate ∧ compare rate r = .eq
  := by
  intro r saved
  have succeeds : saved.1 = .ok () := by decide +kernel
  have uncovered : Store.Uncovered (.single (.file (.opened "s.json" true))) [exchangeRateKey]
      Session.bareHost := Store.uncovered_single rfl _ _
  obtain ⟨loaded, -, comes_back⟩ :=
    loadExchangeRate_set (by decide) (Prod.ext succeeds rfl) uncovered rfl
  exact ⟨succeeds, _, loaded, comes_back (by decide) (by decide)⟩

/-- A rate of 28 digits does not come back from a store in a file, which gives the digits of a
number. -/
theorem not_forall_loadExchangeRate_set :
  ¬ ∀ (r : Decimal) (leaf : BasicStore) (host : Host), .zero < r → leaf.keeping?.isSome = true →
    (Access.set exchangeRateKey r.toText (.single leaf, host)).1 = .ok () →
      ∃ rate, (loadExchangeRate (Access.set exchangeRateKey r.toText (.single leaf, host)).2).1 =
        .ok rate ∧ compare rate r = .eq
  := by
  intro all
  obtain ⟨rate, loaded, same⟩ := all ⟨false, 1428571428571428571428571429, 28, by decide, by decide⟩
    (.file (.opened "s.json" false)) Session.bareHost (by decide) rfl (by decide +kernel)
  have loaded_other : (loadExchangeRate (Access.set exchangeRateKey
      (⟨false, 1428571428571428571428571429, 28, by decide, by decide⟩ : Decimal).toText
        (.single (.file (.opened "s.json" false)), Session.bareHost)).2).1 =
      .ok ⟨false, 14285714285714288, 17, by decide, by decide⟩ := by
    decide +kernel
  cases loaded.symm.trans loaded_other
  revert same
  decide +kernel

end BillingRules

end Tariff
