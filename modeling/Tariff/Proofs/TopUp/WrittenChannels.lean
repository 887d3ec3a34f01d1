import Tariff.Proofs.Decimal.Texts
import Tariff.Proofs.Json.Members
import Tariff.Proofs.Json.Scalars
import Tariff.Proofs.TopUp.ChargeOrder

/-!
# Written channels

A payment channel is written as an object with all of its fields, and a fee among them in digits,
which tell its coefficient and its scale.  Only the sign of a zero is not read back.  The main
statement says that what is read from the text of a channel has the same name, currency and fees, and
charges the same for every amount.
-/

namespace Tariff

/-- Decimals of one value and with as many places. -/
structure Decimal.Alike (d e : Decimal) : Prop where
  equal : compare d e = .eq
  scale_eq : d.scale = e.scale

/-- Without the sign of a zero a decimal keeps its value and its places. -/
theorem Decimal.alike_unsignZero (d : Decimal) :
  d.unsignZero.Alike d
  := ⟨compare_eq_iff.mpr (toRat_unsignZero d), rfl⟩

namespace PaymentChannel

open Json

variable {channel channel' : PaymentChannel}

/-- Channels of one name and one currency, with the same fees. -/
structure Alike (channel channel' : PaymentChannel) : Prop where
  name_eq : channel.name = channel'.name
  currency_eq : channel.currency = channel'.currency
  fixedFee : Option.Rel Decimal.Alike channel.fixedFee channel'.fixedFee
  feeRate : Option.Rel Decimal.Alike channel.feeRate channel'.feeRate

/-! ### Charges -/

/-- Channels that are alike have one fee for a discounted amount. -/
theorem Alike.keptFee_eq (alike : channel.Alike channel') (discounted : ℚ) :
  channel.keptFee discounted = channel'.keptFee discounted
  := by
  obtain ⟨name, currency, fixed?, rate?⟩ := channel
  obtain ⟨name', currency', fixed'?, rate'?⟩ := channel'
  obtain ⟨-, -, same_fixed, same_rate⟩ := alike
  cases same_fixed with
  | some same_fixed => exact Decimal.compare_eq_iff.mp same_fixed.equal
  | none =>
    cases same_rate with
    | some same_rate =>
      have rate_eq := Decimal.compare_eq_iff.mp same_rate.equal
      simp only [keptFee, rate_eq]
    | none => rfl

/-- Channels that are alike charge the same. -/
theorem Alike.values_charge_eq (alike : channel.Alike channel') (amount : Decimal)
    (discounts : DiscountSchedule) (exchangeRate : Decimal) :
  (channel.charge amount discounts exchangeRate).values =
    (channel'.charge amount discounts exchangeRate).values
  := by
  have foreign_eq : channel.isForeign = channel'.isForeign := by
    rw [isForeign, isForeign, alike.currency_eq]
  simp only [values_eq_keptCharge, keptCharge, keptTotal, alike.keptFee_eq, foreign_eq]

/-! ### Fields -/

/-- The channel after a value has been taken into a field, unless the value is refused. -/
def fill : Filling Field PaymentChannel
  | .name, channel, v => v.string?.map fun name => { channel with name }
  | .currency, channel, v => v.string?.map fun currency => { channel with currency }
  | .fixedFee, channel, v => (feeOf? v).map fun fixedFee => { channel with fixedFee }
  | .feeRate, channel, v => (feeOf? v).map fun feeRate => { channel with feeRate }

/-- Fields of channels are read as values without parts. -/
theorem fills_shape :
  shape.Fills fill
  := by
  intro f channel cs v mid read
  have read_string (set : String → PaymentChannel) :
      (set <$> Reader.string) cs = Reader.answer .mismatched mid (v.string?.map set) := by
    apply Reader.map_answer (Reader.scalar_of_value read _)
    cases v <;> simp [Reader.isContainer, Json.string?]
  have read_fee (set : Option Decimal → PaymentChannel) :
      (set <$> Reader.scalar feeOf?) cs = Reader.answer .mismatched mid ((feeOf? v).map set) := by
    apply Reader.map_answer (Reader.scalar_of_value read _)
    cases v <;> simp [Reader.isContainer, feeOf?]
  cases f with
  | name => exact read_string fun name => { channel with name }
  | currency => exact read_string fun currency => { channel with currency }
  | fixedFee => exact read_fee fun fixedFee => { channel with fixedFee }
  | feeRate => exact read_fee fun feeRate => { channel with feeRate }

/-- A fee is what is read of its text; a zero loses its sign. -/
theorem feeOf?_feeJson (fee? : Option Decimal) :
  feeOf? (feeJson fee?) = some (fee?.map .unsignZero)
  := by
  cases fee? with
  | none => rfl
  | some d =>
    rw [feeJson, feeOf?, Decimal.ofText?_toText]
    rfl

/-- A member with the name of a field that has not been there is taken into the field. -/
theorem take_label (f : Field) {seen : List Field} (new : f ∉ seen) {v : Json}
    (filled : fill f channel v = some channel') :
  shape.take fill (channel, seen) (f.label, v) = some (channel', f :: seen)
  := by
  have named : shape.named? f.label = some f := by cases f <;> rfl
  rw [Shape.take_of_not_mem named new, filled, Option.map_some]

/-! ### Texts -/

/-- The members of the object that a channel is written as. -/
def members (channel : PaymentChannel) : List (String × Json) :=
  [(Field.label .name, .string channel.name), (Field.label .currency, .string channel.currency),
    (Field.label .fixedFee, feeJson channel.fixedFee), (Field.label .feeRate, feeJson channel.feeRate)]

/-- The channel with fees of which no zero has a sign. -/
def unsigned (channel : PaymentChannel) : PaymentChannel :=
  { channel with
    fixedFee := channel.fixedFee.map .unsignZero
    feeRate := channel.feeRate.map .unsignZero }

/-- A text of a channel has the members of the channel. -/
theorem memberList_toJson (layout : Layout) (channel : PaymentChannel) :
  memberList (String.ofList (layout.chars 0 channel.toJson)) = .ok channel.members
  := by
  have sorted_fee (fee? : Option Decimal) : (feeJson fee?).Sorted := by
    cases fee? with
    | none => exact .null
    | some d => exact .string d.toText
  have kept_fee (fee? : Option Decimal) :
      reread? (nestingLimit - 1) (feeJson fee?) = some (feeJson fee?) := by
    cases fee? <;> rfl
  apply memberList_chars
  · simp [Sorted.string, sorted_fee]
  · simp [reread?, kept_fee]

/-- The members of a channel are taken into its fields. -/
theorem foldlM_take_members (channel : PaymentChannel) :
  channel.members.foldlM (shape.take fill) (⟨"", homeCurrency, none, none⟩, []) =
    some (channel.unsigned, Field.all.reverse)
  := by
  have fixed_filled (record : PaymentChannel) :
      fill .fixedFee record (feeJson channel.fixedFee) =
        some { record with fixedFee := channel.fixedFee.map .unsignZero } := by
    rw [fill, feeOf?_feeJson, Option.map_some]
  have rate_filled (record : PaymentChannel) :
      fill .feeRate record (feeJson channel.feeRate) =
        some { record with feeRate := channel.feeRate.map .unsignZero } := by
    rw [fill, feeOf?_feeJson, Option.map_some]
  rw [members, List.foldlM_cons, take_label .name (by decide) rfl, Option.bind_eq_bind,
    Option.bind_some, List.foldlM_cons, take_label .currency (by decide) rfl, Option.bind_eq_bind,
    Option.bind_some, List.foldlM_cons, take_label .fixedFee (by decide) (fixed_filled _),
    Option.bind_eq_bind, Option.bind_some, List.foldlM_cons,
    take_label .feeRate (by decide) (rate_filled _)]
  rfl

/-- A channel is read from a text of the object that it is written as. -/
theorem run_reader_toJson (layout : Layout) (channel : PaymentChannel) :
  reader.run (String.ofList (layout.chars 0 channel.toJson)) = .ok channel.unsigned
  := by
  apply Except.toOption_eq_some.mp
  rw [reader, toOption_run_record_finish _ fills_shape (memberList_toJson layout channel),
    foldlM_take_members]
  rfl

/-- A channel without signs of zeros is like the channel. -/
theorem alike_unsigned (channel : PaymentChannel) :
  channel.unsigned.Alike channel
  := by
  have alike_fee (fee? : Option Decimal) :
      Option.Rel Decimal.Alike (fee?.map .unsignZero) fee? := by
    cases fee? with
    | none => exact .none
    | some d => exact .some d.alike_unsignZero
  exact ⟨rfl, rfl, alike_fee channel.fixedFee, alike_fee channel.feeRate⟩

/-- From the text of a channel, on one line or on several, a channel with the same name, currency
and fees is read, and it charges the same for every amount. -/
theorem exists_run_reader_toJson (channel : PaymentChannel) :
  ∃ decoded, reader.run channel.toJson.compact = .ok decoded ∧
    reader.run channel.toJson.indented = .ok decoded ∧
    decoded.Alike channel ∧
    ∀ amount discounts exchangeRate,
      let charge := decoded.charge amount discounts exchangeRate
      let given := channel.charge amount discounts exchangeRate
      charge.values = given.values ∧ charge.currency = given.currency
  := by
  have alike := channel.alike_unsigned
  refine ⟨channel.unsigned, run_reader_toJson .compact channel, run_reader_toJson .indented channel,
    alike, ?_⟩
  intro amount discounts exchangeRate
  exact ⟨alike.values_charge_eq amount discounts exchangeRate, alike.currency_eq⟩

end PaymentChannel

end Tariff
