import Tariff.Decimal.Reading
import Tariff.Json.Printing
import Tariff.Json.Reading

/-!
# Top-up discounts

A schedule gives multipliers for top-up amounts.  Amounts are compared by value, the last of
several multipliers for one amount counts, and only positive multipliers are taken.  A schedule is
read from a JSON object of amounts and multipliers, whose unusable members are passed over.
-/

namespace Tariff

/-- The top-up amount that a text denotes, blanks around it ignored, and zero for a text that
denotes none. -/
def topUpAmount (s : String) : Decimal :=
  (Decimal.ofTrimmed? s).getD .zero

/-- The multipliers of top-up amounts, all of them positive. -/
structure DiscountSchedule where
  multipliers : SortedMap Decimal Decimal
  positive : ∀ entry ∈ multipliers.entries, Decimal.zero < entry.2

namespace DiscountSchedule

/-- The schedule without discounts. -/
def empty : DiscountSchedule := ⟨.empty, by simp [SortedMap.empty]⟩

/-- The schedule with a multiplier for an amount, unless the multiplier is not positive. -/
def insert? (schedule : DiscountSchedule) (amount multiplier : Decimal) :
    Option DiscountSchedule :=
  if h : .zero < multiplier then
    some
      { multipliers := schedule.multipliers.insert amount.normalize multiplier
        positive := by
          intro entry hentry
          rcases (Assoc.eq_or_mem_of_mem_insert hentry).2 with rfl | hentry
          · exact h
          · exact schedule.positive entry hentry }
  else none

/-- The schedule with a multiplier for an amount; one that is not positive changes nothing. -/
def insert (schedule : DiscountSchedule) (amount multiplier : Decimal) : DiscountSchedule :=
  (schedule.insert? amount multiplier).getD schedule

/-- The schedule of pairs of amounts and multipliers. -/
def ofList (pairs : List (Decimal × Decimal)) : DiscountSchedule :=
  pairs.foldl (fun schedule pair => schedule.insert pair.1 pair.2) empty

/-- The multiplier for an amount. -/
def get? (schedule : DiscountSchedule) (amount : Decimal) : Option Decimal :=
  schedule.multipliers.find? amount.normalize

/-- The multiplier for an amount, one if there is none. -/
def multiplier (schedule : DiscountSchedule) (amount : Decimal) : Decimal :=
  (schedule.get? amount).getD .one

/-- The number of amounts with a multiplier. -/
def size (schedule : DiscountSchedule) : Nat :=
  schedule.multipliers.size

/-- The amounts with their multipliers, in ascending order of the amounts. -/
def entries (schedule : DiscountSchedule) : List (Decimal × Decimal) :=
  schedule.multipliers.entries

/-- Two schedules have equal amounts with equal multipliers, in value. -/
def agrees (s t : DiscountSchedule) : Bool :=
  s.size = t.size && (s.entries.zip t.entries).all fun (e, f) =>
    compare e.1 f.1 = .eq && compare e.2 f.2 = .eq

/-- The multiplier that a JSON value gives: a number, or a string that denotes one. -/
def multiplierOf? : Json → Option Decimal
  | .number n => Decimal.ofTrimmed? n.toText
  | .string s => Decimal.ofTrimmed? s
  | _ => none

/-- The amount and multiplier that a member of an object gives, if it is usable. -/
def entryOf? (member : String × Json) : Option (Decimal × Decimal) := do
  let amount ← Decimal.ofTrimmed? member.1
  let multiplier ← multiplierOf? member.2
  return (amount, multiplier)

/-- The schedule that the members of an object give. -/
def ofMembers (members : List (String × Json)) : DiscountSchedule :=
  ofList (members.filterMap entryOf?)

/-- The schedule that a text gives: none for a blank text, else that of the object in it. -/
def ofText (s : String) : Except Json.Fault DiscountSchedule :=
  if Text.isAllBlank s then .ok empty
  else (fun members => ofMembers members.entries) <$> Json.Reader.members.run s

/-- The schedule as an object, in ascending order of the texts of the amounts. -/
def toJson (schedule : DiscountSchedule) : Json :=
  let members := schedule.entries.map fun e => (e.1.toText, Json.string e.2.toText)
  .object (SortedMap.ofList members).entries

/-- A multiplier that is not positive is refused. -/
theorem insert?_eq_none_iff {schedule : DiscountSchedule} {amount multiplier : Decimal} :
  schedule.insert? amount multiplier = none ↔ ¬ .zero < multiplier
  := by
  simp [insert?]

end DiscountSchedule

end Tariff
