import Tariff.Proofs.Json.Members
import Tariff.Proofs.TopUp.LastMultipliers

/-!
# Usable members

A member of an object is usable if its name denotes an amount and its value a positive multiplier.
The main statement says that a schedule is read from every object, with the usable members and
nothing else if no two of these have amounts of one value, in whatever order the members are taken;
from a blank text the schedule without discounts is read, and from any other text none.
-/

namespace Tariff.DiscountSchedule

variable {text : String} {object : List (String × Json)}

/-! ### Members -/

/-- A value denotes a multiplier: it is a number, or a string with one. -/
def Denotes (v : Json) (multiplier : Decimal) : Prop :=
  (∃ n, v = .number n ∧ Decimal.ofTrimmed? n.toText = some multiplier) ∨
    ∃ s, v = .string s ∧ Decimal.ofTrimmed? s = some multiplier

/-- A member is usable: it gives a positive multiplier for an amount. -/
def Gives (m : String × Json) (amount multiplier : Decimal) : Prop :=
  Decimal.ofTrimmed? m.1 = some amount ∧ Denotes m.2 multiplier ∧ 0 < multiplier.toRat

/-- No two usable members give multipliers for amounts of one value. -/
def GivesOnce (members : List (String × Json)) : Prop :=
  members.Pairwise fun m m' => ∀ amount multiplier amount' multiplier',
    Gives m amount multiplier → Gives m' amount' multiplier' → amount.toRat ≠ amount'.toRat

/-- The multiplier of a value is the one that it denotes. -/
theorem multiplierOf?_eq_some_iff {v : Json} {multiplier : Decimal} :
  multiplierOf? v = some multiplier ↔ Denotes v multiplier
  := by
  cases v <;> simp [multiplierOf?, Denotes]

/-- A member gives what it denotes, if that is positive. -/
theorem gives_iff {m : String × Json} {amount multiplier : Decimal} :
  Gives m amount multiplier ↔ entryOf? m = some (amount, multiplier) ∧ .zero < multiplier
  := by
  rw [Gives, ← multiplierOf?_eq_some_iff, ← zero_lt_iff_toRat, entryOf?]
  cases Decimal.ofTrimmed? m.1 <;> cases multiplierOf? m.2 <;> simp [and_assoc]

/-- The entries of members have different amounts if the members give them once. -/
theorem hasDistinctAmounts_iff {members : List (String × Json)} :
  HasDistinctAmounts (members.filterMap entryOf?) ↔ GivesOnce members
  := by
  rw [HasDistinctAmounts, GivesOnce, List.pairwise_filter, List.pairwise_filterMap]
  apply List.Pairwise.iff
  intro m m'
  simp only [gives_iff, decide_eq_true_eq, ne_eq, Decimal.compare_eq_iff]
  constructor
  · rintro differ a x b y ⟨given, positive⟩ ⟨given', positive'⟩
    exact differ _ given _ given' positive positive'
  · rintro differ ⟨a, x⟩ given ⟨b, y⟩ given' positive positive'
    exact differ a x b y ⟨given, positive⟩ ⟨given', positive'⟩

/-- What is inserted from members is what they give. -/
theorem mem_inserted_iff {members : List (String × Json)} {e : Decimal × Decimal} :
  e ∈ inserted (members.filterMap entryOf?) ↔
    ∃ m ∈ members, ∃ amount, Gives m amount e.2 ∧ amount.normalize = e.1
  := by
  obtain ⟨key, multiplier⟩ := e
  simp only [inserted, List.mem_map, List.mem_filter, List.mem_filterMap, decide_eq_true_eq, gives_iff]
  constructor
  · rintro ⟨⟨amount, x⟩, ⟨⟨m, m_mem, given⟩, positive⟩, eq⟩
    obtain ⟨rfl, rfl⟩ := Prod.mk.inj eq
    exact ⟨m, m_mem, amount, ⟨given, positive⟩, rfl⟩
  · rintro ⟨m, m_mem, amount, ⟨given, positive⟩, rfl⟩
    exact ⟨(amount, multiplier), ⟨⟨m, m_mem, given⟩, positive⟩, rfl⟩

/-! ### Texts -/

/-- A map can be read from a text exactly if the text holds an object. -/
theorem exists_run_members_iff :
  (∃ map, Json.Reader.members.run text = .ok map) ↔ ∃ object, Json.ofText text = .ok (.object object)
  := by
  constructor
  · rintro ⟨map, read⟩
    exact ⟨_, Json.run_members_eq_ok_iff_ofText.mp read⟩
  · rintro ⟨object, isObject⟩
    obtain ⟨members, read, -⟩ := Json.ofText_eq_object_iff.mp isObject
    exact ⟨_, Json.run_members_eq_ok_iff.mpr ⟨members, read, rfl⟩⟩

/-- From an object the schedule is read that its members give. -/
theorem ofText_of_object (isObject : Json.ofText text = .ok (.object object)) :
  ofText text = .ok (ofMembers object)
  := by
  obtain ⟨members, read, rfl⟩ := Json.ofText_eq_object_iff.mp isObject
  have read_map := Json.run_members_eq_ok_iff.mpr ⟨members, read, rfl⟩
  rw [ofText, Json.isAllBlank_of_ofText isObject, if_neg Bool.false_ne_true, read_map]
  rfl

/-- No schedule is read from a text that neither is blank nor holds an object. -/
theorem exists_fault_iff :
  (∃ fault, ofText text = .error fault) ↔
    Text.isAllBlank text = false ∧ ¬ ∃ object, Json.ofText text = .ok (.object object)
  := by
  rw [ofText, ← exists_run_members_iff]
  cases Text.isAllBlank text with
  | true => simp
  | false => cases Json.Reader.members.run text <;> simp

/-- A blank text gives the schedule without discounts.  Every object gives a schedule: if its usable
members have amounts of different values, it has the multiplier of each of them and no other, in
whatever order the members are taken.  No schedule is read from any other text. -/
theorem ofText_usable (text : String) :
  (Text.isAllBlank text = true → ofText text = .ok empty) ∧
    ((∃ fault, ofText text = .error fault) ↔
      Text.isAllBlank text = false ∧ ¬ ∃ object, Json.ofText text = .ok (.object object)) ∧
    ∀ object, Json.ofText text = .ok (.object object) → GivesOnce object →
      ∃ schedule, ofText text = .ok schedule ∧
        (∀ e, e ∈ schedule.entries ↔
          ∃ m ∈ object, ∃ amount, Gives m amount e.2 ∧ amount.normalize = e.1) ∧
        ∀ members, members.Perm object → ofMembers members = schedule
  := by
  refine ⟨fun blank => if_pos blank, exists_fault_iff, fun object isObject once => ?_⟩
  have distinct := hasDistinctAmounts_iff.mpr once
  refine ⟨ofMembers object, ofText_of_object isObject, fun e => ?_, fun members perm => ?_⟩
  · rw [← mem_inserted_iff]
    exact (entries_ofList_perm distinct).mem_iff
  · exact ofMembers_perm distinct perm

/-- The text of an object with two usable members among others. -/
def mixedMembers : String :=
  "\x7b\" 10 \": 0.9, \"1e2\": \" 8e-1 \", \"ten\": 1, \"1E1\": -1, \"100\": null, \"\": [1],
    \"5\": \"0.00\", \"20\": \x7b\"20\": 1\x7d, \"30\": \"half\", \"0\": false\x7d"

/-- From the object the two usable members are read. -/
theorem ofText_usable_mixedMembers :
  ∃ object, Json.ofText mixedMembers = .ok (.object object) ∧ GivesOnce object ∧
    ∃ schedule, ofText mixedMembers = .ok schedule ∧ schedule.size = 2 ∧
      ∀ members, members.Perm object → ofMembers members = schedule
  := by
  have fits : (Json.memberList mixedMembers).toOption.any (fun members =>
      HasDistinctAmounts ((SortedMap.ofList members).entries.filterMap entryOf?) ∧
        (ofMembers (SortedMap.ofList members).entries).size = 2) = true := by
    decide +kernel
  cases read_members : Json.memberList mixedMembers with
  | error fault =>
    rw [read_members] at fits
    cases fits
  | ok members =>
    rw [read_members] at fits
    obtain ⟨distinct, two⟩ := of_decide_eq_true fits
    have isObject := Json.ofText_eq_object_iff.mpr ⟨members, read_members, rfl⟩
    have once := hasDistinctAmounts_iff.mp distinct
    obtain ⟨schedule, read, -, any_order⟩ := (ofText_usable mixedMembers).2.2 _ isObject once
    obtain rfl := any_order _ (.refl _)
    exact ⟨_, isObject, once, _, read, two, any_order⟩

end Tariff.DiscountSchedule
