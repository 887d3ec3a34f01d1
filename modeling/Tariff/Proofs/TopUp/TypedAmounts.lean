import Tariff.Proofs.TopUp.UsableMembers

/-!
# Typed amounts

A schedule with one member has an entry exactly if the name of the member denotes an amount.  The
same text typed as an amount then denotes that amount, so that it gets the multiplier of the member.
-/

namespace Tariff.DiscountSchedule

variable {amount multiplier : Decimal} {k : String}

/-! ### One member -/

/-- A single pair counts if its multiplier is positive. -/
theorem counted_single (positive : 0 < multiplier.toRat) :
  counted [(amount, multiplier)] = [(amount, multiplier)]
  := List.filter_eq_self.mpr (by simpa using positive)

/-- The schedule of one pair with a positive multiplier has one entry. -/
theorem entries_ofList_single (positive : 0 < multiplier.toRat) :
  (ofList [(amount, multiplier)]).entries = [(amount.normalize, multiplier)]
  := by
  rw [entries, multipliers_ofList, inserted_eq, counted_single positive]
  rfl

/-- The schedule of one pair with a positive multiplier has that multiplier for the amount. -/
theorem multiplier_ofList_single (positive : 0 < multiplier.toRat) :
  (ofList [(amount, multiplier)]).multiplier amount = multiplier
  := by
  rw [DiscountSchedule.multiplier, get?_ofList, counted_single positive, List.reverse_singleton,
    List.find?_singleton, if_pos (by simp)]
  rfl

/-- A member with a decimal in writing gives the amount that its name denotes and that decimal. -/
theorem entryOf?_string (positive : 0 < multiplier.toRat) :
  entryOf? (k, .string multiplier.toText) =
    (Decimal.ofTrimmed? k).map fun amount => (amount, multiplier)
  := by
  have no_zero := coefficient_ne_zero_of_positive (zero_lt_iff_toRat.mpr positive)
  have read := Decimal.ofTrimmed?_toText (d := multiplier) fun _ => no_zero
  rw [entryOf?, multiplierOf?, read]
  cases Decimal.ofTrimmed? k <;> rfl

/-- An object with one string is read from its text. -/
theorem ofText_compact_single (k s : String) :
  Json.ofText (Json.object [(k, .string s)]).compact = .ok (.object [(k, .string s)])
  := by
  have members_eq : Json.memberList (Json.object [(k, .string s)]).compact =
      .ok [(k, .string s)] := by
    apply Json.memberList_compact
    · exact List.forall_mem_singleton.mpr (.string s)
    · exact List.forall_mem_singleton.mpr rfl
  exact Json.ofText_eq_object_iff.mpr ⟨_, members_eq, rfl⟩

/-- The schedule of an object with one member has an entry exactly if the name of the member denotes
an amount, and then the same text as an amount gets the multiplier of the member. -/
theorem multiplier_topUpAmount (k : String) (positive : 0 < multiplier.toRat) :
  let member := Json.object [(k, .string multiplier.toText)]
  Json.ofText member.compact = .ok member ∧
    ∀ text, Json.ofText text = .ok member →
      ∃ schedule, ofText text = .ok schedule ∧
        (schedule.entries ≠ [] ↔ (Decimal.ofTrimmed? k).isSome = true) ∧
        (schedule.entries ≠ [] → schedule.multiplier (topUpAmount k) = multiplier)
  := by
  refine ⟨ofText_compact_single _ _, fun text isObject => ⟨_, ofText_of_object isObject, ?_⟩⟩
  rw [ofMembers, List.filterMap_cons, List.filterMap_nil, entryOf?_string positive, topUpAmount]
  cases Decimal.ofTrimmed? k with
  | none => simp [ofList, entries, empty, SortedMap.empty]
  | some amount =>
    dsimp only [Option.map_some, Option.getD_some]
    rw [entries_ofList_single positive, multiplier_ofList_single positive]
    simp

/-- An amount with blanks, a sign and an exponent gets the multiplier of the member of that name. -/
theorem multiplier_topUpAmount_exponent :
  0 < (topUpAmount "0.80").toRat ∧
    ∃ schedule, ofText "\x7b\" +1.50e2 \":\"0.80\"\x7d" = .ok schedule ∧ schedule.entries ≠ [] ∧
      schedule.multiplier (topUpAmount " +1.50e2 ") = topUpAmount "0.80"
  := by
  have positive : 0 < (topUpAmount "0.80").toRat := by decide +kernel
  have text_eq : (Json.object [(" +1.50e2 ", .string (topUpAmount "0.80").toText)]).compact =
      "\x7b\" +1.50e2 \":\"0.80\"\x7d" := by
    decide +kernel
  obtain ⟨isObject, read_all⟩ := multiplier_topUpAmount " +1.50e2 " positive
  obtain ⟨schedule, read, has_iff, multiplier_eq⟩ := read_all _ isObject
  have has_entry : schedule.entries ≠ [] := has_iff.mpr (by decide +kernel)
  rw [text_eq] at read
  exact ⟨positive, schedule, read, has_entry, multiplier_eq has_entry⟩

end Tariff.DiscountSchedule
