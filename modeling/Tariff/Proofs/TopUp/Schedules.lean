import Tariff.Proofs.Decimal.Texts
import Tariff.Proofs.Decimal.Values
import Tariff.Proofs.Json.RereadNumbers
import Tariff.Proofs.SortedMap
import Tariff.TopUp.Discount

/-!
# Schedules in writing

The amounts of a schedule are normal, so that different amounts have different texts and no member
of the object that is written for a schedule replaces another.  The main statements say that the
schedule is read from that object, whatever the order in which its members are taken.
-/

namespace Tariff.DiscountSchedule

variable {schedule : DiscountSchedule}

/-! ### Normal amounts -/

/-- The amounts of a schedule are normal. -/
def IsNormal (schedule : DiscountSchedule) : Prop :=
  ∀ e ∈ schedule.entries, e.1.normalize = e.1

/-- A positive multiplier is inserted for the normal amount. -/
theorem multipliers_insert {amount multiplier : Decimal} (positive : .zero < multiplier) :
  (schedule.insert amount multiplier).multipliers =
    schedule.multipliers.insert amount.normalize multiplier
  := by
  rw [insert, insert?, dif_pos positive]
  rfl

/-- A multiplier that is not positive is not inserted. -/
theorem insert_of_not_positive {amount multiplier : Decimal} (not_positive : ¬ .zero < multiplier) :
  schedule.insert amount multiplier = schedule
  := by
  rw [insert, insert?, dif_neg not_positive]
  rfl

/-- Amounts stay normal when one is inserted. -/
theorem IsNormal.insert (normal : schedule.IsNormal) (amount multiplier : Decimal) :
  (schedule.insert amount multiplier).IsNormal
  := by
  by_cases positive : .zero < multiplier
  · intro e e_mem
    rw [entries, multipliers_insert positive] at e_mem
    rcases (Assoc.eq_or_mem_of_mem_insert e_mem).1 with eq | ⟨f, f_mem, eq⟩
    · rw [eq, Decimal.normalize_normalize]
    · rw [eq, normal f f_mem]
  · rw [insert_of_not_positive positive]
    exact normal

/-- A schedule of pairs has normal amounts. -/
theorem isNormal_ofList (pairs : List (Decimal × Decimal)) :
  (ofList pairs).IsNormal
  := by
  have inserted (schedule : DiscountSchedule) (normal : schedule.IsNormal) :
      (pairs.foldl (fun schedule pair => schedule.insert pair.1 pair.2) schedule).IsNormal := by
    induction pairs generalizing schedule with
    | nil => exact normal
    | cons pair pairs ih => exact ih _ (normal.insert pair.1 pair.2)
  exact inserted empty nofun

/-- A normal amount with a sign is no zero. -/
theorem IsNormal.signed (normal : schedule.IsNormal) {e : Decimal × Decimal}
    (e_mem : e ∈ schedule.entries) :
  e.1.negative = true → e.1.coefficient ≠ 0
  := by
  rw [← normal e e_mem]
  exact Decimal.coefficient_ne_zero_of_normalize

/-! ### Entries in any order -/

/-- A schedule is given by its multipliers. -/
theorem eq_of_multipliers {schedule' : DiscountSchedule}
    (eq : schedule.multipliers = schedule'.multipliers) :
  schedule = schedule'
  := by
  cases schedule
  cases eq
  rfl

/-- Normal amounts and positive multipliers are inserted as they are. -/
theorem multipliers_foldl_insert {pairs : List (Decimal × Decimal)}
    (usable : ∀ p ∈ pairs, p.1.normalize = p.1 ∧ .zero < p.2) (schedule : DiscountSchedule) :
  (pairs.foldl (fun schedule pair => schedule.insert pair.1 pair.2) schedule).multipliers =
    pairs.foldl (fun map pair => map.insert pair.1 pair.2) schedule.multipliers
  := by
  induction pairs generalizing schedule with
  | nil => rfl
  | cons p pairs ih =>
    obtain ⟨⟨normal, positive⟩, others⟩ := List.forall_mem_cons.mp usable
    rw [List.foldl_cons, ih others, multipliers_insert positive, normal, List.foldl_cons]

/-- A schedule with normal amounts is that of its entries in any order. -/
theorem ofList_eq_of_perm (normal : schedule.IsNormal) {pairs : List (Decimal × Decimal)}
    (perm : pairs.Perm schedule.entries) :
  ofList pairs = schedule
  := by
  have usable : ∀ p ∈ pairs, p.1.normalize = p.1 ∧ .zero < p.2 := by
    intro p p_mem
    have there := perm.mem_iff.mp p_mem
    exact ⟨normal p there, schedule.positive p there⟩
  apply eq_of_multipliers
  rw [ofList, multipliers_foldl_insert usable]
  exact SortedMap.ofList_eq_of_perm perm

/-! ### Members -/

/-- The member that is written for an entry. -/
def memberOf (e : Decimal × Decimal) : String × Json :=
  (e.1.toText, .string e.2.toText)

/-- The members that are written for a schedule, under their names. -/
def written (schedule : DiscountSchedule) : SortedMap String Json :=
  .ofList (schedule.entries.map memberOf)

/-- A positive decimal is no zero. -/
theorem coefficient_ne_zero_of_positive {d : Decimal} (positive : .zero < d) :
  d.coefficient ≠ 0
  := (Decimal.zero_lt_iff.mp positive).2.ne'

/-- An entry is read from the member that is written for it. -/
theorem entryOf?_memberOf (normal : schedule.IsNormal) {e : Decimal × Decimal}
    (e_mem : e ∈ schedule.entries) :
  entryOf? (memberOf e) = some e
  := by
  have positive := schedule.positive e e_mem
  have amount := Decimal.ofTrimmed?_toText (normal.signed e_mem)
  have multiplier := Decimal.ofTrimmed?_toText (d := e.2)
    fun _ => coefficient_ne_zero_of_positive positive
  rw [entryOf?, memberOf]
  dsimp only
  rw [amount, multiplierOf?, multiplier]
  rfl

/-- The members of different amounts have different names. -/
theorem nodup_names (normal : schedule.IsNormal) :
  ((schedule.entries.map memberOf).map (·.1)).Nodup
  := by
  rw [List.map_map]
  apply List.pairwise_map.mpr
  apply schedule.multipliers.ascending.imp_of_mem
  intro e f e_mem f_mem lt same
  have eq : e.1 = f.1 :=
    Decimal.eq_of_toText (normal.signed e_mem) (normal.signed f_mem) same
  rw [eq, Std.ReflOrd.compare_self] at lt
  cases lt

/-- Every entry of a schedule has its member. -/
theorem entries_written_perm (normal : schedule.IsNormal) :
  schedule.written.entries.Perm (schedule.entries.map memberOf)
  := SortedMap.entries_ofList_perm (Assoc.pairwise_ne_of_nodup (nodup_names normal))

/-- A schedule is read from its members in any order. -/
theorem ofMembers_of_perm (normal : schedule.IsNormal) {members : List (String × Json)}
    (perm : members.Perm schedule.written.entries) :
  ofMembers members = schedule
  := by
  apply ofList_eq_of_perm normal
  have read : (schedule.entries.map memberOf).filterMap entryOf? = schedule.entries := by
    rw [List.filterMap_map]
    have each : ∀ e ∈ schedule.entries, (entryOf? ∘ memberOf) e = some e :=
      fun e e_mem => entryOf?_memberOf normal e_mem
    rw [List.filterMap_congr each, List.filterMap_some]
  have perm' := (perm.trans (entries_written_perm normal)).filterMap entryOf?
  rwa [read] at perm'

/-! ### Texts -/

/-- The members of a schedule are strings. -/
theorem strings_written (normal : schedule.IsNormal) :
  ∀ m ∈ schedule.written.entries, ∃ s, m.2 = .string s
  := by
  intro m m_mem
  obtain ⟨e, -, rfl⟩ := List.mem_map.mp ((entries_written_perm normal).mem_iff.mp m_mem)
  exact ⟨_, rfl⟩

/-- The members of a schedule are sorted. -/
theorem sorted_written (normal : schedule.IsNormal) :
  ∀ m ∈ schedule.written.entries, m.2.Sorted
  := by
  intro m m_mem
  obtain ⟨s, eq⟩ := strings_written normal m m_mem
  rw [eq]
  exact .string s

/-- What is written for a schedule is sorted. -/
theorem sorted_toJson (normal : schedule.IsNormal) :
  schedule.toJson.Sorted
  := .object _ schedule.written.ascending (sorted_written normal)

/-- What is written for a schedule is read back as it is. -/
theorem rereadAs_toJson (normal : schedule.IsNormal) :
  Json.RereadAs schedule.toJson schedule.toJson
  := Json.rereadAs_strings (strings_written normal)

/-- The members of a schedule are read from its text. -/
theorem run_members_toJson (normal : schedule.IsNormal) :
  Json.Reader.members.run schedule.toJson.compact = .ok schedule.written
  := by
  have read_entries := Json.rereadMembers?_strings (strings_written normal) (Json.nestingLimit - 1)
  rw [← Json.map_entries_rereadMap?] at read_entries
  obtain ⟨found, read_map, entries_eq⟩ := Option.map_eq_some_iff.mp read_entries
  obtain rfl := SortedMap.eq_of_entries entries_eq
  have text_eq : schedule.toJson.compact.toList =
      Json.Layout.compact.chars 0 (.object schedule.written.entries) ++ [] := by
    rw [List.append_nil]
    exact String.toList_ofList
  refine Json.Reader.run_eq_ok.mpr ⟨[], ?_, rfl⟩
  rw [text_eq, Json.Reader.members_written .compact 0 schedule.written (sorted_written normal),
    read_map]
  rfl

/-- A schedule is read from its text. -/
theorem ofText_toJson (normal : schedule.IsNormal) :
  ofText schedule.toJson.compact = .ok schedule
  := by
  have not_blank : Text.isAllBlank schedule.toJson.compact = false := by
    rw [Text.isAllBlank, Json.compact, String.toList_ofList]
    rfl
  rw [ofText, if_neg (by simp [not_blank]), run_members_toJson normal]
  exact congrArg Except.ok (ofMembers_of_perm normal (.refl _))

end Tariff.DiscountSchedule
