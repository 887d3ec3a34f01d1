import Tariff.Proofs.Json.Members
import Tariff.Proofs.Json.Scalars
import Tariff.Usage.Entry

/-!
# Entries that can be read

Each field of an entry takes in every JSON value, but for the model name.  The main statement says
that an object is read as an entry exactly if no field occurs twice in it and its model name, if it
has one, is a string or null.
-/

namespace Tariff.UsageEntry

open Json

variable {text : String}

/-! ### Fields -/

/-- The entry with a field taken from a JSON value. -/
def set (entry : UsageEntry) (field : Field) (value : Json) : UsageEntry :=
  match field with
  | .id => { entry with id := LenientNumber.int64? value }
  | .kind =>
    { entry with kind := ((LenientNumber.int64? value).map EntryKind.ofNumber).getD .unknown }
  | .quota => { entry with quota := (LenientNumber.int64? value).map Quota.mk }
  | .promptTokens => { entry with promptTokens := LenientNumber.tokenCount value }
  | .completionTokens => { entry with completionTokens := LenientNumber.tokenCount value }
  | .modelName => { entry with modelName := (modelNameOf? value).getD none }
  | .terms => { entry with terms := (UsageDetail.ofJson? value).map UsageDetail.terms }

/-- Whether a value can be that of a field. -/
def Field.accepts : Field → Json → Bool
  | .modelName, value => (modelNameOf? value).isSome
  | _, _ => true

/-- A value is taken into a field that accepts it. -/
def fill : Filling Field UsageEntry :=
  fun f entry v => if f.accepts v then some (entry.set f v) else none

/-- Two different fields can be set in any order. -/
theorem set_comm (entry : UsageEntry) {f g : Field} (h : f ≠ g) (v w : Json) :
  (entry.set f v).set g w = (entry.set g w).set f v
  := by
  cases f <;> cases g <;> first | rfl | exact absurd rfl h

/-- A field is filled alike before and after another one. -/
theorem fill_set (entry : UsageEntry) {f g : Field} (h : g ≠ f) (v w : Json) :
  fill g (entry.set f w) v = (fill g entry v).map (set · f w)
  := by
  unfold fill
  split
  · rw [Option.map_some, set_comm entry h v w]
  · rfl

/-- Fields of entries are read as values. -/
theorem fills_shape :
  shape.Fills fill
  := by
  intro f entry cs v mid read
  cases f with
  | modelName =>
    have refuses : Reader.isContainer v = true → modelNameOf? v = none := by
      cases v <;> simp [Reader.isContainer, modelNameOf?]
    have read_name := Reader.scalar_of_value read refuses
    unfold fill
    split
    case isTrue accepted =>
      obtain ⟨name, named⟩ := Option.isSome_iff_exists.mp accepted
      have set_eq : entry.set .modelName v = { entry with modelName := name } := by
        simp [set, named]
      rw [named] at read_name
      rw [set_eq]
      exact Reader.bind_eq_ok.mpr ⟨name, mid, read_name, rfl⟩
    case isFalse refused =>
      rw [Option.not_isSome_iff_eq_none.mp refused] at read_name
      exact Reader.bind_of_error read_name
  | _ => exact Reader.bind_eq_ok.mpr ⟨v, mid, read, rfl⟩

/-- The field with a name is the one that has the name among its labels. -/
theorem Field.ofLabel?_eq_some_iff {s : String} {f : Field} :
  ofLabel? s = some f ↔ s ∈ f.labels
  := by
  constructor
  · intro found
    simpa using List.find?_some found
  · have all_found : ∀ f ∈ all, ∀ s ∈ f.labels, ofLabel? s = some f := by decide
    exact all_found f (by cases f <;> decide) s

/-- A value can be that of a model name if it is null or a string. -/
theorem isSome_modelNameOf?_iff {v : Json} :
  (modelNameOf? v).isSome = true ↔ v = .null ∨ ∃ s, v = .string s
  := by
  cases v <;> simp [modelNameOf?]

/-! ### Texts -/

/-- An entry is read from a text by taking in its members in the order in which they stand. -/
theorem toOption_run_reader {members : List (String × Json)} (read : memberList text = .ok members) :
  (reader.run text).toOption = (members.foldlM (shape.take fill) ({}, [])).map (·.1)
  := by
  rw [reader, toOption_run_record {} fills_shape (fun _ => rfl) read]

/-- No two members belong to one field. -/
def FieldsOnce (members : List (String × Json)) : Prop :=
  (members.filterMap fun m => Field.ofLabel? m.1).Nodup

/-- Every model name is null or a string. -/
def NamesModels (members : List (String × Json)) : Prop :=
  ∀ m ∈ members, m.1 = "model_name" → m.2 = .null ∨ ∃ s, m.2 = .string s

/-- Fields accept all values but those of model names. -/
theorem forall_accepts_iff {members : List (String × Json)} :
  (∀ m ∈ members, ∀ f ∈ Field.ofLabel? m.1, f.accepts m.2 = true) ↔ NamesModels members
  := by
  apply forall₂_congr
  intro m _
  rw [← isSome_modelNameOf?_iff]
  constructor
  · intro accepted name_eq
    exact accepted .modelName (Field.ofLabel?_eq_some_iff.mpr (by simp [Field.labels, name_eq]))
  · intro named f f_mem
    cases f with
    | modelName =>
      have m_mem := Field.ofLabel?_eq_some_iff.mp f_mem
      exact named (by simpa [Field.labels] using m_mem)
    | _ => rfl

/-- An object is read as an entry exactly if no field occurs twice among its members, under whatever
names, and the model name, if it is there, is null or a string.  The values of the other fields do
not matter. -/
theorem exists_entry_iff {object : List (String × Json)}
    (isObject : ofText text = .ok (.object object)) :
  ∃ members, memberList text = .ok members ∧ (SortedMap.ofList members).entries = object ∧
    ((∃ entry, reader.run text = .ok entry) ↔ FieldsOnce members ∧ NamesModels members)
  := by
  obtain ⟨members, read, entries_eq⟩ := ofText_eq_object_iff.mp isObject
  refine ⟨members, read, entries_eq, ?_⟩
  have accepts_iff : ∀ f entry v, (fill f entry v).isSome = true ↔ f.accepts v = true := by
    simp [fill]
  have taken_iff : (members.foldlM (shape.take fill) ({}, [])).isSome = true ↔ _ :=
    isSome_foldlM_take accepts_iff members {} []
  have run_iff : (∃ entry, reader.run text = .ok entry) ↔ (reader.run text).toOption.isSome = true := by
    cases reader.run text <;> simp [Except.toOption]
  rw [run_iff, toOption_run_reader read, Option.isSome_map, taken_iff]
  simp only [List.not_mem_nil, not_false_eq_true, implies_true, true_and]
  exact and_congr_right fun _ => forall_accepts_iff

/-- The text of an object whose members have values of all kinds, an unknown one occurring twice. -/
def strayValues : String :=
  "\x7b\"id\": [[1e300]], \"type\": \x7b\"2\": -0\x7d, \"quota\": 18446744073709551615, \"x\": 1,
    \"completion_tokens\": \"many\", \"model_name\": null, \"x\": true, \"other\": \"\x7bbroken\"\x7d"

/-- An entry is read from values of all kinds. -/
theorem exists_entry_strayValues :
  ∃ object, ofText strayValues = .ok (.object object) ∧ ∃ entry, reader.run strayValues = .ok entry
  := by
  have fits : (memberList strayValues).toOption.any (fun members =>
      (members.filterMap fun m => Field.ofLabel? m.1).Nodup ∧
        ∀ m ∈ members, m.1 = "model_name" → (modelNameOf? m.2).isSome = true) = true := by
    decide +kernel
  cases read : memberList strayValues with
  | error fault =>
    rw [read] at fits
    cases fits
  | ok members =>
    rw [read] at fits
    obtain ⟨once, named⟩ := of_decide_eq_true fits
    have isObject := ofText_eq_object_iff.mpr ⟨members, read, rfl⟩
    obtain ⟨members', read', -, exists_iff⟩ := exists_entry_iff isObject
    obtain rfl := Except.ok.inj (read.symm.trans read')
    have names : NamesModels members :=
      fun m m_mem name_eq => isSome_modelNameOf?_iff.mp (named m m_mem name_eq)
    exact ⟨_, isObject, exists_iff.mpr ⟨once, names⟩⟩

end Tariff.UsageEntry
