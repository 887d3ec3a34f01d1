import Tariff.Proofs.Json.Scalars
import Tariff.Proofs.Settings.Landing
import Tariff.Settings.Access

/-!
# Typed values of settings

A value of one of several types is set as a JSON text and read from the text that the store gives
back.  The main statement says when the value is read that has been set: truth values and integers
always, numbers that stay the same when they are read back as often as it takes, and strings and
names only from a store that keeps texts as they are, as a store in a file gives them without their
quotes.
-/

namespace Tariff

/-- The types of the values that settings have. -/
inductive SettingKind where
  | bool
  | integer
  | real
  | string
  | quota
  | style
  | basis

namespace SettingKind

/-- The values of a type. -/
abbrev Value : SettingKind → Type
  | .bool => Bool
  | .integer => Int64
  | .real => Binary64
  | .string => String
  | .quota => Quota
  | .style => AmountStyle
  | .basis => PricingBasis

/-- The JSON value that a value is set as. -/
def toJson : (kind : SettingKind) → kind.Value → Json
  | .bool, b => .bool b
  | .integer, n => .number (.integer n.toInt)
  | .real, x => .number (.real x)
  | .string, s => .string s
  | .quota, q => q.toJson
  | .style, s => .string s.name
  | .basis, b => .string b.name

/-- Reads a value of a type. -/
def reader : (kind : SettingKind) → Json.Reader kind.Value
  | .bool => .bool
  | .integer => .int64
  | .real => .real
  | .string => .string
  | .quota => .quota
  | .style => .amountStyle
  | .basis => .pricingBasis

/-- A value has a JSON text: numbers have to be finite. -/
def IsWritable : (kind : SettingKind) → kind.Value → Prop
  | .real, x => x.isFinite = true
  | _, _ => True

/-- A value is read from a store that has it set. -/
def IsKept (keeping : Keeping) : (kind : SettingKind) → kind.Value → Prop
  | .real, x => Json.rereadReal^[keeping.rereadings + 1] x = x
  | .string, _ | .style, _ | .basis, _ => keeping = .text
  | _, _ => True

variable {keeping : Keeping}

/-! ### Texts that are given back -/

/-- What a value is set as can be loaded again. -/
theorem keeps_toJson (kind : SettingKind) {v : kind.Value} (writable : kind.IsWritable v) :
  keeping.Keeps (keeping.valueOf (kind.toJson v).compact)
  := by
  cases kind with
  | bool => exact Keeping.keeps_compact (.bool v) (Json.rereadAs_bool v) (Json.rereadAs_bool v)
  | integer =>
    have steady := Json.rereadAs_integer (Json.inRange_int64 v)
    exact Keeping.keeps_compact (.number _) steady steady
  | real =>
    have finite := Json.isFinite_rereadReal writable
    exact Keeping.keeps_compact (.number _) (Json.rereadAs_real writable) (Json.rereadAs_real finite)
  | string =>
    exact Keeping.keeps_compact (.string v) (Json.rereadAs_string v) (Json.rereadAs_string v)
  | quota =>
    have steady := Json.rereadAs_integer (Json.inRange_int64 v.units)
    exact Keeping.keeps_compact (.number _) steady steady
  | style =>
    exact Keeping.keeps_compact (.string _) (Json.rereadAs_string _) (Json.rereadAs_string _)
  | basis =>
    exact Keeping.keeps_compact (.string _) (Json.rereadAs_string _) (Json.rereadAs_string _)

/-- Integers of 64 bits are read from their texts. -/
theorem run_int64 (n : Int64) :
  Json.Reader.int64.run (keeping.givenBack (Json.number (.integer n.toInt)).compact) = .ok n
  := by
  have steady := Json.rereadAs_integer (Json.inRange_int64 n)
  rw [Keeping.givenBack_steady (.number _) steady rfl]
  have read : (Json.Reader.integer Int64.minValue.toInt Int64.maxValue.toInt).run
      (Json.number (.integer n.toInt)).compact = .ok n.toInt := by
    apply Json.Reader.run_scalar_compact (.number _)
      (Json.Number.reread?_integer (Json.inRange_int64 n))
    exact if_pos ⟨n.minValue_le_toInt, n.toInt_le⟩
  rw [Json.Reader.int64, Json.Reader.run_map _ read, Int64.ofInt_toInt]

/-- A constant is read from its name only if the store gives that with quotes. -/
theorem run_constant_iff {α : Type} {ofName? : String → Option α} {name : String} {a : α}
    (named : ofName? name = some a) (unquoted : ∀ c mid, Json.dropBlanks name.toList = c :: mid →
      c ≠ '"' ∧ c ≠ '\x7b') :
  (Json.Reader.constant ofName?).run (keeping.givenBack (Json.string name).compact) = .ok a ↔
    keeping = .text
  := by
  rw [Keeping.givenBack_string]
  constructor
  · intro read
    by_contra no_text
    rw [if_neg no_text] at read
    obtain ⟨c, mid, front, quote | bracket⟩ := Json.Reader.of_run_constant read
    · exact (unquoted c mid front).1 quote
    · exact (unquoted c mid front).2 bracket
  · rintro rfl
    exact Json.Reader.run_constant_compact named

/-- A value is read from the text that is given back for it if it is kept. -/
theorem run_givenBack_iff (kind : SettingKind) {v : kind.Value} (writable : kind.IsWritable v) :
  kind.reader.run (keeping.givenBack (kind.toJson v).compact) = .ok v ↔ kind.IsKept keeping v
  := by
  cases kind with
  | bool =>
    rw [toJson, Keeping.givenBack_steady (.bool v) (Json.rereadAs_bool v) rfl]
    exact iff_true_intro (Json.Reader.run_scalar_compact (.bool v) rfl rfl)
  | integer => exact iff_true_intro (run_int64 v)
  | real =>
    have finite := Keeping.isFinite_rereadings writable keeping.rereadings
    have read : Json.Reader.real.run (Json.number (.real
        (Json.rereadReal^[keeping.rereadings] v))).compact =
        .ok (Json.rereadReal (Json.rereadReal^[keeping.rereadings] v)) :=
      Json.Reader.run_scalar_compact (.number _) (Json.Number.reread?_real finite) rfl
    have text_eq : keeping.givenBack (toJson .real v).compact =
        (Json.number (.real (Json.rereadReal^[keeping.rereadings] v))).compact :=
      Keeping.givenBack_real writable
    rw [text_eq, reader, read, IsKept, Function.iterate_succ_apply', Except.ok.injEq]
  | string =>
    rw [toJson, Keeping.givenBack_string]
    constructor
    · intro read
      by_contra no_text
      have not_text : keeping ≠ .text := no_text
      rw [if_neg not_text] at read
      exact Nat.lt_irrefl _ (Json.Reader.length_lt_of_string read)
    · rintro ⟨⟩
      exact Json.Reader.run_scalar_compact (.string v) rfl rfl
  | quota => exact iff_true_intro (Json.Reader.run_map Quota.mk (run_int64 v.units))
  | style =>
    apply run_constant_iff (AmountStyle.ofName?_name v)
    cases v <;> rintro c mid ⟨⟩ <;> decide
  | basis =>
    apply run_constant_iff (PricingBasis.ofName?_name v)
    cases v <;> rintro c mid ⟨⟩ <;> decide

/-! ### Settings -/

/-- What is set in a store that is not made of others is read as the value that it is, if that is
kept. -/
theorem getAs_setAs_iff (kind : SettingKind) {v : kind.Value} (writable : kind.IsWritable v)
    {leaf : BasicStore} {store' : Store} {host host' : Host} {key : String}
    (saved : Access.setAs key (kind.toJson v) (.single leaf, host) = (.ok (), store', host'))
    (keeping_eq : leaf.keeping? = some keeping) :
  (Access.getAs kind.reader key (store', host')).1 = .ok (some v) ↔ kind.IsKept keeping v
  := by
  have keeping_eq' : Store.keeping? (.single leaf) = some keeping := by
    rw [Store.keeping?, Layered.leaves, List.findSome?_cons, keeping_eq]
  obtain ⟨next, get_eq⟩ := Store.get_of_set (Access.set_of_setAs saved)
    (Store.uncovered_single keeping_eq [key] host) keeping_eq' (keeps_toJson kind writable)
  rw [Access.getAs_of_get get_eq, ← run_givenBack_iff kind writable]
  cases kind.reader.run (keeping.givenBack (kind.toJson v).compact) with
  | ok w => simp [Except.mapError, Except.map]
  | error fault => simp [Except.mapError, Except.map]

/-- A number with few digits is kept by a store in a file that reloads. -/
theorem getAs_setAs_half :
  let half : Binary64 := 1 / 2
  let saved := Access.setAs "k" (real.toJson half)
    (.single (.file (.opened "s.json" true)), Session.bareHost)
  saved.1 = .ok () ∧ (Access.getAs real.reader "k" saved.2).1 = .ok (some half)
  := by
  intro half saved
  have succeeds : saved.1 = .ok () := by decide +kernel
  have finite : half.isFinite = true := by decide +kernel
  have kept : Json.rereadReal^[Keeping.reloaded.rereadings + 1] half = half := by decide +kernel
  exact ⟨succeeds, (getAs_setAs_iff real finite (Prod.ext succeeds rfl) rfl).mpr kept⟩

/-- A value can be lost between setting and reading it: a store in a file gives a string without its
quotes. -/
theorem not_forall_getAs_setAs :
  ¬ ∀ (kind : SettingKind) (v : kind.Value) (leaf : BasicStore) (host : Host) (key : String),
    kind.IsWritable v → leaf.keeping?.isSome = true →
      (Access.setAs key (kind.toJson v) (.single leaf, host)).1 = .ok () →
        (Access.getAs kind.reader key
          (Access.setAs key (kind.toJson v) (.single leaf, host)).2).1 = .ok (some v)
  := by
  intro all
  have same := all .string "abc" (.file (.opened "s.json" false)) Session.bareHost "k" trivial rfl
    (by decide +kernel)
  have refused : (Access.getAs Json.Reader.string "k" (Access.setAs "k" (.string "abc")
      (.file (.opened "s.json" false), Session.bareHost)).2).1 =
      .error (.invalidValue "k" Json.Fault.malformed.describe) := by
    decide +kernel
  cases refused.symm.trans same

end SettingKind

end Tariff
