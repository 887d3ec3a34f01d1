import Tariff.Proofs.Binary64.Texts
import Tariff.Proofs.Settings.Landing
import Tariff.Proofs.TopUp.Schedules
import Tariff.Settings.Billing

/-!
# Billing rules that are saved

Rules are saved under their keys, and loaded from where they have been saved if no store in front
has one of the keys.  The main statements say what is loaded.  Discounts come back as they were.  Of
a format the style comes back, and the quota for a unit of currency as it is read back from its
digits, once by a store in a file and twice if that reloads, so that the format is the one that was
saved exactly if its number stays the same.
-/

namespace Tariff

namespace QuotaFormat

/-- A format is given by its parts. -/
theorem ofPerUnit_perUnit (format : QuotaFormat) :
  ofPerUnit format.style format.perUnit = format
  := by
  rw [ofPerUnit, dif_pos format.perUnit_usable]

/-- The default stays the same when it is read back. -/
theorem rereadReal_defaultPerUnit :
  Json.rereadReal defaultPerUnit = defaultPerUnit
  := by
  decide +kernel

/-- A number that has been read back gives the format that it came from only if it is the same: an
unusable one gives the default, which would have been read back as itself. -/
theorem ofPerUnit_rereadings_eq_iff {format : QuotaFormat} {count : Nat} :
  ofPerUnit format.style (Json.rereadReal^[count] format.perUnit) = format ↔
    Json.rereadReal^[count] format.perUnit = format.perUnit
  := by
  constructor
  · intro eq
    have perUnit_eq := congrArg perUnit eq
    rw [ofPerUnit] at perUnit_eq
    split at perUnit_eq
    case isTrue => exact perUnit_eq
    case isFalse =>
      rw [← perUnit_eq]
      exact Function.iterate_fixed rereadReal_defaultPerUnit count
  · intro same
    rw [same, ofPerUnit_perUnit]

end QuotaFormat

namespace BillingRules

variable {format : QuotaFormat} {store store' : Store} {host host' : Host} {keeping : Keeping}

/-! ### Discounts -/

/-- Discounts that have been saved are loaded as they were, in whatever order the members of their
object are taken. -/
theorem loadDiscounts_saveDiscounts (pairs : List (Decimal × Decimal))
    (saved : saveDiscounts (.ofList pairs) (store, host) = (.ok (), store', host'))
    (uncovered : store.Uncovered [discountsKey] host) :
  (loadDiscounts (store', host')).1 = .ok (.ofList pairs) ∧
    ∃ text found, (Access.get discountsKey (store', host')).1 = .ok (some text) ∧
      Json.Reader.members.run text = .ok found ∧
      ∀ members : List (String × Json), members.Perm found.entries →
        DiscountSchedule.ofMembers members = .ofList pairs
  := by
  have normal := DiscountSchedule.isNormal_ofList pairs
  have sorted := DiscountSchedule.sorted_toJson normal
  have steady := DiscountSchedule.rereadAs_toJson normal
  have set := Access.set_of_setAs saved
  obtain ⟨keeping, -, keeping_eq, -⟩ := Store.exists_answers_of_set set uncovered
  obtain ⟨next, get_eq⟩ :=
    Store.get_of_set set uncovered keeping_eq (Keeping.keeps_compact sorted steady steady)
  rw [Keeping.givenBack_steady sorted steady rfl] at get_eq
  have got := Access.get_of_get get_eq
  constructor
  · rw [loadDiscounts, map_eq_pure_bind, Access.bind_of_ok got]
    have loaded : discountsOf (some (DiscountSchedule.ofList pairs).toJson.compact) =
        .ofList pairs := by
      rw [discountsOf, Option.map_some, DiscountSchedule.ofText_toJson normal]
    exact congrArg Except.ok loaded
  · refine ⟨_, _, congrArg Prod.fst got, DiscountSchedule.run_members_toJson normal, ?_⟩
    intro members perm
    exact DiscountSchedule.ofMembers_of_perm normal perm

/-- A store in a file that reloads, behind an environment. -/
def behindEnvironment : Store :=
  .layered [.single (.environment "BILLING_"), .single (.file (.opened "s.json" true))]

/-- Discounts for a thousand and for nothing, the one with a place and the other with a sign. -/
def discountPairs : List (Decimal × Decimal) :=
  [((Decimal.ofPlaces? false 10000 1).getD .zero, (Decimal.ofPlaces? false 95 2).getD .zero),
    ((Decimal.ofPlaces? true 0 2).getD .zero, .one)]

/-- Discounts are loaded as they were saved in a file behind an environment without them. -/
theorem loadDiscounts_saveDiscounts_pair :
  let saved := saveDiscounts (.ofList discountPairs) (behindEnvironment, Session.bareHost)
  saved.1 = .ok () ∧ (loadDiscounts saved.2).1 = .ok (.ofList discountPairs)
  := by
  have succeeds : (saveDiscounts (.ofList discountPairs)
      (behindEnvironment, Session.bareHost)).1 = .ok () := by
    decide +kernel
  have uncovered : behindEnvironment.Uncovered [discountsKey] Session.bareHost := by
    unfold Store.Uncovered
    decide +kernel
  exact ⟨succeeds,
    (loadDiscounts_saveDiscounts discountPairs (Prod.ext succeeds rfl) uncovered).1⟩

/-! ### Formats -/

/-- A style is the one that its text prefers. -/
theorem ofPreference_isCurrency (style : AmountStyle) :
  AmountStyle.ofPreference (some (Json.bool style.isCurrency).compact) = style
  := by
  cases style <;> decide

/-- A truth value is kept however often it is read back. -/
theorem valueText_kept_kept (b : Bool) :
  SettingsFile.valueText (keeping.kept (keeping.kept (keeping.valueOf (Json.bool b).compact))) =
    (Json.bool b).compact
  := by
  rw [Keeping.valueOf_compact (.bool b) (Json.rereadAs_bool b)]
  cases keeping <;> rfl

/-- What is loaded after a format has been saved. -/
theorem loadFormat_saveFormat
    (saved : saveFormat format (store, host) = (.ok (), store', host'))
    (uncovered : store.Uncovered [styleKey, perUnitKey] host)
    (keeping_eq : store.keeping? = some keeping) :
  let perUnit := Json.rereadReal^[keeping.rereadings] format.perUnit
  (loadFormat (store', host')).1 = .ok (.ofPerUnit format.style perUnit) ∧
    ((loadFormat (store', host')).1 = .ok format ↔ perUnit = format.perUnit)
  := by
  have finite : format.perUnit.isFinite = true := (Bool.and_eq_true_iff.mp format.perUnit_usable).1
  have loaded : (loadFormat (store', host')).1 =
      .ok (.ofPerUnit format.style (Json.rereadReal^[keeping.rereadings] format.perUnit)) := by
    obtain ⟨⟨⟩, ⟨mid, host_mid⟩, saved_style, saved_perUnit⟩ := Access.bind_eq_ok.mp saved
    obtain ⟨keeping', values, keeping_eq', answers⟩ :=
      Store.exists_answers_of_set (Access.set_of_setAs saved_style) uncovered
    obtain rfl := Option.some.inj (keeping_eq'.symm.trans keeping_eq)
    have keeps_style : keeping'.Keeps (keeping'.valueOf (Json.bool format.style.isCurrency).compact) :=
      Keeping.keeps_compact (.bool _) (Json.rereadAs_bool _) (Json.rereadAs_bool _)
    have keeps_perUnit :
        keeping'.Keeps (keeping'.valueOf (Json.number (.real format.perUnit)).compact) :=
      Keeping.keeps_compact (.number _) (Json.rereadAs_real finite)
        (Json.rereadAs_real (Json.isFinite_rereadReal finite))
    have answers' := (answers.set (Access.set_of_setAs saved_style) keeps_style).set
      (Access.set_of_setAs saved_perUnit) keeps_perUnit
    obtain ⟨next, get_style, answers''⟩ := answers'.get List.mem_cons_self rfl
    obtain ⟨last, get_perUnit, -⟩ :=
      answers''.get (List.mem_cons_of_mem _ List.mem_cons_self) rfl
    have given_perUnit : SettingsFile.valueText
        (keeping'.kept (keeping'.valueOf (Json.number (.real format.perUnit)).compact)) =
          (Json.Number.real (Json.rereadReal^[keeping'.rereadings] format.perUnit)).toText :=
      Keeping.givenBack_real finite
    rw [valueText_kept_kept] at get_style
    rw [given_perUnit] at get_perUnit
    rw [loadFormat, Access.bind_of_ok (Access.get_of_get get_style),
      Access.bind_of_ok (Access.get_of_get get_perUnit), formatOf, ofPreference_isCurrency,
      Binary64.ofText_toText (Keeping.isFinite_rereadings finite _)]
    rfl
  refine ⟨loaded, ?_⟩
  rw [loaded, Except.ok.injEq, QuotaFormat.ofPerUnit_rereadings_eq_iff]

/-- A format with few digits is loaded as it was saved in a file behind an environment without it. -/
theorem loadFormat_saveFormat_quarter :
  let format := QuotaFormat.ofPerUnit .magnitude (1 / 4)
  let saved := saveFormat format (behindEnvironment, Session.bareHost)
  saved.1 = .ok () ∧ (loadFormat saved.2).1 = .ok format
  := by
  intro format saved
  have succeeds : saved.1 = .ok () := by decide +kernel
  have uncovered : behindEnvironment.Uncovered [styleKey, perUnitKey] Session.bareHost := by
    unfold Store.Uncovered
    decide +kernel
  have same : Json.rereadReal^[Keeping.reloaded.rereadings] format.perUnit = format.perUnit := by
    decide +kernel
  exact ⟨succeeds, (loadFormat_saveFormat (Prod.ext succeeds rfl) uncovered rfl).2.mpr same⟩

/-- The quota for a unit of currency can change in a store in a file: of its seventeen digits the
reader of numbers makes a neighbour. -/
theorem not_forall_loadFormat_saveFormat :
  ¬ ∀ (format : QuotaFormat) (leaf : BasicStore) (host : Host), leaf.keeping?.isSome = true →
    (saveFormat format (.single leaf, host)).1 = .ok () →
      (loadFormat (saveFormat format (.single leaf, host)).2).1 = .ok format
  := by
  intro all
  have same := all (.ofPerUnit .currency (20 / 11)) (.file (.opened "s.json" false))
    Session.bareHost rfl (by decide +kernel)
  revert same
  decide +kernel

end BillingRules

end Tariff
