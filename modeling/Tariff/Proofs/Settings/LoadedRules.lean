import Tariff.Proofs.Json.Scalars
import Tariff.Proofs.Settings.FoundTexts
import Tariff.Proofs.Settings.Landing
import Tariff.Proofs.Settings.Reopening
import Tariff.Proofs.TopUp.UsableMembers
import Tariff.Settings.Billing

/-!
# Billing rules that are loaded

Rules are loaded by looking up four keys, each of which gives its own part of them.  The main
statement says that loading fails only when looking up one of the keys does, that whatever is found
otherwise can be billed with, and that each part depends on what is found for its own key alone.
-/

namespace Tariff

namespace Access

variable {α β : Type}

/-- An action that only looks up keys: what is found tells its answer, and stays as it is. -/
structure LooksUp (x : Access α)
    (answer : (String → Except StoreError (Option String)) → Except StoreError α) : Prop where
  answer_eq (store : Store) (host : Host) : (x (store, host)).1 = answer (store.found host)
  host_eq (store : Store) (host : Host) : (x (store, host)).2.2 = host
  found_eq (store : Store) (host : Host) : Store.found (x (store, host)).2.1 host = store.found host

/-- A key is looked up. -/
theorem looksUp_get (key : String) :
  LooksUp (get key) fun found => found key
  where
  answer_eq _ _ := rfl
  host_eq _ _ := Store.host_get key
  found_eq _ _ := funext (Store.found_get key)

/-- Nothing is looked up for what is given. -/
theorem looksUp_pure (a : α) :
  LooksUp (pure a) fun _ => .ok a
  where
  answer_eq _ _ := rfl
  host_eq _ _ := rfl
  found_eq _ _ := rfl

/-- Keys are looked up one after the other. -/
theorem LooksUp.bind {x : Access α} {y : α → Access β}
    {f : (String → Except StoreError (Option String)) → Except StoreError α}
    {g : α → (String → Except StoreError (Option String)) → Except StoreError β}
    (first : LooksUp x f) (second : ∀ a, LooksUp (y a) (g a)) :
  LooksUp (x >>= y) fun found => f found >>= fun a => g a found
  := by
  have step (store : Store) (host : Host) :
      ∃ next, Store.found next host = store.found host ∧
        ((∃ e, f (store.found host) = .error e ∧ (x >>= y) (store, host) = (.error e, next, host)) ∨
          ∃ a, f (store.found host) = .ok a ∧ (x >>= y) (store, host) = y a (next, host)) := by
    have answer_eq := first.answer_eq store host
    have host_eq := first.host_eq store host
    have found_eq := first.found_eq store host
    rcases done : x (store, host) with ⟨e | a, next, host'⟩
    · rw [done] at answer_eq host_eq found_eq
      cases host_eq
      exact ⟨next, found_eq, .inl ⟨e, answer_eq.symm, bind_of_error done⟩⟩
    · rw [done] at answer_eq host_eq found_eq
      cases host_eq
      exact ⟨next, found_eq, .inr ⟨a, answer_eq.symm, bind_of_ok done⟩⟩
  constructor
  · intro store host
    obtain ⟨next, found_eq, ⟨e, failed, done⟩ | ⟨a, given, done⟩⟩ := step store host
    · rw [done, failed]
      rfl
    · rw [done, given, (second a).answer_eq, found_eq]
      rfl
  · intro store host
    obtain ⟨next, found_eq, ⟨e, failed, done⟩ | ⟨a, given, done⟩⟩ := step store host
    · rw [done]
    · rw [done, (second a).host_eq]
  · intro store host
    obtain ⟨next, found_eq, ⟨e, failed, done⟩ | ⟨a, given, done⟩⟩ := step store host
    · rw [done]
      exact found_eq
    · rw [done, (second a).found_eq, found_eq]

end Access

namespace QuotaFormat

/-- A format has the style that it is given. -/
theorem style_ofPerUnit (style : AmountStyle) (perUnit : Binary64) :
  (ofPerUnit style perUnit).style = style
  := by
  rw [ofPerUnit]
  split <;> rfl

/-- A format's quota for a unit of currency is the same whatever its style. -/
theorem perUnit_ofPerUnit (style style' : AmountStyle) (perUnit : Binary64) :
  (ofPerUnit style perUnit).perUnit = (ofPerUnit style' perUnit).perUnit
  := by
  rw [ofPerUnit, ofPerUnit]
  split <;> rfl

end QuotaFormat

namespace BillingRules

/-- The keys of the rules. -/
def keys : List String :=
  [styleKey, perUnitKey, discountsKey, exchangeRateKey]

/-- The rules that the texts of the keys give. -/
def ofTexts (style perUnit discounts exchangeRate : Option String) : BillingRules where
  format := formatOf style perUnit
  discounts := discountsOf discounts
  exchangeRate := exchangeRateOf exchangeRate

/-- Rules that can be billed with. -/
structure Usable (rules : BillingRules) : Prop where
  perUnit_finite : rules.format.perUnit.isFinite = true
  perUnit_pos : 0 < rules.format.perUnit
  amounts_ascending : rules.discounts.entries.Pairwise fun e f => e.1 < f.1
  multipliers_pos : ∀ e ∈ rules.discounts.entries, .zero < e.2
  exchangeRate_pos : .zero < rules.exchangeRate

variable {store : Store} {host : Host}

/-! ### Looking up the keys -/

/-- What is found for two keys gives the format. -/
theorem looksUp_loadFormat :
  Access.LooksUp loadFormat fun found => do
    let style ← found styleKey
    let perUnit ← found perUnitKey
    return formatOf style perUnit
  := (Access.looksUp_get styleKey).bind fun style =>
    (Access.looksUp_get perUnitKey).bind fun perUnit => Access.looksUp_pure (formatOf style perUnit)

/-- What is found for their key gives the discounts. -/
theorem looksUp_loadDiscounts :
  Access.LooksUp loadDiscounts fun found => do return discountsOf (← found discountsKey)
  := by
  rw [loadDiscounts, map_eq_pure_bind]
  exact (Access.looksUp_get discountsKey).bind fun text => Access.looksUp_pure (discountsOf text)

/-- What is found for its key gives the exchange rate. -/
theorem looksUp_loadExchangeRate :
  Access.LooksUp loadExchangeRate fun found => do return exchangeRateOf (← found exchangeRateKey)
  := by
  rw [loadExchangeRate, map_eq_pure_bind]
  exact (Access.looksUp_get exchangeRateKey).bind fun text =>
    Access.looksUp_pure (exchangeRateOf text)

/-- What is found for the four keys gives the rules. -/
theorem answer_load (store : Store) (host : Host) :
  (load (store, host)).1 = do
    let style ← store.found host styleKey
    let perUnit ← store.found host perUnitKey
    let discounts ← store.found host discountsKey
    let exchangeRate ← store.found host exchangeRateKey
    return ofTexts style perUnit discounts exchangeRate
  := by
  have looksUp := looksUp_loadFormat.bind fun format => looksUp_loadDiscounts.bind fun discounts =>
    looksUp_loadExchangeRate.bind fun exchangeRate =>
      Access.looksUp_pure (BillingRules.mk format discounts exchangeRate)
  rw [load, looksUp.answer_eq]
  cases store.found host styleKey with
  | error e => rfl
  | ok style =>
    cases store.found host perUnitKey with
    | error e => rfl
    | ok perUnit =>
      cases store.found host discountsKey with
      | error e => rfl
      | ok discounts => cases store.found host exchangeRateKey <;> rfl

/-- Rules are loaded from the texts that are found for the four keys. -/
theorem load_eq_ok_iff {rules : BillingRules} :
  (load (store, host)).1 = .ok rules ↔
    ∃ style perUnit discounts exchangeRate, store.found host styleKey = .ok style ∧
      store.found host perUnitKey = .ok perUnit ∧ store.found host discountsKey = .ok discounts ∧
        store.found host exchangeRateKey = .ok exchangeRate ∧
          rules = ofTexts style perUnit discounts exchangeRate
  := by
  rw [answer_load]
  constructor
  · intro loaded
    obtain ⟨style, style_eq, loaded⟩ := Except.bind_eq_ok.mp loaded
    obtain ⟨perUnit, perUnit_eq, loaded⟩ := Except.bind_eq_ok.mp loaded
    obtain ⟨discounts, discounts_eq, loaded⟩ := Except.bind_eq_ok.mp loaded
    obtain ⟨exchangeRate, exchangeRate_eq, loaded⟩ := Except.bind_eq_ok.mp loaded
    exact ⟨style, perUnit, discounts, exchangeRate, style_eq, perUnit_eq, discounts_eq,
      exchangeRate_eq, (Except.pure_eq_ok.mp loaded).symm⟩
  · rintro ⟨style, perUnit, discounts, exchangeRate, style_eq, perUnit_eq, discounts_eq,
      exchangeRate_eq, rfl⟩
    rw [style_eq, perUnit_eq, discounts_eq, exchangeRate_eq]
    rfl

/-- Rules are not loaded if looking up one of the four keys fails. -/
theorem of_load_eq_error {e : StoreError} (failed : (load (store, host)).1 = .error e) :
  ∃ key ∈ keys, store.found host key = .error e
  := by
  rw [answer_load] at failed
  rcases Except.bind_eq_error.mp failed with failed | ⟨style, -, failed⟩
  · exact ⟨styleKey, by decide, failed⟩
  rcases Except.bind_eq_error.mp failed with failed | ⟨perUnit, -, failed⟩
  · exact ⟨perUnitKey, by decide, failed⟩
  rcases Except.bind_eq_error.mp failed with failed | ⟨discounts, -, failed⟩
  · exact ⟨discountsKey, by decide, failed⟩
  rcases Except.bind_eq_error.mp failed with failed | ⟨exchangeRate, -, failed⟩
  · exact ⟨exchangeRateKey, by decide, failed⟩
  · cases failed

/-! ### What is found can be billed with -/

/-- Whatever is found for its key gives a positive exchange rate. -/
theorem exchangeRateOf_pos (text : Option String) :
  .zero < exchangeRateOf text
  := by
  rw [exchangeRateOf]
  cases text.bind Decimal.ofTrimmed? with
  | none => decide
  | some rate =>
    dsimp only
    split
    case isTrue positive => exact positive
    case isFalse => decide

/-- Whatever is found for the four keys gives rules that can be billed with. -/
theorem usable_ofTexts (style perUnit discounts exchangeRate : Option String) :
  (ofTexts style perUnit discounts exchangeRate).Usable
  := by
  obtain ⟨finite, positive⟩ := Bool.and_eq_true_iff.mp (formatOf style perUnit).perUnit_usable
  exact {
    perUnit_finite := finite
    perUnit_pos := of_decide_eq_true positive
    amounts_ascending := (discountsOf discounts).multipliers.ascending
    multipliers_pos := (discountsOf discounts).positive
    exchangeRate_pos := exchangeRateOf_pos exchangeRate }

/-! ### Members in any order -/

/-- The discounts of an object's text are those of its members in any order, if no two of the usable
ones have amounts of one value. -/
theorem discountsOf_eq_ofMembers {text : String} {found : SortedMap String Json}
    {members : List (String × Json)} (read : Json.Reader.members.run text = .ok found)
    (distinct : DiscountSchedule.HasDistinctAmounts
      (found.entries.filterMap DiscountSchedule.entryOf?))
    (perm : members.Perm found.entries) :
  discountsOf (some text) = .ofMembers members
  := by
  have isObject := Json.run_members_eq_ok_iff_ofText.mp read
  rw [DiscountSchedule.ofMembers_perm distinct perm, discountsOf, Option.map_some,
    DiscountSchedule.ofText_of_object isObject]

/-! ### Loading -/

/-- Loading fails only if looking up one of the four keys does, and gives rules that can be billed
with otherwise.  Each part of the rules depends on what is found for its own key alone, the discounts
whatever the order in which the members of their object are taken, if no two usable ones have amounts
of one value. -/
theorem load_usable (store : Store) (host : Host) :
  ((∃ key ∈ keys, ∃ e, store.found host key = .error e ∧ (load (store, host)).1 = .error e) ∨
    ∃ rules, (load (store, host)).1 = .ok rules ∧ rules.Usable) ∧
  ∀ (store' : Store) (host' : Host) (rules rules' : BillingRules),
    (load (store, host)).1 = .ok rules → (load (store', host')).1 = .ok rules' →
    (store.found host styleKey = store'.found host' styleKey →
      rules.format.style = rules'.format.style) ∧
    (store.found host perUnitKey = store'.found host' perUnitKey →
      rules.format.perUnit = rules'.format.perUnit) ∧
    (store.found host discountsKey = store'.found host' discountsKey →
      rules.discounts = rules'.discounts ∧
      ∀ text object members, store.found host discountsKey = .ok (some text) →
        Json.Reader.members.run text = .ok object →
        DiscountSchedule.HasDistinctAmounts (object.entries.filterMap DiscountSchedule.entryOf?) →
        members.Perm object.entries → rules.discounts = .ofMembers members) ∧
    (store.found host exchangeRateKey = store'.found host' exchangeRateKey →
      rules.exchangeRate = rules'.exchangeRate)
  := by
  constructor
  · cases loaded : (load (store, host)).1 with
    | error e =>
      obtain ⟨key, key_mem, failed⟩ := of_load_eq_error loaded
      exact .inl ⟨key, key_mem, e, failed, rfl⟩
    | ok rules =>
      obtain ⟨style, perUnit, discounts, exchangeRate, -, -, -, -, rfl⟩ := load_eq_ok_iff.mp loaded
      exact .inr ⟨_, rfl, usable_ofTexts style perUnit discounts exchangeRate⟩
  · intro store' host' rules rules' loaded loaded'
    obtain ⟨style, perUnit, discounts, exchangeRate, style_eq, perUnit_eq, discounts_eq,
      exchangeRate_eq, rfl⟩ := load_eq_ok_iff.mp loaded
    obtain ⟨style', perUnit', discounts', exchangeRate', style_eq', perUnit_eq', discounts_eq',
      exchangeRate_eq', rfl⟩ := load_eq_ok_iff.mp loaded'
    refine ⟨?_, ?_, ?_, ?_⟩
    · intro same
      rw [style_eq, style_eq', Except.ok.injEq] at same
      change (formatOf style perUnit).style = (formatOf style' perUnit').style
      unfold formatOf
      rw [QuotaFormat.style_ofPerUnit, QuotaFormat.style_ofPerUnit, same]
    · intro same
      rw [perUnit_eq, perUnit_eq', Except.ok.injEq] at same
      subst same
      exact QuotaFormat.perUnit_ofPerUnit (.ofPreference style) (.ofPreference style') _
    · intro same
      rw [discounts_eq, discounts_eq', Except.ok.injEq] at same
      subst same
      refine ⟨rfl, ?_⟩
      intro text object members text_eq read distinct perm
      obtain rfl := Except.ok.inj (discounts_eq.symm.trans text_eq)
      exact discountsOf_eq_ofMembers read distinct perm
    · intro same
      rw [exchangeRate_eq, exchangeRate_eq', Except.ok.injEq] at same
      subst same
      rfl

/-- Discounts for a hundred and for fifty. -/
def roundDiscounts : DiscountSchedule :=
  .ofList [(⟨false, 100, 0, by decide, by decide⟩, ⟨false, 95, 2, by decide, by decide⟩),
    (⟨false, 50, 0, by decide, by decide⟩, ⟨false, 97, 2, by decide, by decide⟩)]

/-- Texts for the four keys, the first two of them unusable. -/
def ruleTexts : SortedMap String String :=
  .ofList [(styleKey, "maybe"), (perUnitKey, "-inf"),
    (discountsKey, roundDiscounts.toJson.compact), (exchangeRateKey, " 7.3 ")]

/-- The same rules are loaded from texts in memory and from the same texts behind an environment
without them, the discounts being those of the members of their object in another order. -/
theorem load_usable_ruleTexts :
  let store := Store.memory "rules" ruleTexts
  let store' : Store := .layered [Store.environment "QUOTA_", store]
  ∃ rules rules', (load (store, Session.bareHost)).1 = .ok rules ∧ rules.Usable ∧
    (load (store', Session.bareHost)).1 = .ok rules' ∧ rules.format.style = rules'.format.style ∧
      rules.format.perUnit = rules'.format.perUnit ∧ rules.discounts = rules'.discounts ∧
        rules.discounts = .ofMembers roundDiscounts.written.entries.reverse ∧
          rules.exchangeRate = rules'.exchangeRate
  := by
  intro store store'
  have loads (s : Store) (all : ∀ key ∈ keys, (s.found Session.bareHost key).isOk = true) :
      ∃ rules, (load (s, Session.bareHost)).1 = .ok rules ∧ rules.Usable := by
    rcases (load_usable s Session.bareHost).1 with ⟨key, key_mem, e, failed, -⟩ | loaded
    · have found := all key key_mem
      rw [failed] at found
      cases found
    · exact loaded
  obtain ⟨rules, loaded, usable⟩ := loads store (by decide +kernel)
  obtain ⟨rules', loaded', -⟩ := loads store' (by decide +kernel)
  obtain ⟨style_eq, perUnit_eq, discounts_eq, exchangeRate_eq⟩ :=
    (load_usable store Session.bareHost).2 store' Session.bareHost rules rules' loaded loaded'
  obtain ⟨same, of_members⟩ := discounts_eq (by decide +kernel)
  have distinct : DiscountSchedule.HasDistinctAmounts
      (roundDiscounts.written.entries.filterMap DiscountSchedule.entryOf?) := by
    unfold DiscountSchedule.HasDistinctAmounts
    decide +kernel
  have read : Json.Reader.members.run roundDiscounts.toJson.compact = .ok roundDiscounts.written :=
    DiscountSchedule.run_members_toJson (DiscountSchedule.isNormal_ofList _)
  have reversed := of_members _ _ roundDiscounts.written.entries.reverse (by decide +kernel) read
    distinct (List.reverse_perm _)
  exact ⟨rules, rules', loaded, usable, loaded', style_eq (by decide +kernel),
    perUnit_eq (by decide +kernel), same, reversed, exchangeRate_eq (by decide +kernel)⟩

end BillingRules

end Tariff
