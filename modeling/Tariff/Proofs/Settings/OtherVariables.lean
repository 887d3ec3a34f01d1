import Tariff.Proofs.Settings.ListedKeys

/-!
# Variables of others

A store in the environment is for the variables whose names start with its own text.  Two environments
that have these variables in common give the same texts for its keys, whatever else they have, and
they list the same keys if the names and values of all variables are text.  As soon as one variable
is not, with whatever name, no key can be listed.
-/

namespace Tariff

namespace Environment

variable {start : String} {e f : Environment}

/-! ### Variables with a start in common -/

/-- The variables whose names start with a text. -/
def named (start : String) (environment : Environment) : List (HostText × HostText) :=
  environment.bindings.filter fun binding => (binding.1.after? start.toList).isSome

/-- Two environments have the same variables with names that start with a text, in any order; of
several with one name the same one comes first. -/
structure SameNamed (start : String) (e f : Environment) : Prop where
  perm : (e.named start).Perm (f.named start)
  first : ∀ name, (e.named start).lookup name = (f.named start).lookup name

/-- If a text has an equal sign behind its first character, so that all names which start with it reach
into the value of one variable, the environments agree on that. -/
def SameOwner (start : String) (e f : Environment) : Prop :=
  '=' ∈ start.toList.drop 1 →
    e.bindings.lookup (.text (owner start)) = f.bindings.lookup (.text (owner start))

/-- The names and values of all variables are text. -/
def IsText (environment : Environment) : Prop :=
  ∀ binding ∈ environment.bindings, (textName? binding).isSome = true

instance (environment : Environment) : Decidable environment.IsText :=
  inferInstanceAs (Decidable (∀ binding ∈ environment.bindings, (textName? binding).isSome = true))

/-- Of variables with different names each is looked up under its own. -/
theorem lookup_eq_some_iff_mem {bindings : List (HostText × HostText)}
    (different : (bindings.map (·.1)).Nodup) {name value : HostText} :
  bindings.lookup name = some value ↔ (name, value) ∈ bindings
  := by
  have mem_of_lookup {value : HostText} (found : bindings.lookup name = some value) :
      (name, value) ∈ bindings := by
    obtain ⟨before, after, bindings_eq, -⟩ := List.lookup_eq_some_iff.mp found
    rw [bindings_eq]
    exact List.mem_append_right _ List.mem_cons_self
  refine ⟨mem_of_lookup, fun there => ?_⟩
  have is_found : (bindings.lookup name).isSome = true :=
    List.lookup_isSome_iff.mpr ⟨_, there, beq_self_eq_true name⟩
  obtain ⟨value', found⟩ := Option.isSome_iff_exists.mp is_found
  obtain ⟨-, rfl⟩ := Prod.mk.inj
    (List.inj_on_of_nodup_map different (mem_of_lookup found) there rfl)
  exact found

/-- Variables with different names may stand in any order. -/
theorem SameNamed.of_nodup (perm : (e.named start).Perm (f.named start))
    (different : ((e.named start).map (·.1)).Nodup) :
  SameNamed start e f
  := by
  have different' : ((f.named start).map (·.1)).Nodup := (perm.map _).nodup_iff.mp different
  refine ⟨perm, fun name => Option.ext fun value => ?_⟩
  rw [lookup_eq_some_iff_mem different, lookup_eq_some_iff_mem different', perm.mem_iff]

/-- A text is followed in a name that is text if the name starts with it. -/
theorem isSome_after?_text {head : List Char} {s : String} :
  ((HostText.text s).after? head).isSome = head.isPrefixOf s.toList
  := by
  rw [HostText.after?]
  cases head.isPrefixOf s.toList <;> rfl

/-- A variable whose name starts with a text is looked up among those whose names do. -/
theorem lookup_named {name : HostText} (starts : (name.after? start.toList).isSome = true) :
  (e.named start).lookup name = e.bindings.lookup name
  := by
  unfold named
  induction e.bindings with
  | nil => rfl
  | cons binding bindings ih =>
    obtain ⟨key, value⟩ := binding
    rw [List.filter_cons, List.lookup_cons, ← ih]
    by_cases found : name = key
    · subst found
      rw [if_pos starts, List.lookup_cons]
    · rw [beq_false_of_ne found]
      split
      case isTrue => rw [List.lookup_cons, beq_false_of_ne found]
      case isFalse => rfl

/-- The same variables are looked up under names that start with the text. -/
theorem SameNamed.lookup_eq (same : SameNamed start e f) {name : HostText}
    (starts : (name.after? start.toList).isSome = true) :
  e.bindings.lookup name = f.bindings.lookup name
  := by
  rw [← lookup_named (e := e) starts, ← lookup_named (e := f) starts, same.first]

/-- A name that starts with a text is looked up as that text is, if it has an equal sign behind its first
character. -/
theorem owner_append_of_mem (in_start : '=' ∈ start.toList.drop 1) (rest : String) :
  owner (start ++ rest) = owner start
  := by
  unfold owner
  rw [String.toList_append]
  cases start_eq : start.toList with
  | nil =>
    rw [start_eq] at in_start
    cases in_start
  | cons c cs =>
    rw [start_eq, List.drop_one, List.tail_cons] at in_start
    have stops : cs.takeWhile (· ≠ '=') ≠ cs := by
      intro whole
      exact of_decide_eq_true (List.takeWhile_eq_self_iff.mp whole _ in_start) rfl
    simp only [List.cons_append, List.take_succ_cons, List.take_zero, List.drop_one, List.tail_cons]
    rw [List.takeWhile_append, if_neg]
    exact fun length_eq => stops ((List.takeWhile_prefix _).eq_of_length length_eq)

/-- What is looked up for a name that starts with a text starts with it too, if the text has no equal
sign behind its first character. -/
theorem prefix_owner_append (no_sign : '=' ∉ start.toList.drop 1) (rest : String) :
  start.toList <+: (owner (start ++ rest)).toList
  := by
  unfold owner
  rw [String.toList_append, String.toList_ofList]
  cases start_eq : start.toList with
  | nil => exact List.nil_prefix
  | cons c cs =>
    rw [start_eq, List.drop_one, List.tail_cons] at no_sign
    simp only [List.cons_append, List.take_succ_cons, List.take_zero, List.drop_one, List.tail_cons]
    rw [List.takeWhile_append_of_pos (forall_ne_of_not_mem no_sign)]
    exact List.prefix_append (c :: cs) _

/-- What is found under a name depends on the variable that is looked up for it. -/
theorem find?_congr {name : String}
    (same : e.bindings.lookup (.text (owner name)) = f.bindings.lookup (.text (owner name))) :
  e.find? name = f.find? name
  := by
  unfold find?
  rw [same]

/-- The same is found under every name that starts with the text. -/
theorem SameNamed.find?_eq (same : SameNamed start e f) (sameOwner : SameOwner start e f)
    (rest : String) :
  e.find? (start ++ rest) = f.find? (start ++ rest)
  := by
  apply find?_congr
  by_cases in_start : '=' ∈ start.toList.drop 1
  · rw [owner_append_of_mem in_start]
    exact sameOwner in_start
  · apply same.lookup_eq
    rw [isSome_after?_text, List.isPrefixOf_iff_prefix]
    exact prefix_owner_append in_start rest

/-! ### Variables that can be listed -/

/-- A variable that is text has a name that is text. -/
theorem of_textName? {binding : HostText × HostText} {name : String}
    (name_eq : textName? binding = some name) :
  binding.1 = .text name
  := by
  obtain ⟨_ | _, _ | _⟩ := binding <;> cases name_eq
  rfl

/-- If all variables are text, all their names are listed. -/
theorem names?_of_isText (isText : e.IsText) :
  e.names? = some (e.bindings.filterMap textName?)
  := by
  unfold names?
  unfold IsText at isText
  generalize e.bindings = bindings at isText ⊢
  induction bindings with
  | nil => rfl
  | cons binding bindings ih =>
    obtain ⟨binding_text, others_text⟩ := List.forall_mem_cons.mp isText
    obtain ⟨name, name_eq⟩ := Option.isSome_iff_exists.mp binding_text
    rw [List.mapM_cons, name_eq, ih others_text, List.filterMap_cons_some name_eq]
    rfl

/-- No variables can be listed exactly if one of them is not text. -/
theorem names?_eq_none_iff :
  e.names? = none ↔ ¬ e.IsText
  := by
  constructor
  · intro none_listed isText
    rw [names?_of_isText isText] at none_listed
    cases none_listed
  · intro not_text
    cases names_eq : e.names? with
    | none => rfl
    | some names =>
      obtain ⟨names_text, values_text⟩ := of_names? names_eq
      refine absurd (fun binding binding_mem => ?_) not_text
      have name_mem : binding.1 ∈ names.map HostText.text := by
        rw [← names_text]
        exact List.mem_map_of_mem binding_mem
      obtain ⟨name, -, name_eq⟩ := List.mem_map.mp name_mem
      obtain ⟨value, value_eq⟩ := values_text binding binding_mem
      rw [textName?, ← name_eq, value_eq]
      rfl

end Environment

namespace BasicStore

variable {start : String} {e f : Environment} {host host' : Host}

open Environment (SameNamed SameOwner)

/-- A name that starts with that of a key starts with the text of the store. -/
theorem starts_of_startsWith {prefixKey name : String}
    (starts : startsWith (variableName start prefixKey) name = true) :
  ((HostText.text name).after? start.toList).isSome = true
  := by
  rw [startsWith, variableName, String.toList_append, List.isPrefixOf_iff_prefix] at starts
  rw [Environment.isSome_after?_text, List.isPrefixOf_iff_prefix]
  exact (List.prefix_append _ _).trans starts

/-- The variables that are listed are among those whose names start with the text of the store. -/
theorem listedNames_eq (isText : e.IsText) (prefixKey : String) :
  listedNames start prefixKey e =
    (e.named start).filterMap fun binding =>
      (Environment.textName? binding).filter (startsWith (variableName start prefixKey))
  := by
  rw [listedNames, Environment.names?_of_isText isText, Option.getD_some, List.filter_filterMap,
    Environment.named, List.filterMap_filter]
  apply List.filterMap_congr
  intro binding binding_mem
  split
  case isTrue => rfl
  case isFalse other =>
    obtain ⟨name, named⟩ := Option.isSome_iff_exists.mp (isText binding binding_mem)
    have key_eq := Environment.of_textName? named
    rw [named, Option.filter_some, if_neg]
    intro starts
    apply other
    rw [key_eq]
    exact starts_of_startsWith starts

/-- The keys of variables are listed if all variables are text. -/
theorem variableKeys_of_isText (isText : e.IsText) (prefixKey : String) :
  variableKeys start prefixKey e =
    .ok (sorted ((listedNames start prefixKey e).map (variableKey start)))
  := by
  rw [variableKeys, listedNames, Environment.names?_of_isText isText]
  rfl

/-- No keys are listed exactly if a variable is not text. -/
theorem variableKeys_eq_error_iff (prefixKey : String) :
  variableKeys start prefixKey e = .error .unlistable ↔ ¬ e.IsText
  := by
  rw [← Environment.names?_eq_none_iff, variableKeys]
  cases e.names? <;> simp

/-- Environments with the same variables for a store list the same keys exactly if all variables are
text in both or in neither. -/
theorem forall_variableKeys_eq_iff (same : SameNamed start e f) :
  (∀ prefixKey, variableKeys start prefixKey e = variableKeys start prefixKey f) ↔
    (e.IsText ↔ f.IsText)
  := by
  constructor
  · intro listed_eq
    have error_iff := @variableKeys_eq_error_iff start
    rw [← not_iff_not, ← error_iff "", ← error_iff "", listed_eq]
  · intro text_iff prefixKey
    by_cases isText : e.IsText
    · have isText' := text_iff.mp isText
      rw [variableKeys_of_isText isText, variableKeys_of_isText isText', listedNames_eq isText,
        listedNames_eq isText']
      exact congrArg Except.ok (sorted_eq_of_perm ((same.perm.filterMap _).map _))
    · rw [(variableKeys_eq_error_iff prefixKey).mpr isText,
        (variableKeys_eq_error_iff prefixKey).mpr (text_iff.not.mp isText)]

/-- The error of a key is never that variables cannot be listed. -/
theorem get_ne_unlistable (key : String) (host : Host) :
  ((BasicStore.environment start).get key host).answer ≠ .error .unlistable
  := by
  rw [BasicStore.get]
  cases host.environment.get (variableName start key) <;> simp [Except.mapError]

/-- Between environments with the same variables for a store, no key tells the difference, and the lists
of keys tell it exactly if a variable is not text in one of the two alone.  No key fails to be looked
up for that, but no key can be listed. -/
theorem answers_of_sameNamed (same : SameNamed start host.environment host'.environment) :
  (SameOwner start host.environment host'.environment → ∀ key,
      ((BasicStore.environment start).get key host).answer =
        ((BasicStore.environment start).get key host').answer) ∧
    ((∀ prefixKey,
      ((BasicStore.environment start).list prefixKey host).answer =
        ((BasicStore.environment start).list prefixKey host').answer) ↔
      (host.environment.IsText ↔ host'.environment.IsText)) ∧
    ∀ key, ((BasicStore.environment start).get key host).answer ≠ .error .unlistable ∧
      (((BasicStore.environment start).list key host).answer = .error .unlistable ↔
        ¬ host.environment.IsText)
  := by
  refine ⟨fun sameOwner key => ?_, forall_variableKeys_eq_iff same, fun key =>
    ⟨get_ne_unlistable key host, variableKeys_eq_error_iff key⟩⟩
  have found_eq : host.environment.find? (variableName start key) =
      host'.environment.find? (variableName start key) := same.find?_eq sameOwner _
  rw [BasicStore.get, BasicStore.get, Environment.get, Environment.get, found_eq]

/-- Two variables, and one with another start whose value is not text. -/
def strayHost : Host :=
  ⟨.empty,
    ⟨[(.text "OTHER", .other [0xff]), (.text "APP_X", .text "2"), (.text "APP_RATE", .text "1")]⟩⟩

/-- The two variables alone, the other way round. -/
def ownHost : Host :=
  ⟨.empty, ⟨[(.text "APP_RATE", .text "1"), (.text "APP_X", .text "2")]⟩⟩

/-- The two hosts have the same variables for one store. -/
theorem sameNamed_strayHost :
  SameNamed "APP_" strayHost.environment ownHost.environment
  := .of_nodup (by decide) (by decide)

/-- All keys have the same texts on the two hosts, and the lists of keys differ. -/
theorem answers_of_sameNamed_stray :
  SameNamed "APP_" strayHost.environment ownHost.environment ∧
    (∀ key, ((BasicStore.environment "APP_").get key strayHost).answer =
      ((BasicStore.environment "APP_").get key ownHost).answer) ∧
    ¬ ∀ prefixKey, ((BasicStore.environment "APP_").list prefixKey strayHost).answer =
      ((BasicStore.environment "APP_").list prefixKey ownHost).answer
  := by
  obtain ⟨get_eq, list_iff, -⟩ := answers_of_sameNamed sameNamed_strayHost
  have no_sign : '=' ∉ "APP_".toList.drop 1 := by decide
  refine ⟨sameNamed_strayHost, get_eq fun in_start => absurd in_start no_sign, ?_⟩
  rw [list_iff]
  decide

/-- A variable that is not text makes a difference, whatever its name. -/
theorem not_forall_answers_eq :
  ¬ ∀ (start : String) (host host' : Host),
    SameNamed start host.environment host'.environment →
      (∀ key, ((BasicStore.environment start).get key host).answer =
        ((BasicStore.environment start).get key host').answer) ∧
      ∀ prefixKey, ((BasicStore.environment start).list prefixKey host).answer =
        ((BasicStore.environment start).list prefixKey host').answer
  := by
  intro all
  have text_iff : strayHost.environment.IsText ↔ ownHost.environment.IsText :=
    (forall_variableKeys_eq_iff sameNamed_strayHost).mp (all _ _ _ sameNamed_strayHost).2
  revert text_iff
  decide

-- A store with an equal sign in its text reaches into a variable whose name does not start with that.
example : ((BasicStore.environment "A=").get "b" ⟨.empty, ⟨[(.text "A", .text "B=C")]⟩⟩).answer =
    .ok (some "C") := by
  decide +kernel

end BasicStore

end Tariff
