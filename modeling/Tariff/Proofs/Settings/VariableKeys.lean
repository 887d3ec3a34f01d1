import Mathlib.Data.List.TakeWhile
import Tariff.Settings.Store

/-!
# Keys of variables

A variable is listed under a key in lower case, and a key is looked up under a name in upper case.
The way there and back ends at the variable itself if what follows the start of its name consists of
capital letters, digits and underscores.
-/

namespace Tariff

/-! ### Variables that are text -/

namespace Environment

variable {environment : Environment} {names : List String} {name : String}

/-- If variables can be listed, their names are those that are listed and their values are text. -/
theorem of_names? (names_eq : environment.names? = some names) :
  environment.bindings.map (·.1) = names.map .text ∧
    ∀ binding ∈ environment.bindings, ∃ value, binding.2 = .text value
  := by
  unfold names? at names_eq
  generalize environment.bindings = bindings at names_eq ⊢
  induction bindings generalizing names with
  | nil =>
    cases names_eq
    exact ⟨rfl, nofun⟩
  | cons binding bindings ih =>
    rw [List.mapM_cons] at names_eq
    obtain ⟨name, name_eq, others_eq⟩ := Option.bind_eq_some_iff.mp names_eq
    obtain ⟨others, listed, rest_eq⟩ := Option.bind_eq_some_iff.mp others_eq
    obtain rfl := Option.some.inj rest_eq
    obtain ⟨others_named, others_text⟩ := ih listed
    have text : binding.1 = .text name ∧ ∃ value, binding.2 = .text value := by
      obtain ⟨_ | _, _ | _⟩ := binding <;> cases name_eq
      exact ⟨rfl, _, rfl⟩
    constructor
    · rw [List.map_cons, others_named, text.1]
      rfl
    · exact List.forall_mem_cons.mpr ⟨text.2, others_text⟩

/-- What is looked up among variables that can be listed is text. -/
theorem exists_text_of_lookup (names_eq : environment.names? = some names) {key value : HostText}
    (found : environment.bindings.lookup key = some value) :
  ∃ s, value = .text s
  := by
  obtain ⟨before, after, bindings_eq, -⟩ := List.lookup_eq_some_iff.mp found
  apply (of_names? names_eq).2 (key, value)
  simp [bindings_eq]

/-- Among variables that can be listed any can be read. -/
theorem exists_get (names_eq : environment.names? = some names) (name : String) :
  ∃ value?, environment.get name = .ok value?
  := by
  have all_text : ∀ value, environment.find? name = some value → ∃ s, value = .text s := by
    intro value found
    unfold find? at found
    split at found
    case isTrue => cases found
    case isFalse =>
      dsimp only at found
      split at found
      case h_1 => exact exists_text_of_lookup names_eq found
      case h_2 =>
        obtain ⟨whole, looked_up, after_eq⟩ := Option.bind_eq_some_iff.mp found
        obtain ⟨s, rfl⟩ := exists_text_of_lookup names_eq looked_up
        rw [HostText.after?] at after_eq
        split at after_eq
        case isTrue => exact ⟨_, (Option.some.inj after_eq).symm⟩
        case isFalse => cases after_eq
  rw [get]
  cases found : environment.find? name with
  | none => exact ⟨none, rfl⟩
  | some value =>
    obtain ⟨s, rfl⟩ := all_text value found
    exact ⟨some s, rfl⟩

/-- Where no equal sign stands, every character is another one. -/
theorem forall_ne_of_not_mem {cs : List Char} (no_sign : '=' ∉ cs) :
  ∀ c ∈ cs, decide (c ≠ '=') = true
  := by
  intro c c_mem
  rw [decide_eq_true_iff]
  rintro rfl
  exact no_sign c_mem

/-- A name without an equal sign behind its first character is the name of a variable. -/
theorem find?_of_not_mem (name_ne : name ≠ "") (no_sign : '=' ∉ name.toList.drop 1) :
  environment.find? name = environment.bindings.lookup (.text name)
  := by
  have differ := forall_ne_of_not_mem no_sign
  have owner_eq : owner name = name := by
    rw [owner, List.takeWhile_eq_self_iff.mpr differ, List.take_append_drop, String.ofList_toList]
  rw [find?, if_neg name_ne, List.dropWhile_eq_nil_iff.mpr differ, owner_eq]

/-- A variable that is listed is read under its name. -/
theorem exists_get_of_mem (names_eq : environment.names? = some names) (name_mem : name ∈ names)
    (isName : isName name = true) :
  ∃ value, environment.get name = .ok (some value)
  := by
  have named : HostText.text name ∈ environment.bindings.map (·.1) := by
    rw [(of_names? names_eq).1]
    exact List.mem_map_of_mem name_mem
  obtain ⟨binding, binding_mem, name_eq⟩ := List.mem_map.mp named
  have there : (environment.bindings.lookup (.text name)).isSome = true :=
    List.lookup_isSome_iff.mpr ⟨binding, binding_mem, beq_iff_eq.mpr name_eq.symm⟩
  obtain ⟨value, found⟩ := Option.isSome_iff_exists.mp there
  obtain ⟨s, rfl⟩ := exists_text_of_lookup names_eq found
  rw [Environment.isName, Bool.and_eq_true, decide_eq_true_iff, List.all_eq_true] at isName
  obtain ⟨name_ne, characters⟩ := isName
  have no_sign : '=' ∉ name.toList.drop 1 := by
    intro sign_mem
    have differs := characters _ (List.mem_of_mem_drop sign_mem)
    simp at differs
  exact ⟨s, by rw [get, find?_of_not_mem name_ne no_sign, found]⟩

end Environment

/-! ### Capitals -/

namespace Text

/-- A capital letter, a digit or an underscore. -/
def isCapital (c : Char) : Bool :=
  c.isUpper || c.isDigit || c = '_'

/-- Capitals are among the first characters. -/
theorem toNat_lt_of_isCapital {c : Char} (capital : isCapital c = true) :
  c.toNat < 128
  := by
  simp only [isCapital, Bool.or_eq_true, decide_eq_true_eq] at capital
  rcases capital with (upper | digit) | rfl
  · obtain ⟨-, le⟩ : 'A'.val ≤ c.val ∧ c.val ≤ 'Z'.val := of_decide_eq_true upper
    exact Nat.lt_of_le_of_lt (UInt32.le_iff_toNat_le.mp le) (by decide)
  · exact Nat.lt_of_le_of_lt (Char.isDigit_iff_toNat.mp digit).2 (by decide)
  · decide

/-- The character that lower case puts in place of a capital. -/
def lowerChar (c : Char) : Char :=
  Char.ofNat ((runImage lowerRuns c.toNat).getD c.toNat)

/-- A capital becomes one character, whatever it stands between. -/
theorem lowerChars_of_isCapital {c : Char} (capital : isCapital c = true) (before after : List Char) :
  lowerChars before c after = [lowerChar c]
  := by
  have lt := toNat_lt_of_isCapital capital
  have no_sigma : c ≠ 'Σ' := by
    rintro rfl
    revert lt
    decide
  have no_dotted : c ≠ 'İ' := by
    rintro rfl
    revert lt
    decide
  rw [lowerChars, if_neg no_sigma, if_neg no_dotted, lowerChar]
  cases runImage lowerRuns c.toNat with
  | none => simp [Char.ofNat_toNat]
  | some n => rfl

/-- Upper case brings a capital back. -/
theorem upperChars_lowerChar {c : Char} (capital : isCapital c = true) :
  upperChars (lowerChar c) = [c]
  := by
  have table : ∀ n < 128, isCapital (Char.ofNat n) = true →
      upperChars (lowerChar (Char.ofNat n)) = [Char.ofNat n] := by
    decide +kernel
  have back := table c.toNat (toNat_lt_of_isCapital capital)
  rw [Char.ofNat_toNat] at back
  exact back capital

/-- Upper case brings capitals back. -/
theorem upper_lower {cs : List Char} (capitals : ∀ c ∈ cs, isCapital c = true) :
  upper (lower (String.ofList cs)) = String.ofList cs
  := by
  have back (before : List Char) : (lowerFrom before cs).flatMap upperChars = cs := by
    induction cs generalizing before with
    | nil => rfl
    | cons c cs ih =>
      obtain ⟨capital, others⟩ := List.forall_mem_cons.mp capitals
      rw [lowerFrom, lowerChars_of_isCapital capital, List.flatMap_append, ih others,
        List.flatMap_singleton, upperChars_lowerChar capital]
      rfl
  rw [upper, lower, String.toList_ofList, String.toList_ofList, back]

end Text

/-! ### Names and keys -/

namespace BasicStore

variable {start name : String} {environment : Environment} {names : List String}

/-- A name that a variable can have and that follows `start` with capitals. -/
def IsPlainName (start name : String) : Prop :=
  Environment.isName name = true ∧
    ∃ cs, name = start ++ String.ofList cs ∧ ∀ c ∈ cs, Text.isCapital c = true

/-- The key of a variable with a plain name is looked up under that name. -/
theorem variableName_variableKey (plain : IsPlainName start name) :
  variableName start (variableKey start name) = name
  := by
  obtain ⟨-, cs, rfl, capitals⟩ := plain
  have no_dots : cs.map (fun c => if c = '.' then '_' else c) = cs := by
    rw [List.map_congr_left, List.map_id]
    intro c c_mem
    rw [if_neg, id]
    rintro rfl
    cases capitals _ c_mem
  rw [variableKey, String.toList_append, List.drop_left, String.toList_ofList, variableName,
    Text.upper_lower capitals, String.toList_ofList, no_dots]

/-- A variable with a plain name is found under its key. -/
theorem found_variableKey {host : Host} (names_eq : host.environment.names? = some names)
    (name_mem : name ∈ names) (plain : IsPlainName start name) :
  ∃ text, (host.environment.get (variableName start (variableKey start name))) = .ok (some text)
  := by
  rw [variableName_variableKey plain]
  exact Environment.exists_get_of_mem names_eq name_mem plain.1

end BasicStore

end Tariff
