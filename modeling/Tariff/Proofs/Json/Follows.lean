import Tariff.Json.Reading
import Tariff.Proofs.Except

/-!
# Readers that follow one another

A reader follows another one if it reads something related wherever the other reads anything, also
with more text behind, and leaves the same rest.  What is read up to the end of a text may go on in
the text behind it, so that a reader may also follow another one only where that leaves something.
Sequences and the parts between two brackets follow one another if their members do, and since the
bracket stands behind all parts, these do not have to be followed to the end of a text.
-/

namespace Tariff.Json

/-- There are at most as many characters from the first that is not blank. -/
theorem length_dropBlanks_le (cs : List Char) :
  (dropBlanks cs).length ≤ cs.length
  := (List.dropWhile_suffix _).length_le

/-- The first character that is left is not blank. -/
theorem isBlank_of_dropBlanks {cs rest : List Char} {c : Char} (h : dropBlanks cs = c :: rest) :
  isBlank c = false
  := by
  have head_not : ∀ x ∈ (cs.dropWhile isBlank).head?, isBlank x = false := by
    intro x x_mem
    have := List.head?_dropWhile_not isBlank cs
    rw [x_mem] at this
    apply this
  apply head_not
  rw [← dropBlanks, h]
  rfl

/-- Nothing is dropped where nothing is blank. -/
theorem dropBlanks_cons {c : Char} (h : isBlank c = false) (cs : List Char) :
  dropBlanks (c :: cs) = c :: cs
  := by
  simp [dropBlanks, h]

/-- Blanks are dropped up to the same character with more text behind. -/
theorem dropBlanks_append {cs : List Char} {c : Char} {rest : List Char}
    (h : dropBlanks cs = c :: rest) (tail : List Char) :
  dropBlanks (cs ++ tail) = c :: (rest ++ tail)
  := by
  unfold dropBlanks at h ⊢
  rw [List.dropWhile_append, h]
  simp

namespace Reader

variable {α β γ δ σ τ : Type} {n : Nat} {tail cs rest : List Char}

/-- A sequence of readers reads something when each of them does. -/
theorem bind_eq_ok {r : Reader α} {f : α → Reader β} {b : β} :
  (r >>= f) cs = .ok (b, rest) ↔ ∃ a mid, r cs = .ok (a, mid) ∧ f a mid = .ok (b, rest)
  := by
  change (r cs >>= fun p => f p.1 p.2) = _ ↔ _
  rw [Except.bind_eq_ok, Prod.exists]

/-- A sequence of readers goes on with what the first one reads. -/
theorem bind_of_ok {r : Reader α} {f : α → Reader β} {a : α} (read : r cs = .ok (a, rest)) :
  (r >>= f) cs = f a rest
  := by
  change (r cs >>= fun p => f p.1 p.2) = _
  rw [read]
  rfl

/-- A sequence of readers ends with the fault of the first one. -/
theorem bind_of_error {r : Reader α} {f : α → Reader β} {fault : Fault}
    (read : r cs = .error fault) :
  (r >>= f) cs = .error fault
  := by
  change (r cs >>= fun p => f p.1 p.2) = _
  rw [read]
  rfl

/-- A function is applied to what is read. -/
theorem map_eq_ok {r : Reader α} {f : α → β} {b : β} :
  (f <$> r) cs = .ok (b, rest) ↔ ∃ a, r cs = .ok (a, rest) ∧ f a = b
  := by
  rw [map_eq_pure_bind, bind_eq_ok]
  constructor
  · rintro ⟨a, mid, read, pure_eq⟩
    cases pure_eq
    exact ⟨a, read, rfl⟩
  · rintro ⟨a, read, rfl⟩
    exact ⟨a, rest, read, rfl⟩

/-- What a reader answers that reads something or nothing, and leaves `rest`. -/
def answer (fault : Fault) (rest : List Char) : Option α → Except Fault (α × List Char)
  | some a => .ok (a, rest)
  | none => .error fault

/-- A function is applied to the answer of a reader. -/
theorem map_answer {r : Reader α} {f : α → β} {fault : Fault} {a? : Option α}
    (read : r cs = answer fault rest a?) :
  (f <$> r) cs = answer fault rest (a?.map f)
  := by
  cases a? with
  | none =>
    rw [map_eq_pure_bind]
    apply bind_of_error read
  | some a => apply map_eq_ok.mpr ⟨a, read, rfl⟩

/-- A whole text is read if only blanks are left of it. -/
theorem run_eq_ok {r : Reader α} {text : String} {a : α} :
  r.run text = .ok a ↔ ∃ rest, r text.toList = .ok (a, rest) ∧ dropBlanks rest = []
  := by
  unfold run
  rw [Except.bind_eq_ok]
  constructor
  · rintro ⟨⟨b, rest⟩, read, finished⟩
    dsimp only at finished
    split at finished
    case isTrue blank =>
      cases finished
      exact ⟨rest, read, List.isEmpty_iff.mp blank⟩
    case isFalse => cases finished
  · rintro ⟨rest, read, blank⟩
    refine ⟨(a, rest), read, ?_⟩
    simp [blank, Except.pure_eq_ok]

/-- What is read from a whole text of which only blanks are left, if anything is. -/
theorem toOption_run {r : Reader α} {text : String} {a? : Option α}
    (read : (r text.toList).toOption = a?.map fun a => (a, rest)) (blank : dropBlanks rest = []) :
  (r.run text).toOption = a?
  := by
  unfold run
  cases answer : r text.toList with
  | error fault =>
    rw [answer] at read
    cases a? with
    | none => rfl
    | some a => cases read
  | ok p =>
    rw [answer] at read
    cases a? with
    | none => cases read
    | some a =>
      cases read
      simp [blank, bind, Except.bind, pure, Except.pure, Except.toOption]

/-- Wherever the first reader reads something from at most `n` characters, the second reads
something related with `tail` behind them, and leaves the same.  Where nothing is left it does so only
if the end of the text is settled. -/
def Follows (settled : Prop) (n : Nat) (tail : List Char) (R : α → β → Prop) (r : Reader α)
    (r' : Reader β) : Prop :=
  ∀ cs a rest, cs.length ≤ n → r cs = .ok (a, rest) →
    rest.length ≤ cs.length ∧
      ∃ b, ((rest = [] → settled) → r' (cs ++ tail) = .ok (b, rest ++ tail)) ∧ R a b

variable {settled settled' : Prop} {R : α → β → Prop} {Q : γ → δ → Prop} {r : Reader α}
  {r' : Reader β}

/-- A reader that is followed to a settled end is followed. -/
theorem Follows.mono (follows : Follows settled n tail R r r') (less : settled' → settled) :
  Follows settled' n tail R r r'
  := by
  intro cs a rest short read
  obtain ⟨rest_le, b, read_b, related⟩ := follows cs a rest short read
  exact ⟨rest_le, b, fun ends => read_b fun empty => less (ends empty), related⟩

/-! ### Sequences -/

/-- Related values follow one another. -/
theorem Follows.pure {a : α} {b : β} (related : R a b) :
  Follows settled n tail R (pure a) (pure b)
  := by
  intro cs a' rest _ read
  cases read
  exact ⟨Nat.le_refl _, b, fun _ => rfl, related⟩

/-- Sequences follow one another if their members do. -/
theorem Follows.bind {f : α → Reader γ} {f' : β → Reader δ} (first : Follows settled n tail R r r')
    (second : ∀ a b, R a b → Follows settled n tail Q (f a) (f' b)) :
  Follows settled n tail Q (r >>= f) (r' >>= f')
  := by
  intro cs c rest short read
  obtain ⟨a, mid, read_a, read_c⟩ := bind_eq_ok.mp read
  obtain ⟨mid_le, b, read_b, related⟩ := first cs a mid short read_a
  obtain ⟨rest_le, d, read_d, related'⟩ := second a b related mid c rest (by omega) read_c
  refine ⟨by omega, d, fun ends => bind_eq_ok.mpr ⟨b, _, read_b ?_, read_d ends⟩, related'⟩
  -- If the first reader leaves nothing then so does the second.
  rintro rfl
  exact ends (List.length_eq_zero_iff.mp (Nat.le_zero.mp rest_le))

/-- A sequence follows another one whatever its first member leaves if the second reads nothing from
nothing. -/
theorem Follows.bind_of_needs {f : α → Reader γ} {f' : β → Reader δ}
    (first : Follows False n tail R r r')
    (second : ∀ a b, R a b → Follows settled n tail Q (f a) (f' b))
    (needs : ∀ a c rest, f a [] ≠ .ok (c, rest)) :
  Follows settled n tail Q (r >>= f) (r' >>= f')
  := by
  intro cs c rest short read
  obtain ⟨a, mid, read_a, read_c⟩ := bind_eq_ok.mp read
  obtain ⟨mid_le, b, read_b, related⟩ := first cs a mid short read_a
  obtain ⟨rest_le, d, read_d, related'⟩ := second a b related mid c rest (by omega) read_c
  refine ⟨by omega, d, fun ends => bind_eq_ok.mpr ⟨b, _, read_b ?_, read_d ends⟩, related'⟩
  rintro rfl
  exact needs a c rest read_c

/-- Functions applied to what is read keep a relation. -/
theorem Follows.map {f : α → γ} {f' : β → δ} (first : Follows settled n tail R r r')
    (related : ∀ a b, R a b → Q (f a) (f' b)) :
  Follows settled n tail Q (f <$> r) (f' <$> r')
  := by
  rw [map_eq_pure_bind, map_eq_pure_bind]
  apply first.bind
  intro a b h
  exact .pure (related a b h)

/-- A reader that reads nothing is followed by all others. -/
theorem Follows.fail {fault : Fault} :
  Follows settled n tail R (fail fault) r'
  := by
  intro cs a rest _ read
  cases read

/-! ### Words and marks -/

/-- Words are read alike with more text behind. -/
theorem follows_word {a : α} {b : β} (related : R a b) (letters : List Char) :
  Follows settled n tail R (word a letters) (word b letters)
  := by
  induction letters with
  | nil => exact .pure related
  | cons c letters ih =>
    intro cs a' rest short read
    cases cs with
    | nil => cases read
    | cons c' cs =>
      simp only [word, List.cons_append] at read ⊢
      split at read
      case isTrue eq =>
        obtain ⟨rest_le, b, read_b, related⟩ := ih cs a' rest (Nat.le_of_succ_le short) read
        rw [if_pos eq]
        exact ⟨Nat.le_succ_of_le rest_le, b, read_b, related⟩
      case isFalse => cases read

/-- Marks are read alike with more text behind. -/
theorem follows_mark (c : Char) :
  Follows settled n tail Eq (mark c) (mark c)
  := by
  intro cs a rest _ read
  unfold mark at read ⊢
  split at read
  case h_1 => cases read
  case h_2 c' rest' front =>
    rw [dropBlanks_append front tail]
    split at read
    case isTrue eq =>
      cases read
      have length_le := length_dropBlanks_le cs
      rw [front, List.length_cons] at length_le
      refine ⟨by omega, (), fun _ => ?_, rfl⟩
      simp only [if_pos eq]
    case isFalse => cases read

/-! ### Parts between brackets -/

variable {S : σ → τ → Prop} {close : Char} {part : σ → Reader σ} {part' : τ → Reader τ}

/-- The closing bracket at least is behind further parts. -/
theorem moreParts_nil (close : Char) (part : σ → Reader σ) (count : Nat) (s s' : σ)
    (rest : List Char) :
  moreParts close part count s [] ≠ .ok (s', rest)
  := by
  cases count <;> nofun

/-- Further parts follow one another if each part does that leaves something, and at least as many are
allowed. -/
theorem follows_moreParts {count count' : Nat} {s : σ} {t : τ}
    (follows_part : ∀ s t, S s t → Follows False n tail S (part s) (part' t))
    (count_le : count ≤ count') (related : S s t) :
  Follows settled n tail S (moreParts close part count s) (moreParts close part' count' t)
  := by
  induction count generalizing count' s t with
  | zero => exact .fail
  | succ count ih =>
    cases count' with
    | zero => cases count_le
    | succ count' =>
      intro cs s' rest short read
      unfold moreParts at read ⊢
      split at read
      case h_1 => cases read
      case h_2 c mid front =>
        have mid_lt : mid.length + 1 ≤ cs.length := by
          have length_le := length_dropBlanks_le cs
          rwa [front, List.length_cons] at length_le
        rw [dropBlanks_append front tail]
        dsimp only
        split at read
        case isTrue closed =>
          cases read
          rw [if_pos closed]
          exact ⟨by omega, t, fun _ => rfl, related⟩
        case isFalse not_closed =>
          split at read
          case isTrue comma =>
            rw [if_neg not_closed, if_pos comma]
            have both : Follows settled n tail S (part s >>= moreParts close part count)
                (part' t >>= moreParts close part' count') := by
              apply (follows_part s t related).bind_of_needs _ (moreParts_nil close part count)
              intro s t related
              apply ih (Nat.le_of_succ_le_succ count_le) related
            obtain ⟨rest_le, read'⟩ := both mid s' rest (by omega) read
            exact ⟨by omega, read'⟩
          case isFalse => cases read

/-- The parts of a container follow one another if each part does that leaves something. -/
theorem follows_parts {s : σ} {t : τ}
    (follows_part : ∀ s t, S s t → Follows False n tail S (part s) (part' t)) (related : S s t) :
  Follows settled n tail S (parts close part s) (parts close part' t)
  := by
  intro cs s' rest short read
  unfold parts at read ⊢
  split at read
  case h_1 => cases read
  case h_2 c mid front =>
    have mid_lt : mid.length + 1 ≤ cs.length := by
      have length_le := length_dropBlanks_le cs
      rwa [front, List.length_cons] at length_le
    rw [dropBlanks_append front tail]
    dsimp only
    split at read
    case isTrue closed =>
      cases read
      rw [if_pos closed]
      exact ⟨by omega, t, fun _ => rfl, related⟩
    case isFalse not_closed =>
      rw [if_neg not_closed]
      -- The length of the text bounds the number of its parts, also with more text behind.
      have all : Follows settled n tail S (part s >>= moreParts close part cs.length)
          (part' t >>= moreParts close part' (cs ++ tail).length) := by
        apply (follows_part s t related).bind_of_needs _ (moreParts_nil close part cs.length)
        intro s t related
        apply follows_moreParts follows_part (by simp) related
      have mid_short : (c :: mid).length ≤ n := Nat.le_trans mid_lt short
      obtain ⟨rest_le, read'⟩ := all (c :: mid) s' rest mid_short read
      exact ⟨Nat.le_trans rest_le mid_lt, read'⟩

end Reader

end Tariff.Json
