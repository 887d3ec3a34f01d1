import Tariff.Settings.File

/-!
# Questions to a settings file

A store is asked for the value of a key or for the keys that start with a text.  Questions leave
the host as it is and read the entries at most as they are in the file, so that each of several
questions is answered as if it were the first.
-/

namespace Tariff

/-- A question to a store. -/
inductive Question where
  /-- What is the value of a key? -/
  | value (key : String)
  /-- Which keys start with a text? -/
  | keys (start : String)

/-- What a question finds. -/
inductive Finding where
  | value (text : Option String)
  | keys (keys : List String)
deriving DecidableEq

namespace SettingsFile

/-- Puts a question to a store. -/
def ask (store : SettingsFile) (host : Host) : Question → Reply SettingsFile Finding
  | .value key => (store.get key host).map .value
  | .keys start => (store.list start host).map .keys

/-- The answers to questions that are put one after the other. -/
def answers (store : SettingsFile) (host : Host) :
    List Question → List (Except StoreError Finding)
  | [] => []
  | question :: questions =>
    let reply := store.ask host question
    reply.answer :: reply.store.answers reply.host questions

/-- What a question finds in entries. -/
def finding (entries : SortedMap String Json) : Question → Finding
  | .value key => .value ((entries.find? key).map valueText)
  | .keys start =>
    .keys (entries.keys.filter fun key => start.toList.isPrefixOf key.toList)

/-- The entries that a store answers from. -/
def view (store : SettingsFile) (files : Files) : Except StoreError (SortedMap String Json) :=
  (store.loaded files).map entries

variable {store : SettingsFile} {host : Host} {files : Files}

/-! ### Loading -/

/-- A store that reloads answers from its file. -/
theorem view_of_autoReload (reload : store.autoReload = true) :
  store.view files = entriesIn files store.path
  := by
  unfold view loaded reloaded
  rw [reload, Bool.or_true, if_pos rfl]
  cases entriesIn files store.path <;> rfl

/-- A store that does not reload answers from the entries it has. -/
theorem view_of_cached {entries : SortedMap String Json} (reload : store.autoReload = false)
    (cached : store.cached = some entries) :
  store.view files = .ok entries
  := by
  simp [view, loaded, reload, cached, Except.map, SettingsFile.entries]

/-- A loaded store differs from the one before in its entries only, and it has some. -/
theorem of_loaded {next : SettingsFile} (loaded : store.loaded files = .ok next) :
  next.path = store.path ∧ next.autoReload = store.autoReload ∧ next.cached = some next.entries
  := by
  unfold SettingsFile.loaded at loaded
  split at loaded
  case isTrue =>
    unfold reloaded at loaded
    cases h : entriesIn files store.path with
    | error e =>
      rw [h] at loaded
      cases loaded
    | ok entries =>
      rw [h] at loaded
      cases loaded
      exact ⟨rfl, rfl, rfl⟩
  case isFalse full =>
    cases loaded
    obtain ⟨path, autoReload, cached⟩ := store
    cases cached with
    | none => simp at full
    | some entries => exact ⟨rfl, rfl, rfl⟩

/-- A store answers from the entries that are loaded. -/
theorem view_of_loaded {next : SettingsFile} (loaded : store.loaded files = .ok next) :
  store.view files = .ok next.entries
  := by
  rw [view, loaded]
  rfl

/-- Entries once loaded are loaded again as they are. -/
theorem view_loaded {next : SettingsFile} (loaded : store.loaded files = .ok next) :
  next.view files = .ok next.entries
  := by
  obtain ⟨path_eq, autoReload_eq, cached⟩ := of_loaded loaded
  cases reload : store.autoReload with
  | false => apply view_of_cached (autoReload_eq.trans reload) cached
  | true =>
    rw [view_of_autoReload (autoReload_eq.trans reload), path_eq, ← view_of_autoReload reload,
      view_of_loaded loaded]

/-! ### Answers -/

/-- A question is answered from the entries that are loaded for it, and leaves them. -/
theorem ask_eq (question : Question) :
  store.ask host question =
    match store.loaded host.files with
    | .ok next => ⟨.ok (finding next.entries question), next, host⟩
    | .error e => ⟨.error e, store, host⟩
  := by
  cases question <;>
    · simp only [ask, get, list, withLoaded]
      cases store.loaded host.files <;> rfl

/-- Questions one after the other are each answered from the same entries. -/
theorem answers_eq (questions : List Question) :
  store.answers host questions =
    questions.map fun question => (store.view host.files).map (finding · question)
  := by
  induction questions generalizing store with
  | nil => rfl
  | cons question questions ih =>
    have first : store.ask host question = _ := ask_eq question
    simp only [answers, List.map_cons]
    cases loaded : store.loaded host.files with
    | error e =>
      rw [loaded] at first
      rw [first, ih, view, loaded]
      rfl
    | ok next =>
      rw [loaded] at first
      rw [first, ih, view_loaded loaded, view_of_loaded loaded]
      rfl

/-- A question alone is answered from the entries that the store answers from. -/
theorem answer_ask (question : Question) :
  (store.ask host question).answer = (store.view host.files).map (finding · question)
  := by
  have answers_one : store.answers host [question] = _ := answers_eq [question]
  simpa [answers] using answers_one

end SettingsFile

end Tariff
