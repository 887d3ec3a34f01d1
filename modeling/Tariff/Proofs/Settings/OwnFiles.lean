import Tariff.Proofs.Host.PlainPaths
import Tariff.Proofs.Settings.Changes
import Tariff.Proofs.Settings.FoundTexts
import Tariff.Proofs.Settings.Landing

/-!
# Stores and the files of others

A store that is changed writes at most its own file and makes directories on the way to it.  A store
in another file finds what it found before: it may have read its file already, or its path leads to
the same as before.  Only a path that led nowhere can lead somewhere through a directory that has been
made; a path of names does not if none of the files lies in another.
-/

namespace Tariff

/-- Hosts with one environment and files between which nothing is lost. -/
structure Host.Grows (written made : Place → Prop) (host host' : Host) : Prop where
  environment_eq : host'.environment = host.environment
  files : Files.Grows written made host.files host'.files

/-- Nothing is lost where nothing changes. -/
theorem Host.Grows.refl {written made : Place → Prop} (host : Host) :
  Grows written made host host
  := ⟨rfl, .refl host.files⟩

/-- What is lost neither first nor then is not lost. -/
theorem Host.Grows.trans {written made : Place → Prop} {host mid host' : Host}
    (first : Grows written made host mid) (second : Grows written made mid host') :
  Grows written made host host'
  := ⟨second.environment_eq.trans first.environment_eq, first.files.trans second.files⟩

/-- More may be written and made. -/
theorem Host.Grows.mono {written made written' made' : Place → Prop} {host host' : Host}
    (grows : Grows written made host host') (written_mono : ∀ p, written p → written' p)
    (made_mono : ∀ p, made p → made' p) :
  Grows written' made' host host'
  := ⟨grows.environment_eq, grows.files.mono written_mono made_mono⟩

/-- Hosts between which nothing changes but that the file at a path may be written, and directories
on the way to it made. -/
def Host.GrowsAt (path? : Option Path) : Host → Host → Prop :=
  Grows (fun place => ∃ p ∈ path?, place = p.place) (fun place => ∃ p ∈ path?, p.OnTheWay place)

namespace SettingsFile

variable {store store' : SettingsFile} {host host' : Host} {files files' : Files}
  {written made : Place → Prop} {key : String} {there : Bool}

/-- The path of a store, if its text is one. -/
def path? (store : SettingsFile) : Option Path :=
  (Path.ofText store.path).toOption

/-- A path is that of a store if it is that of its text. -/
theorem path?_eq_some_iff {path : Path} :
  store.path? = some path ↔ Path.ofText store.path = .ok path
  := by
  rw [path?]
  cases Path.ofText store.path with
  | error e => exact ⟨nofun, nofun⟩
  | ok path' => simp [Except.toOption]

/-! ### What changes may do to the host -/

/-- Saving entries changes nothing but the store's own file and the way to it. -/
theorem growsAt_save (store : SettingsFile) (entries : SortedMap String Json) (host : Host) :
  host.GrowsAt store.path? (store.save entries host).host
  := by
  cases parsed : Path.ofText store.path with
  | error e =>
    rw [save, parsed]
    exact .refl host
  | ok path =>
    rw [save_eq parsed, path?_eq_some_iff.mpr parsed]
    refine ⟨rfl, (FileAction.grows_save path _ host.files).mono ?_ ?_⟩
    · rintro _ rfl
      exact ⟨path, rfl, rfl⟩
    · exact fun _ on_the_way => ⟨path, rfl, on_the_way⟩

/-- Loading entries changes nothing, and what follows may change the store's own file. -/
theorem growsAt_withLoaded {α : Type} {call : SettingsFile → Reply SettingsFile α}
    (each : ∀ next : SettingsFile, host.GrowsAt next.path? (call next).host) :
  host.GrowsAt store.path? (store.withLoaded host call).host
  := by
  rw [withLoaded]
  cases loaded : store.loaded host.files with
  | error e => exact .refl host
  | ok next =>
    have path_eq : next.path? = store.path? := by
      rw [path?, path?, (of_loaded loaded).1]
    rw [← path_eq]
    exact each next

/-- Setting a key changes nothing but the store's own file and the way to it. -/
theorem growsAt_set (store : SettingsFile) (key raw : String) (host : Host) :
  host.GrowsAt store.path? (store.set key raw host).host
  := growsAt_withLoaded fun next => next.growsAt_save _ host

/-- Removing a key changes nothing but the store's own file and the way to it. -/
theorem growsAt_delete (store : SettingsFile) (key : String) (host : Host) :
  host.GrowsAt store.path? (store.delete key host).host
  := by
  apply growsAt_withLoaded
  intro next
  split
  case h_1 => exact .refl host
  case h_2 => exact next.growsAt_save _ host

/-! ### Removing -/

/-- The file of a store is there if the store has read a key from it, or saved it there. -/
def HasFile (store : SettingsFile) (files : Files) (key : String) : Prop :=
  (store.entries.find? key).isSome → ∃ path content, store.path? = some path ∧
    files.node path = .ok (.file content)

/-- A store that has not read its file answers from it. -/
theorem view_of_unread (unread : store.cached = none) :
  store.view files = entriesIn files store.path
  := by
  unfold view loaded reloaded
  rw [unread, Option.isNone_none, Bool.true_or, if_pos rfl]
  cases entriesIn files store.path <;> rfl

/-- The file of a store is there if the store finds a key in it. -/
theorem HasFile.exists_file {entries : SortedMap String Json} (static : store.autoReload = false)
    (hasFile : store.HasFile files key) (view_eq : store.view files = .ok entries)
    (found : (entries.find? key).isSome) :
  ∃ path content, store.path? = some path ∧ files.node path = .ok (.file content)
  := by
  cases cached : store.cached with
  | some entries' =>
    obtain rfl := Except.ok.inj ((view_of_cached static cached).symm.trans view_eq)
    apply hasFile
    rwa [SettingsFile.entries, cached]
  | none =>
    rw [view_of_unread cached] at view_eq
    obtain ⟨path, parsed, ⟨-, rfl⟩ | ⟨content, node_eq⟩⟩ := of_entriesIn view_eq
    · cases found
    · exact ⟨path, _, path?_eq_some_iff.mpr parsed, node_eq⟩

/-- A key has been removed from the entries that were loaded, and nothing comes to be where nothing
was. -/
theorem of_delete (static : store.autoReload = false) (hasFile : store.HasFile host.files key)
    (deleted : store.delete key host = ⟨.ok there, store', host'⟩) :
  ∃ entries entries', store.view host.files = .ok entries ∧
    there = (entries.find? key).isSome ∧ store' = { store with cached := some entries' } ∧
    (∀ key', entries'.find? key' = if key' = key then none else entries.find? key') ∧
    ∀ path, host.files.node path = .error .notFound → host'.files.node path = .error .notFound
  := by
  rw [delete, withLoaded] at deleted
  cases loaded : store.loaded host.files with
  | error e =>
    rw [loaded] at deleted
    cases deleted
  | ok next =>
    obtain ⟨path_eq, autoReload_eq, cached⟩ := of_loaded loaded
    have view_eq := view_of_loaded loaded
    rw [loaded] at deleted
    dsimp only at deleted
    cases found : next.entries.find? key with
    | none =>
      rw [found] at deleted
      cases deleted
      refine ⟨store'.entries, store'.entries, view_eq, ?_, ?_, ?_, fun _ missing => missing⟩
      · rw [found]
        rfl
      · rw [← path_eq, ← autoReload_eq, ← cached]
      · intro key'
        split
        case isTrue same => rw [same, found]
        case isFalse => rfl
    | some value =>
      rw [found] at deleted
      have some_found : (next.entries.find? key).isSome := Option.isSome_of_eq_some found
      obtain ⟨path, content, path?_eq, there_eq⟩ := hasFile.exists_file static view_eq some_found
      have parsed : Path.ofText next.path = .ok path := path_eq ▸ path?_eq_some_iff.mp path?_eq
      rw [save_eq parsed] at deleted
      rcases saved : FileAction.save path
        (.text (Json.object (next.entries.erase key).entries).indented) host.files with ⟨answer, files'⟩
      have steady (other : Path) (missing : host.files.node other = .error .notFound) :
          files'.node other = .error .notFound := by
        have still_missing := FileAction.node_save_of_missing there_eq
          (.text (Json.object (next.entries.erase key).entries).indented) missing
        rwa [saved] at still_missing
      rw [saved] at deleted
      cases answer with
      | error e => cases deleted
      | ok _ =>
        cases deleted
        refine ⟨next.entries, next.entries.erase key, view_eq, ?_, ?_, ?_, steady⟩
        · rw [some_found]
        · rw [path_eq, autoReload_eq]
        · intro key'
          rw [SortedMap.find?_erase]
          simp only [Std.LawfulEqCmp.compare_eq_iff_eq]

/-! ### What others may do to the file -/

/-- The same is loaded from a path as before if it is not written, and not missing before and there
afterwards. -/
theorem entriesIn_of_grows (grows : Files.Grows written made files files')
    (unwritten : ∀ path ∈ store.path?, ¬ written path.place)
    (stays : store.IsMissing files → store.IsMissing files') :
  entriesIn files' store.path = entriesIn files store.path
  := by
  apply entriesIn_congr
  intro path parsed
  by_cases missing : files.node path = .error .notFound
  · obtain ⟨path', parsed', missing'⟩ := stays ⟨path, parsed, Files.isThere_eq_false_iff.mpr missing⟩
    obtain rfl := Except.ok.inj (parsed'.symm.trans parsed)
    rw [Files.isThere_eq_false_iff.mp missing', missing]
  · exact grows.node_eq missing (unwritten path (path?_eq_some_iff.mpr parsed))

/-- A store looks at its file: it has not read it yet, or reads it again. -/
def LooksAtFile (store : SettingsFile) : Prop :=
  store.cached = none ∨ store.autoReload = true

/-- A store answers as before if its file is not written, and, if it looks at it, not missing before
and there afterwards. -/
theorem view_of_grows (grows : Files.Grows written made files files')
    (unwritten : ∀ path ∈ store.path?, ¬ written path.place)
    (stays : store.LooksAtFile → store.IsMissing files → store.IsMissing files') :
  store.view files' = store.view files
  := by
  cases reload : store.autoReload with
  | true =>
    rw [view_of_autoReload reload, view_of_autoReload reload]
    exact entriesIn_of_grows grows unwritten (stays (.inr reload))
  | false =>
    cases cached : store.cached with
    | some entries => rw [view_of_cached reload cached, view_of_cached reload cached]
    | none =>
      rw [view_of_unread cached, view_of_unread cached]
      exact entriesIn_of_grows grows unwritten (stays (.inl cached))

end SettingsFile

namespace BasicStore

variable {store store' s t : BasicStore} {host host' : Host} {written made : Place → Prop}
  {key raw : String} {keeping : Keeping}

/-- The path of a store in a file. -/
def path? : BasicStore → Option Path
  | .file store => store.path?
  | _ => none

/-- A store that keeps the entries that it has read. -/
def IsStatic : BasicStore → Prop
  | .file store => store.autoReload = false
  | _ => True

/-- Whether a store keeps the entries that it has read can be computed. -/
instance : DecidablePred IsStatic
  | .file store => inferInstanceAs (Decidable (store.autoReload = false))
  | .memory _ _ => isTrue trivial
  | .environment _ => isTrue trivial

/-- A store that has not read its file, and the file is not there. -/
def IsMissing (store : BasicStore) (host : Host) : Prop :=
  match store with
  | .file store => store.cached = none ∧ store.IsMissing host.files
  | _ => False

/-- A store looks at its file, and the file is not there. -/
def LacksFile (store : BasicStore) (host : Host) : Prop :=
  match store with
  | .file store => store.LooksAtFile ∧ store.IsMissing host.files
  | _ => False

/-- A store that keeps the entries that it has read looks at its file until it has read it. -/
theorem lacksFile_iff (static : store.IsStatic) :
  store.LacksFile host ↔ store.IsMissing host
  := by
  cases store with
  | memory name entries => exact Iff.rfl
  | environment start => exact Iff.rfl
  | file store =>
    have no_reload : ¬ store.autoReload = true := ne_true_of_eq_false static
    exact and_congr_left' (or_iff_left no_reload)

/-- A store that has been asked for a key has read its file, unless something other than its absence
was in the way. -/
theorem not_isMissing_get (store : BasicStore) (key : String) (host : Host) :
  ¬ (store.get key host).store.IsMissing host
  := by
  cases store with
  | memory name entries => exact id
  | environment start => exact id
  | file file =>
    rintro ⟨unread, missing⟩
    change (file.get key host).store.cached = none at unread
    change (file.get key host).store.IsMissing host.files at missing
    rw [SettingsFile.get, SettingsFile.withLoaded] at unread missing
    cases loaded : file.loaded host.files with
    | error e =>
      rw [loaded] at unread missing
      have view_eq : file.view host.files = .ok .empty :=
        (SettingsFile.view_of_unread unread).trans missing.entriesIn
      rw [SettingsFile.view, loaded] at view_eq
      cases view_eq
    | ok next =>
      rw [loaded] at unread
      cases (SettingsFile.of_loaded loaded).2.2.symm.trans unread

/-- The file of a store is there if the store has read a key from it, or saved it there. -/
def HasFile (host : Host) (key : String) : BasicStore → Prop
  | .file store => store.HasFile host.files key
  | _ => True

/-- A store that has been opened has read no key. -/
theorem hasFile_opened (path : String) (autoReload : Bool) (host : Host) (key : String) :
  HasFile host key (.file (.opened path autoReload))
  := by
  intro found
  cases found

/-- Stores of which neither has its file where the other one has it, or below. -/
def Apart (s t : BasicStore) : Prop :=
  ∀ p ∈ s.path?, ∀ q ∈ t.path?, p.place.Apart q.place

/-- Whether two stores are apart can be computed. -/
instance : DecidableRel Apart := fun s t =>
  inferInstanceAs (Decidable (∀ p ∈ s.path?, ∀ q ∈ t.path?, p.place.Apart q.place))

/-- A store answers as it did on another host. -/
structure Unchanged (host host' : Host) (store : BasicStore) : Prop where
  contents_eq : store.contents host' = store.contents host
  found_eq (key : String) : store.found host' key = store.found host key

/-- A store answers as before if its file is not written, and not missing before and there afterwards
if it looks at it. -/
theorem unchanged_of_grows (grows : host.Grows written made host')
    (unwritten : ∀ path ∈ store.path?, ¬ written path.place)
    (stays : store.LacksFile host → store.LacksFile host') :
  store.Unchanged host host'
  := by
  cases store with
  | memory name entries => exact ⟨rfl, fun _ => rfl⟩
  | environment start =>
    refine ⟨rfl, fun key => ?_⟩
    rw [found, found, get, get, grows.environment_eq]
  | file store =>
    have view_eq := store.view_of_grows grows.files unwritten fun looks missing =>
      (stays ⟨looks, missing⟩).2
    constructor
    · rw [contents, contents, view_eq]
    · intro key
      rw [found_file, found_file, view_eq]

/-- Of two stores either one may be named first. -/
theorem Apart.symm (apart : s.Apart t) :
  t.Apart s
  := by
  intro p p_mem q q_mem
  obtain ⟨ne, not_below, not_above⟩ := apart q q_mem p p_mem
  exact ⟨ne.symm, not_above, not_below⟩

/-- What is written at the path of one store is not the file of another one. -/
theorem Apart.unwritten (apart : s.Apart t) :
  ∀ p ∈ t.path?, ¬ ∃ q ∈ s.path?, p.place = q.place
  := by
  rintro p p_mem ⟨q, q_mem, place_eq⟩
  exact (apart q q_mem p p_mem).ne place_eq.symm

/-- A change at the path of one store leaves another store in another file. -/
theorem unchanged_of_apart (apart : s.Apart t) (grows : host.GrowsAt s.path? host')
    (stays : t.LacksFile host → t.LacksFile host') :
  t.Unchanged host host'
  := unchanged_of_grows grows apart.unwritten stays

/-- A store in a file whose path consists of names that are not too long. -/
def IsPlain (store : BasicStore) : Prop :=
  ∀ p ∈ store.path?, p.IsPlain

/-- Whether the path of a store is plain can be computed. -/
instance : DecidablePred IsPlain := fun store =>
  inferInstanceAs (Decidable (∀ p ∈ store.path?, p.IsPlain))

/-- A change at the path of one store makes no file of another store if both paths consist of
names. -/
theorem isMissing_of_plain (tree : host.files.IsTree) (grows : host.GrowsAt s.path? host')
    (plain_s : s.IsPlain) (plain_t : t.IsPlain) (apart : s.Apart t) (missing : t.IsMissing host) :
  t.IsMissing host'
  := by
  cases t with
  | memory name entries => cases missing
  | environment start => cases missing
  | file file =>
    obtain ⟨unread, path, parsed, nothing⟩ := missing
    have path_eq : (BasicStore.file file).path? = some path :=
      SettingsFile.path?_eq_some_iff.mpr parsed
    refine ⟨unread, path, parsed, ?_⟩
    rw [Files.isThere_eq_false_iff] at nothing ⊢
    apply grows.files.node_missing tree (plain_t path path_eq) nothing
    · rintro _ ⟨p, p_mem, rfl⟩
      have apart_p := apart p p_mem path path_eq
      exact ⟨apart_p.ne, apart_p.not_above⟩
    · rintro ⟨p, p_mem, before, within, place_eq⟩
      have apart_p := apart p p_mem path path_eq
      have below := Path.isBelow_along (plain_s p p_mem) (within.trans (List.dropLast_prefix _))
      rw [← place_eq] at below
      by_cases same : before = p.moves
      · rw [same] at place_eq
        exact apart_p.ne place_eq.symm
      · exact Bool.false_ne_true (apart_p.not_below.symm.trans (below same))

end BasicStore

end Tariff
