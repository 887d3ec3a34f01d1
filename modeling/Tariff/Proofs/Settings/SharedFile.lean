import Mathlib.Logic.Function.Basic
import Tariff.Proofs.Settings.OwnFiles

/-!
# Two stores on one file

Each of two stores that do not reload reads the entries of their file once, changes these, and saves
them all.  Hence the file holds the entries of the store that has saved last.  The main statement says
what it holds for a key that has been set or removed through one of the stores and left alone since:
what has been set, unless the other store has saved last and had read its entries before.
-/

namespace Tariff

open SettingsFile

/-- One of two stores. -/
inductive Side where
  | one
  | two
deriving DecidableEq

/-- The other one of two stores. -/
def Side.other : Side → Side
  | .one => .two
  | .two => .one

/-- One store is not the other. -/
theorem Side.other_ne (side : Side) :
  side.other ≠ side
  := by
  cases side <;> decide

/-- There are no more than two stores. -/
theorem Side.eq_or_eq_other (side side' : Side) :
  side' = side ∨ side' = side.other
  := by
  cases side <;> cases side' <;> decide

/-- The key that a change is about. -/
def Change.key : Change → String
  | .set key _ => key
  | .delete key => key

/-- The value that a change gives its key. -/
def Change.value? : Change → Option Json
  | .set _ raw => some (valueOf raw)
  | .delete _ => none

/-- A call on a store. -/
inductive Deed where
  | ask (question : Question)
  | change (c : Change)

/-- A call leaves the value of a key. -/
def Deed.Leaves (key : String) : Deed → Prop
  | .ask _ => True
  | .change c => c.key ≠ key

/-- Two stores, their host, and the store that has saved its entries last. -/
structure SharedFile where
  stores : Side → SettingsFile
  host : Host
  savedBy : Option Side

namespace SharedFile

/-- Two stores that have just been opened on a path. -/
def start (path : String) (host : Host) : SharedFile :=
  ⟨fun _ => opened path false, host, none⟩

/-- A change has entries to be saved. -/
def saves (s : SharedFile) (side : Side) (c : Change) : Bool :=
  ((Session.mk (s.stores side) s.host .empty).saves? c).isSome

/-- What a call on one of the stores leaves, if it succeeds. -/
def act? (s : SharedFile) (side : Side) : Deed → Option SharedFile
  | .ask question =>
    let reply := (s.stores side).ask s.host question
    match reply.answer with
    | .ok _ => some ⟨Function.update s.stores side reply.store, reply.host, s.savedBy⟩
    | .error _ => none
  | .change c =>
    let reply := (s.stores side).change s.host c
    match reply.answer with
    | .ok _ =>
      some ⟨Function.update s.stores side reply.store, reply.host,
        if s.saves side c then some side else s.savedBy⟩
    | .error _ => none

/-- What calls on the stores leave, if they all succeed. -/
def run? (s : SharedFile) (deeds : List (Side × Deed)) : Option SharedFile :=
  deeds.foldlM (fun s deed => s.act? deed.1 deed.2) s

/-- One of the stores has been replaced. -/
def withStore (s : SharedFile) (side : Side) (store : SettingsFile) : SharedFile :=
  { s with stores := Function.update s.stores side store }

/-- One of the stores has kept entries and saved them. -/
def withSaved (s : SharedFile) (side : Side) (entries : SortedMap String Json) (files : Files) :
    SharedFile where
  stores := Function.update s.stores side { s.stores side with cached := some entries }
  host := { s.host with files }
  savedBy := some side

variable {s s' s₁ s₂ : SharedFile} {side side' : Side} {deed : Deed} {c : Change} {path key : String}
  {host : Host}

/-- The store that has been put in place of one. -/
theorem stores_withStore_self (s : SharedFile) (side : Side) (store : SettingsFile) :
  (s.withStore side store).stores side = store
  := Function.update_self ..

/-- The other store stays when one is replaced. -/
theorem stores_withStore_of_ne (s : SharedFile) (ne : side' ≠ side) (store : SettingsFile) :
  (s.withStore side store).stores side' = s.stores side'
  := Function.update_of_ne ne ..

/-- What holds of the stores and of the one that is put in place of one of them holds of the stores
that are there then. -/
theorem forall_withStore {P : SettingsFile → Prop} {store : SettingsFile} (new : P store)
    (old : ∀ side', P (s.stores side')) (side' : Side) :
  P ((s.withStore side store).stores side')
  := (Function.forall_update_iff s.stores fun _ => P).mpr ⟨new, fun side' _ => old side'⟩ side'

/-- The store that has kept entries and saved them. -/
theorem stores_withSaved_self (s : SharedFile) (side : Side) (entries : SortedMap String Json)
    (files : Files) :
  (s.withSaved side entries files).stores side = { s.stores side with cached := some entries }
  := Function.update_self ..

/-- The other store stays when one has saved. -/
theorem stores_withSaved_of_ne (s : SharedFile) (ne : side' ≠ side) (entries : SortedMap String Json)
    (files : Files) :
  (s.withSaved side entries files).stores side' = s.stores side'
  := Function.update_of_ne ne ..

/-! ### Changes of entries -/

/-- A change leaves the values of other keys. -/
theorem find?_of_result? {entries entries' : SortedMap String Json}
    (applied : c.result? entries = some entries') (ne : c.key ≠ key) :
  entries'.find? key = entries.find? key
  := by
  cases c with
  | set k raw =>
    obtain rfl := Option.some.inj applied
    exact SortedMap.find?_insert_of_ne entries ne.symm (valueOf raw)
  | delete k =>
    have unequal : compare key k ≠ .eq := fun eq => ne (Std.LawfulEqCmp.eq_of_compare eq).symm
    rw [Change.result?] at applied
    split at applied
    case isTrue =>
      obtain rfl := Option.some.inj applied
      rw [SortedMap.find?_erase, if_neg unequal]
    case isFalse => cases applied

/-- A change is saved if it changes the entries that are loaded for it. -/
theorem saves_eq {next : SettingsFile} (loaded : (s.stores side).loaded s.host.files = .ok next) :
  s.saves side c = (c.result? next.entries).isSome
  := by
  simp only [saves, Session.saves?, loaded, Except.toOption, Option.bind_some]

/-- A call that succeeds loads the entries of a store, and leaves the file or saves what becomes of
them. -/
theorem of_act? (acted : s.act? side deed = some s') :
  ∃ next, (s.stores side).loaded s.host.files = .ok next ∧
    (((∀ c, deed = .change c → c.result? next.entries = none) ∧ s' = s.withStore side next) ∨
      ∃ c entries files p, deed = .change c ∧ c.result? next.entries = some entries ∧
        Path.ofText next.path = .ok p ∧
        FileAction.save p (.text (Json.object entries.entries).indented) s.host.files =
          (.ok (), files) ∧
        s' = (s.withStore side next).withSaved side entries files)
  := by
  cases deed with
  | ask question =>
    have reply_eq : (s.stores side).ask s.host question = _ := ask_eq question
    rw [act?, reply_eq] at acted
    cases loaded : (s.stores side).loaded s.host.files with
    | error e =>
      rw [loaded] at acted
      cases acted
    | ok next =>
      rw [loaded] at acted
      obtain rfl := Option.some.inj acted
      exact ⟨next, rfl, .inl ⟨nofun, rfl⟩⟩
  | change c =>
    rcases changed : (s.stores side).change s.host c with ⟨e | _, store, host⟩
    · rw [act?, changed] at acted
      cases acted
    · rw [act?, changed] at acted
      obtain rfl := Option.some.inj acted
      have made : (Session.mk (s.stores side) s.host .empty).make? c =
          some ⟨store, host, ((Session.mk (s.stores side) s.host .empty).saves? c).getD .empty⟩ := by
        simp only [Session.make?, changed]
      obtain ⟨next, loaded, ⟨idle, made_eq⟩ | ⟨entries, files, p, applied, parsed, saved, made_eq⟩⟩ :=
        Session.of_make? made
      · refine ⟨next, loaded, .inl ⟨?_, ?_⟩⟩
        · rintro _ ⟨⟩
          exact idle
        · simp only [Session.mk.injEq] at made_eq
          obtain ⟨rfl, rfl, -⟩ := made_eq
          rw [saves_eq loaded, idle, Option.isSome_none, if_neg Bool.false_ne_true]
          rfl
      · refine ⟨next, loaded, .inr ⟨c, entries, files, p, rfl, applied, parsed, saved, ?_⟩⟩
        simp only [Session.mk.injEq] at made_eq
        obtain ⟨rfl, rfl, -⟩ := made_eq
        rw [saves_eq loaded, applied, Option.isSome_some, if_pos rfl, withSaved, withStore]
        simp only [Function.update_self, Function.update_idem]

/-! ### What the file holds -/

/-- What holds throughout: the stores keep the entries that they have read, the file holds those of the
store that has saved last, and as long as none has saved the entries of both are those in the file. -/
structure Sound (path : String) (s : SharedFile) : Prop where
  path_eq (side : Side) : (s.stores side).path = path
  static (side : Side) : (s.stores side).autoReload = false
  sorted {side : Side} {entries : SortedMap String Json} :
    (s.stores side).cached = some entries → ∀ e ∈ entries.entries, e.2.Sorted
  saved {side : Side} : s.savedBy = some side →
    ∃ entries, (s.stores side).cached = some entries ∧ Holds s.host.files path entries
  unsaved {side : Side} {entries : SortedMap String Json} : s.savedBy = none →
    (s.stores side).cached = some entries → entriesIn s.host.files path = .ok entries

/-- Stores that have just been opened have read nothing. -/
theorem sound_start (path : String) (host : Host) :
  (start path host).Sound path
  where
  path_eq _ := rfl
  static _ := rfl
  sorted := nofun
  saved := nofun
  unsaved := nofun

section Loading

variable {next : SettingsFile}

/-- A store that loads its entries has them already, or reads them from the file. -/
theorem Sound.entries_of_loaded (sound : s.Sound path)
    (loaded : (s.stores side).loaded s.host.files = .ok next) :
  (s.stores side).cached = some next.entries ∨
    (s.stores side).cached = none ∧ entriesIn s.host.files path = .ok next.entries
  := by
  have view_eq := view_of_loaded loaded
  cases read : (s.stores side).cached with
  | some entries =>
    left
    rw [view_of_cached (sound.static side) read] at view_eq
    exact congrArg some (Except.ok.inj view_eq)
  | none =>
    right
    rw [view_of_unread read, sound.path_eq] at view_eq
    exact ⟨rfl, view_eq⟩

/-- Loading entries keeps what holds throughout. -/
theorem Sound.withStore (sound : s.Sound path)
    (loaded : (s.stores side).loaded s.host.files = .ok next) :
  (s.withStore side next).Sound path
  := by
  obtain ⟨path_eq, autoReload_eq, cached⟩ := of_loaded loaded
  have source := sound.entries_of_loaded loaded
  constructor
  case path_eq =>
    apply forall_withStore (P := fun store => store.path = path)
    · rw [path_eq, sound.path_eq]
    · exact sound.path_eq
  case static =>
    apply forall_withStore (P := fun store => store.autoReload = false)
    · rw [autoReload_eq, sound.static]
    · exact sound.static
  case sorted =>
    intro side'
    apply forall_withStore (P := fun store =>
      ∀ {entries}, store.cached = some entries → ∀ e ∈ entries.entries, e.2.Sorted)
    · intro entries cached'
      rw [cached] at cached'
      obtain rfl := Option.some.inj cached'
      rcases source with read | ⟨-, read⟩
      · exact sound.sorted read
      · exact sorted_of_entriesIn read
    · exact fun side'' => sound.sorted
  case saved =>
    intro side' savedBy
    obtain ⟨entries, cached', holds⟩ := sound.saved savedBy
    rcases eq_or_ne side' side with rfl | ne
    · rcases source with read | ⟨unread, -⟩
      · obtain rfl := Option.some.inj (read.symm.trans cached')
        exact ⟨_, by rw [stores_withStore_self, cached], holds⟩
      · cases unread.symm.trans cached'
    · exact ⟨entries, by rw [stores_withStore_of_ne s ne, cached'], holds⟩
  case unsaved =>
    intro side' entries savedBy
    revert entries
    apply forall_withStore (P := fun store =>
      ∀ {entries}, store.cached = some entries → entriesIn s.host.files path = .ok entries)
    · intro entries cached'
      rw [cached] at cached'
      obtain rfl := Option.some.inj cached'
      rcases source with read | ⟨-, read⟩
      · exact sound.unsaved savedBy read
      · exact read
    · exact fun side'' => sound.unsaved savedBy

end Loading

section Saving

variable {files : Files} {known entries : SortedMap String Json} {p : Path}

/-- Saving what a change makes of the entries keeps what holds throughout. -/
theorem Sound.withSaved (sound : s.Sound path) (cached : (s.stores side).cached = some known)
    (applied : c.result? known = some entries) (parsed : Path.ofText path = .ok p)
    (saved : FileAction.save p (.text (Json.object entries.entries).indented) s.host.files =
      (.ok (), files)) :
  (s.withSaved side entries files).Sound path
  := by
  constructor
  case path_eq =>
    exact forall_withStore (P := fun store => store.path = path) (sound.path_eq side) sound.path_eq
  case static =>
    exact forall_withStore (P := fun store => store.autoReload = false) (sound.static side)
      sound.static
  case sorted =>
    intro side'
    apply forall_withStore (P := fun store =>
      ∀ {entries}, store.cached = some entries → ∀ e ∈ entries.entries, e.2.Sorted)
    · intro entries' cached'
      obtain rfl := Option.some.inj cached'
      exact sorted_of_result? (sound.sorted cached) applied
    · exact fun side'' => sound.sorted
  case saved =>
    intro side' savedBy
    obtain rfl := Option.some.inj savedBy
    exact ⟨entries, by rw [stores_withSaved_self], p, parsed, .inr (FileAction.node_of_save saved)⟩
  case unsaved => nofun

end Saving

/-- A call that succeeds keeps what holds throughout. -/
theorem Sound.act? (sound : s.Sound path) (acted : s.act? side deed = some s') :
  s'.Sound path
  := by
  obtain ⟨next, loaded, ⟨-, rfl⟩ | ⟨c, entries, files, p, -, applied, parsed, saved, rfl⟩⟩ :=
    of_act? acted
  · exact sound.withStore loaded
  · obtain ⟨path_eq, -, cached⟩ := of_loaded loaded
    rw [path_eq, sound.path_eq] at parsed
    apply (sound.withStore loaded).withSaved _ applied parsed saved
    rw [stores_withStore_self, cached]

/-! ### What a key has become -/

/-- What holds since a change has been made to a key through one store if nothing else is done to that
key: the store has the value, and the other one has what it had for the key if it had read its
entries, and else, once it reads them, the value as it is read back. -/
structure Since (key : String) (side : Side) (value? : Option Json)
    (known : Option (SortedMap String Json)) (s : SharedFile) : Prop where
  own : ∃ entries, (s.stores side).cached = some entries ∧ entries.find? key = value?
  unsaved : s.savedBy = none → value? = none
  other_known {m : SortedMap String Json} : known = some m →
    ∃ entries, (s.stores side.other).cached = some entries ∧ entries.find? key = m.find? key
  other_read {entries : SortedMap String Json} : known = none →
    (s.stores side.other).cached = some entries →
      entries.find? key = value?.map Keeping.reloaded.kept

section Later

variable {value? : Option Json} {known : Option (SortedMap String Json)} {next : SettingsFile}

/-- What the other store reads of a key from the file is the value as it is read back. -/
theorem Since.find?_of_read (since : Since key side value? known s) (sound : s.Sound path)
    (unread : (s.stores side.other).cached = none) {entries : SortedMap String Json}
    (read : entriesIn s.host.files path = .ok entries) :
  entries.find? key = value?.map Keeping.reloaded.kept
  := by
  obtain ⟨own, cached, find_eq⟩ := since.own
  cases savedBy : s.savedBy with
  | none =>
    obtain rfl := Except.ok.inj ((sound.unsaved savedBy cached).symm.trans read)
    rw [find_eq, since.unsaved savedBy]
    rfl
  | some last =>
    obtain ⟨saved, cached_last, holds⟩ := sound.saved savedBy
    rcases side.eq_or_eq_other last with rfl | rfl
    · obtain rfl := Option.some.inj (cached.symm.trans cached_last)
      have read_back := (entriesIn_eq_ok_iff holds (sound.sorted cached)).mp read
      rw [find?_of_read_back read_back, find_eq]
    · cases unread.symm.trans cached_last

/-- Loading entries keeps what holds since a change. -/
theorem Since.withStore (since : Since key side value? known s) (sound : s.Sound path)
    (loaded : (s.stores side').loaded s.host.files = .ok next) :
  Since key side value? known (s.withStore side' next)
  := by
  have ne := side.other_ne
  obtain ⟨-, -, cached⟩ := of_loaded loaded
  have source := sound.entries_of_loaded loaded
  have kept {entries : SortedMap String Json} (read : (s.stores side').cached = some entries) :
      ((s.withStore side' next).stores side').cached = some entries := by
    rw [stores_withStore_self, cached]
    rcases source with read' | ⟨unread, -⟩
    · rw [← read', read]
    · cases unread.symm.trans read
  have others {side'' : Side} (ne : side'' ≠ side') := s.stores_withStore_of_ne ne next
  rcases side.eq_or_eq_other side' with rfl | rfl
  · constructor
    case own =>
      obtain ⟨entries, read, find_eq⟩ := since.own
      exact ⟨entries, kept read, find_eq⟩
    case unsaved => exact since.unsaved
    case other_known =>
      rw [others ne]
      exact since.other_known
    case other_read =>
      rw [others ne]
      exact since.other_read
  · constructor
    case own =>
      rw [others ne.symm]
      exact since.own
    case unsaved => exact since.unsaved
    case other_known =>
      intro m known_eq
      obtain ⟨entries, read, find_eq⟩ := since.other_known known_eq
      exact ⟨entries, kept read, find_eq⟩
    case other_read =>
      intro entries known_eq cached'
      rw [stores_withStore_self, cached] at cached'
      obtain rfl := Option.some.inj cached'
      rcases source with read | ⟨unread, read⟩
      · exact since.other_read known_eq read
      · exact since.find?_of_read sound unread read

/-- Saving entries of which that for the key is the same keeps what holds since a change. -/
theorem Since.withSaved (since : Since key side value? known s)
    {before after : SortedMap String Json} (cached : (s.stores side').cached = some before)
    (same : after.find? key = before.find? key) (files : Files) :
  Since key side value? known (s.withSaved side' after files)
  := by
  have ne := side.other_ne
  have self := s.stores_withSaved_self side' after files
  have others {side'' : Side} (ne : side'' ≠ side') := s.stores_withSaved_of_ne ne after files
  rcases side.eq_or_eq_other side' with rfl | rfl
  · constructor
    case own =>
      obtain ⟨entries, read, find_eq⟩ := since.own
      obtain rfl := Option.some.inj (cached.symm.trans read)
      exact ⟨after, by rw [self], same.trans find_eq⟩
    case unsaved => nofun
    case other_known =>
      rw [others ne]
      exact since.other_known
    case other_read =>
      rw [others ne]
      exact since.other_read
  · constructor
    case own =>
      rw [others ne.symm]
      exact since.own
    case unsaved => nofun
    case other_known =>
      intro m known_eq
      obtain ⟨entries, read, find_eq⟩ := since.other_known known_eq
      obtain rfl := Option.some.inj (cached.symm.trans read)
      exact ⟨after, by rw [self], same.trans find_eq⟩
    case other_read =>
      intro entries known_eq cached'
      rw [self] at cached'
      obtain rfl := Option.some.inj cached'
      exact same.trans (since.other_read known_eq cached)

/-- A call that leaves the key keeps what holds since a change to it. -/
theorem Since.act? (since : Since key side value? known s) (sound : s.Sound path)
    (acted : s.act? side' deed = some s') (leaves : deed.Leaves key) :
  Since key side value? known s'
  := by
  obtain ⟨next, loaded, ⟨-, rfl⟩ | ⟨c, entries, files, p, rfl, applied, -, -, rfl⟩⟩ := of_act? acted
  · exact since.withStore sound loaded
  · obtain ⟨-, -, cached⟩ := of_loaded loaded
    apply (since.withStore sound loaded).withSaved _ (find?_of_result? applied leaves) files
    rw [stores_withStore_self, cached]

end Later

/-! ### Sequences of calls -/

/-- The stores stay sound as long as all calls succeed. -/
theorem Sound.run? {deeds : List (Side × Deed)} (sound : s.Sound path) (ran : s.run? deeds = some s') :
  s'.Sound path
  := by
  induction deeds generalizing s with
  | nil =>
    cases ran
    exact sound
  | cons deed deeds ih =>
    rw [SharedFile.run?, List.foldlM_cons] at ran
    obtain ⟨next, first, others⟩ := Option.bind_eq_some_iff.mp ran
    exact ih (sound.act? first) others

/-- Calls that leave the key keep what holds since a change to it. -/
theorem Since.run? {value? : Option Json} {known : Option (SortedMap String Json)}
    {deeds : List (Side × Deed)} (since : Since key side value? known s) (sound : s.Sound path)
    (ran : s.run? deeds = some s') (leaves : ∀ deed ∈ deeds, deed.2.Leaves key) :
  Since key side value? known s'
  := by
  induction deeds generalizing s with
  | nil =>
    cases ran
    exact since
  | cons deed deeds ih =>
    obtain ⟨leaves_first, leaves_others⟩ := List.forall_mem_cons.mp leaves
    rw [SharedFile.run?, List.foldlM_cons] at ran
    obtain ⟨next, first, others⟩ := Option.bind_eq_some_iff.mp ran
    exact ih (since.act? sound first leaves_first) (sound.act? first) others leaves_others

end SharedFile

end Tariff
