import Tariff.Proofs.Host.Files

/-!
# What saving leaves

Saving a file makes the directories on the way to it that are missing and writes the file.  Nothing
else changes, whether or not this succeeds.  Hence a path that leads somewhere leads to the same
afterwards, unless the file is at its end.
-/

namespace Tariff

namespace Place

/-- The place that moves lead to if all directories on the way are there. -/
def along (moves : List Move) : Place :=
  moves.foldl after root

/-- The last of several moves is made from the place before it. -/
@[simp] theorem along_concat (moves : List Move) (move : Move) :
  along (moves ++ [move]) = (along moves).after move
  := by
  rw [along, List.foldl_append]
  rfl

/-- No place holds itself. -/
theorem parent_ne (place : Place) :
  place.parent ≠ place
  := by
  obtain ⟨above, names⟩ := place
  cases names with
  | nil => simp [parent]
  | cons name names => simp [parent]

end Place

namespace Path

/-- The place that a path leads to if all directories on the way are there. -/
def place (path : Path) : Place :=
  .along path.moves

/-- The places of the directories on the way to the end of a path. -/
def OnTheWay (path : Path) (place : Place) : Prop :=
  ∃ moves, moves <+: path.moves.dropLast ∧ place = .along moves

end Path

namespace Files

variable {files mid files' : Files} {path : Path} {place : Place} {found? : Node}
  {content : HostText} {written made written' made' : Place → Prop}

/-- Every node is the entry of a directory. -/
def IsTree (files : Files) : Prop :=
  ∀ place node, files.find? place = some node → files.find? place.parent = some .directory

/-- Files between which nothing is lost: directories stay, files stay and keep their content unless
they are written, and new is what is written or made. -/
structure Grows (written made : Place → Prop) (files files' : Files) : Prop where
  directory {place : Place} :
    files.find? place = some .directory → files'.find? place = some .directory
  file {place : Place} {content : HostText} :
    files.find? place = some (.file content) →
      ∃ content', files'.find? place = some (.file content') ∧ (content' = content ∨ written place)
  new_directory {place : Place} :
    files.find? place = none → files'.find? place = some .directory → made place
  new_file {place : Place} {content : HostText} :
    files.find? place = none → files'.find? place = some (.file content) → written place
  isTree : files.IsTree → files'.IsTree

namespace Grows

/-- Nothing is lost where nothing changes. -/
theorem refl (files : Files) :
  Grows written made files files
  where
  directory found := found
  file found := ⟨_, found, .inl rfl⟩
  new_directory missing found := by
    rw [missing] at found
    cases found
  new_file missing found := by
    rw [missing] at found
    cases found
  isTree tree := tree

/-- What is lost neither first nor then is not lost. -/
theorem trans (first : Grows written made files mid) (second : Grows written made mid files') :
  Grows written made files files'
  where
  directory found := second.directory (first.directory found)
  file found := by
    obtain ⟨content₁, found₁, kept₁⟩ := first.file found
    obtain ⟨content₂, found₂, kept₂⟩ := second.file found₁
    refine ⟨content₂, found₂, ?_⟩
    rcases kept₂ with rfl | written
    · apply kept₁
    · apply Or.inr written
  new_directory {place} missing found := by
    cases between : mid.find? place with
    | none => apply second.new_directory between found
    | some node =>
      cases node with
      | directory => apply first.new_directory missing between
      | file content =>
        obtain ⟨_, found', -⟩ := second.file between
        cases found.symm.trans found'
  new_file {place content} missing found := by
    cases between : mid.find? place with
    | none => apply second.new_file between found
    | some node =>
      cases node with
      | directory => cases found.symm.trans (second.directory between)
      | file content => apply first.new_file missing between
  isTree tree := second.isTree (first.isTree tree)

/-- More may be written and made. -/
theorem mono (grows : Grows written made files files') (written_mono : ∀ p, written p → written' p)
    (made_mono : ∀ p, made p → made' p) :
  Grows written' made' files files'
  where
  directory := grows.directory
  file found := by
    obtain ⟨content', found', kept⟩ := grows.file found
    exact ⟨content', found', kept.imp_right (written_mono _)⟩
  new_directory missing found := made_mono _ (grows.new_directory missing found)
  new_file missing found := written_mono _ (grows.new_file missing found)
  isTree := grows.isTree

end Grows

/-! ### Looking -/

/-- What is found at a place is there, and the last name on the way is not too long. -/
theorem look_eq_ok_iff {node? : Option Node} :
  files.look place = .ok node? ↔
    place.names.head?.any (nameLimit < ·.utf8ByteSize) = false ∧ files.find? place = node?
  := by
  unfold look
  split
  case isTrue long => simp [long]
  case isFalse short => simp [short]

/-- Whether a name is too long does not depend on the files. -/
theorem look_error {e : FileError} (failed : files.look place = .error e) (files' : Files) :
  files'.look place = .error e
  := by
  unfold look at failed ⊢
  split at failed
  case isTrue long => rw [if_pos long, failed]
  case isFalse => cases failed

/-- Moves that can be made lead to their place. -/
theorem eq_along_of_walk {moves : List Move} (walk : files.walk moves = .ok place) :
  place = .along moves
  := by
  induction moves using List.reverseRecOn generalizing place with
  | nil => exact (Except.pure_eq_ok.mp walk).symm
  | append_singleton moves move ih =>
    obtain ⟨base, reached, -, rfl⟩ := walk_concat_eq_ok_iff.mp walk
    rw [ih reached, Place.along_concat]

/-- The last of several moves is made from where those before it lead. -/
theorem walk_concat (files : Files) (moves : List Move) (move : Move) :
  files.walk (moves ++ [move]) = files.walk moves >>= fun base => files.step base move
  := by
  simp only [walk, List.foldlM_append, List.foldlM_cons, List.foldlM_nil, bind_pure]

/-- A path leads nowhere if its moves do, or if nothing is at their end. -/
theorem node_eq_notFound_iff :
  files.node path = .error .notFound ↔
    files.walk path.moves = .error .notFound ∨
    ∃ place, files.walk path.moves = .ok place ∧ files.look place = .ok none
  := by
  unfold node
  cases reached : files.walk path.moves with
  | error e => simp [bind, Except.bind]
  | ok place =>
    have not_missing : files.look place ≠ .error .notFound := by
      unfold look
      split <;> nofun
    simp only [bind, Except.bind, reduceCtorEq, false_or, Except.ok.injEq, exists_eq_left']
    rcases looked : files.look place with e | _ | _ | content
    · rw [looked] at not_missing
      simpa using not_missing
    · exact ⟨fun _ => rfl, fun _ => rfl⟩
    · exact ⟨nofun, nofun⟩
    · constructor
      · dsimp only
        split <;> nofun
      · nofun

/-- Nothing is at the end of a path that leads nowhere. -/
theorem isThere_eq_false_iff :
  files.isThere path = .ok false ↔ files.node path = .error .notFound
  := by
  unfold isThere
  split
  case h_1 found => simp [found]
  case h_2 missing => simp [missing]
  case h_3 e ne failed =>
    rw [failed]
    exact ⟨nofun, fun eq => absurd (Except.error.inj eq) ne⟩

namespace Grows

/-- A directory is found where there was one. -/
theorem look_directory (grows : Grows written made files files')
    (found : files.look place = .ok (some .directory)) :
  files'.look place = .ok (some .directory)
  := by
  obtain ⟨short, found⟩ := look_eq_ok_iff.mp found
  exact look_eq_ok_iff.mpr ⟨short, grows.directory found⟩

/-- A file is found where there was one. -/
theorem look_file (grows : Grows written made files files')
    (found : files.look place = .ok (some (.file content))) :
  ∃ content', files'.look place = .ok (some (.file content')) ∧ (content' = content ∨ written place)
  := by
  obtain ⟨short, found⟩ := look_eq_ok_iff.mp found
  obtain ⟨content', found', kept⟩ := grows.file found
  exact ⟨content', look_eq_ok_iff.mpr ⟨short, found'⟩, kept⟩

/-- The same is found where something was, unless it is written. -/
theorem look_eq (grows : Grows written made files files') (there : files.look place ≠ .ok none)
    (unwritten : ¬ written place) :
  files'.look place = files.look place
  := by
  rcases looked : files.look place with e | _ | _ | content
  · exact look_error looked files'
  · exact absurd looked there
  · exact grows.look_directory looked
  · obtain ⟨content', looked', kept⟩ := grows.look_file looked
    obtain rfl := kept.resolve_right unwritten
    exact looked'

/-! ### Following moves -/

/-- A place that is there is a directory afterwards if it was one before. -/
theorem checkDirectory_eq (grows : Grows written made files files')
    (there : files.checkDirectory place ≠ .error .notFound) :
  files'.checkDirectory place = files.checkDirectory place
  := by
  unfold checkDirectory at there ⊢
  cases found : files.look place with
  | error e => rw [look_error found]
  | ok node? =>
    cases node? with
    | none =>
      rw [found] at there
      exact absurd rfl there
    | some node =>
      cases node with
      | directory => rw [grows.look_directory found]
      | file content =>
        obtain ⟨content', found', -⟩ := grows.look_file found
        rw [found']
        rfl

/-- A move that does not lead nowhere leads to the same place afterwards. -/
theorem step_eq (grows : Grows written made files files') {move : Move}
    (there : files.step place move ≠ .error .notFound) :
  files'.step place move = files.step place move
  := by
  unfold step at there ⊢
  rw [grows.checkDirectory_eq]
  intro missing
  rw [missing] at there
  exact there rfl

/-- Moves that do not lead nowhere lead to the same place afterwards. -/
theorem walk_eq (grows : Grows written made files files') {moves : List Move}
    (there : files.walk moves ≠ .error .notFound) :
  files'.walk moves = files.walk moves
  := by
  induction moves using List.reverseRecOn with
  | nil => rfl
  | append_singleton moves move ih =>
    rw [walk_concat] at there ⊢
    have same : files'.walk moves = files.walk moves := by
      apply ih
      intro missing
      rw [missing] at there
      exact there rfl
    rw [walk_concat, same]
    cases before : files.walk moves with
    | error e => rfl
    | ok base =>
      rw [before] at there
      exact grows.step_eq there

/-- Moves that are made on the way to somewhere lead to the same place afterwards. -/
theorem walk_eq_of_node (grows : Grows written made files files')
    (there : files.node path ≠ .error .notFound) :
  files'.walk path.moves = files.walk path.moves
  := by
  apply grows.walk_eq
  intro missing
  exact there (node_eq_notFound_iff.mpr (.inl missing))

/-- A path that does not lead nowhere leads to the same afterwards, unless its end is written. -/
theorem node_eq (grows : Grows written made files files')
    (there : files.node path ≠ .error .notFound) (unwritten : ¬ written path.place) :
  files'.node path = files.node path
  := by
  have same_look {place : Place} (reached : files.walk path.moves = .ok place) :
      files'.look place = files.look place := by
    apply grows.look_eq
    · intro nothing
      exact there (node_eq_notFound_iff.mpr (.inr ⟨place, reached, nothing⟩))
    · rwa [eq_along_of_walk reached]
  unfold node
  rw [grows.walk_eq_of_node there]
  cases reached : files.walk path.moves with
  | error e => rfl
  | ok place =>
    change (files'.look place >>= _) = (files.look place >>= _)
    rw [same_look reached]

/-- A path that leads nowhere afterwards led nowhere before. -/
theorem node_notFound (grows : Grows written made files files')
    (missing : files'.node path = .error .notFound) :
  files.node path = .error .notFound
  := by
  by_contra there
  have walk_eq := grows.walk_eq_of_node there
  rw [node_eq_notFound_iff, walk_eq] at missing
  apply there
  apply node_eq_notFound_iff.mpr
  apply missing.imp_right
  rintro ⟨place, reached, nothing⟩
  obtain ⟨short, nothing⟩ := look_eq_ok_iff.mp nothing
  refine ⟨place, reached, look_eq_ok_iff.mpr ⟨short, ?_⟩⟩
  cases found : files.find? place with
  | none => rfl
  | some node =>
    cases node with
    | directory => cases nothing.symm.trans (grows.directory found)
    | file content =>
      obtain ⟨content', found', -⟩ := grows.file found
      cases nothing.symm.trans found'

end Grows

/-! ### Changes -/

section Put

variable {node : Node} {node? : Option Node}

/-- A path that leads nowhere still does when a file is written again. -/
theorem node_put_of_missing (found : files.look place = .ok (some (.file old))) (content : HostText)
    (missing : files.node path = .error .notFound) :
  (files.put place (.file content)).node path = .error .notFound
  := by
  have looked : (files.put place (.file content)).look place = .ok (some (.file content)) :=
    look_put_self found nofun
  have checked : (files.put place (.file content)).checkDirectory = files.checkDirectory := by
    funext other
    unfold checkDirectory
    by_cases same : other = place
    · rw [same, found, looked]
      rfl
    · rw [look_put_of_ne same]
  have walked : (files.put place (.file content)).walk path.moves = files.walk path.moves := by
    have stepped : (files.put place (.file content)).step = files.step := by
      funext other move
      unfold step
      rw [checked]
    rw [walk, walk, stepped]
  rw [node_eq_notFound_iff] at missing ⊢
  rw [walked]
  apply missing.imp_right
  rintro ⟨other, reached, nothing⟩
  have ne : other ≠ place := by
    rintro rfl
    cases found.symm.trans nothing
  exact ⟨other, reached, (look_put_of_ne ne).trans nothing⟩

/-- What is put into a directory of a tree, at a place that is no directory, is in the tree. -/
theorem isTree_put (supports : files.Supports place) (found : files.look place = .ok node?)
    (no_directory : node? ≠ some .directory) (node : Node) (tree : files.IsTree) :
  (files.put place node).IsTree
  := by
  have parent_found : files.find? place.parent = some .directory :=
    (look_eq_ok_iff.mp supports.parent.2).2
  have not_there : files.find? place ≠ some .directory := by
    rw [(look_eq_ok_iff.mp found).2]
    exact no_directory
  intro other node' found'
  by_cases same : other = place
  · rw [same, find?_put_of_ne files node place.parent_ne]
    exact parent_found
  · rw [find?_put_of_ne files node same] at found'
    have directory := tree other node' found'
    have parent_ne : other.parent ≠ place := by
      intro eq
      rw [eq] at directory
      exact not_there directory
    rw [find?_put_of_ne files node parent_ne]
    exact directory

/-- A file that is put at a place that is no directory is written. -/
theorem grows_put_file (supports : files.Supports place) (found : files.look place = .ok node?)
    (no_directory : node? ≠ some .directory) (content : HostText) :
  Grows (· = place) (fun _ => False) files (files.put place (.file content))
  := by
  have there := find?_put_self files (.file content) (isAbove_of_look found no_directory)
  have not_there : files.find? place ≠ some .directory := by
    rw [(look_eq_ok_iff.mp found).2]
    exact no_directory
  have elsewhere {other : Place} (ne : other ≠ place) := find?_put_of_ne files (.file content) ne
  constructor
  case directory =>
    intro other directory
    have ne : other ≠ place := by
      rintro rfl
      exact not_there directory
    rw [elsewhere ne, directory]
  case file =>
    intro other content' found'
    by_cases same : other = place
    · exact ⟨content, same ▸ there, .inr same⟩
    · exact ⟨content', (elsewhere same).trans found', .inl rfl⟩
  case new_directory =>
    intro other missing found'
    by_cases same : other = place
    · rw [same, there] at found'
      cases found'
    · rw [elsewhere same, missing] at found'
      cases found'
  case new_file =>
    intro other content' missing found'
    by_contra ne
    rw [elsewhere ne, missing] at found'
    cases found'
  case isTree => exact isTree_put supports found no_directory _

/-- A directory that is put where nothing is is made. -/
theorem grows_put_directory (supports : files.Supports place) (found : files.look place = .ok none) :
  Grows (fun _ => False) (· = place) files (files.put place .directory)
  := by
  have there := find?_put_self files .directory (isAbove_of_look found nofun)
  have not_there : files.find? place = none := (look_eq_ok_iff.mp found).2
  have elsewhere {other : Place} (ne : other ≠ place) := find?_put_of_ne files .directory ne
  have kept {other : Place} {node : Node} (found' : files.find? other = some node) :
      (files.put place .directory).find? other = some node := by
    have ne : other ≠ place := by
      rintro rfl
      cases found'.symm.trans not_there
    rw [elsewhere ne, found']
  constructor
  case directory => exact kept
  case file => exact fun found' => ⟨_, kept found', .inl rfl⟩
  case new_directory =>
    intro other missing found'
    by_contra ne
    rw [elsewhere ne, missing] at found'
    cases found'
  case new_file =>
    intro other content' missing found'
    by_cases same : other = place
    · rw [same, there] at found'
      cases found'
    · rw [elsewhere same, missing] at found'
      cases found'
  case isTree => exact isTree_put supports found nofun _

end Put

end Files

namespace FileAction

open Files

variable {files files' : Files} {path : Path} {content : HostText}

/-- Making a directory makes at most that. -/
theorem grows_ensureDirectory (path : Path) (files : Files) :
  Grows (fun _ => False) (· = path.place) files (ensureDirectory path files).2
  := by
  unfold ensureDirectory
  split
  case h_1 made =>
    unfold makeDirectory at made
    obtain ⟨place?, named, made⟩ := Except.bind_eq_ok.mp made
    cases place? with
    | none => exact absurd made Except.throw_ne_ok
    | some place =>
      obtain ⟨node?, found, made⟩ := Except.bind_eq_ok.mp made
      cases node? with
      | some node => exact absurd made Except.throw_ne_ok
      | none =>
        obtain ⟨-, -, made⟩ := Except.bind_eq_ok.mp made
        obtain rfl := Except.pure_eq_ok.mp made
        have reached := (entry?_eq_some_iff.mp named).1
        rw [Path.place, ← eq_along_of_walk reached]
        exact grows_put_directory (supports_of_walk reached) found
  case h_2 =>
    split
    case isTrue => exact Grows.refl files
    case isFalse => exact Grows.refl files

/-- Making directories along moves makes at most those on the way. -/
theorem grows_ensureAlong (ending : PathEnd) (moves : List Move) (files : Files) :
  Grows (fun _ => False) (fun place => ∃ before, before <+: moves.reverse ∧ place = .along before)
    files (ensureAlong ending moves files).2
  := by
  have last (moves : List Move) (ending : PathEnd) (files : Files) : Grows (fun _ => False)
      (fun place => ∃ before, before <+: moves.reverse ∧ place = .along before) files
        (ensureDirectory ⟨moves.reverse, ending⟩ files).2 := by
    apply (grows_ensureDirectory ⟨moves.reverse, ending⟩ files).mono (fun _ => id)
    rintro _ rfl
    exact ⟨moves.reverse, List.prefix_refl _, rfl⟩
  induction moves generalizing ending files with
  | nil =>
    unfold ensureAlong
    dsimp only
    split
    case h_1 cons_eq => cases cons_eq
    case h_2 => exact last [] ending files
  | cons move outer ih =>
    have first := last (move :: outer) ending files
    unfold ensureAlong
    dsimp only
    split
    case h_1 files₁ _ outer' missing cons_eq =>
      cases cons_eq
      rw [missing] at first
      have others : Grows (fun _ => False)
          (fun place => ∃ before, before <+: (move :: outer).reverse ∧ place = .along before)
            files₁ (ensureAlong .bare outer files₁).2 := by
        apply (ih .bare files₁).mono (fun _ => id)
        rintro _ ⟨before, within, rfl⟩
        refine ⟨before, ?_, rfl⟩
        rw [List.reverse_cons]
        exact within.trans (List.prefix_append _ _)
      split
      case h_1 files₂ made =>
        rw [made] at others
        exact (first.trans others).trans (last (move :: outer) ending files₂)
      case h_2 => exact first.trans others
    case h_2 => exact first

/-- Making the directories on the way to a path makes at most those. -/
theorem grows_makeParents (path : Path) (files : Files) :
  Grows (fun _ => False) path.OnTheWay files (makeParents path files).2
  := by
  unfold makeParents
  cases before : path.parent? with
  | none => exact Grows.refl files
  | some parent =>
    unfold Path.parent? at before
    split at before
    case isTrue => cases before
    case isFalse =>
      cases before
      have made := grows_ensureAlong .bare path.moves.dropLast.reverse files
      rwa [List.reverse_reverse] at made

/-- Writing a file writes at most that file. -/
theorem grows_write (path : Path) (content : HostText) (files : Files) :
  Grows (· = path.place) (fun _ => False) files (write path content files).2
  := by
  rcases write_cases path content files with same | ⟨place, part, opened, put⟩
  · rw [same]
    exact .refl files
  · obtain ⟨-, named, ⟨node?, found, no_directory⟩, -⟩ := openFile_eq_ok_iff.mp opened
    have reached := (entry?_eq_some_iff.mp named).1
    rw [put, Path.place, ← eq_along_of_walk reached]
    exact grows_put_file (supports_of_walk reached) found no_directory part

/-- Saving a file writes at most that file, and makes at most directories on the way to it. -/
theorem grows_save (path : Path) (content : HostText) (files : Files) :
  Grows (· = path.place) path.OnTheWay files (save path content files).2
  := by
  have parents : Grows (· = path.place) path.OnTheWay files (makeParents path files).2 :=
    (grows_makeParents path files).mono (fun _ => False.elim) (fun _ => id)
  rw [save_eq]
  split
  case h_1 mid done =>
    rw [done] at parents
    exact parents.trans ((grows_write path content mid).mono (fun _ => id) (fun _ => False.elim))
  case h_2 failed =>
    rw [failed] at parents
    exact parents

/-- A path that leads nowhere still does when a file that is there is saved again. -/
theorem node_save_of_missing {other : Path} {old : HostText}
    (there : files.node path = .ok (.file old)) (content : HostText)
    (missing : files.node other = .error .notFound) :
  (save path content files).2.node other = .error .notFound
  := by
  rw [save_eq, makeParents_of_node there]
  dsimp only
  rcases write_cases path content files with same | ⟨place, part, opened, put⟩
  · rw [same]
    exact missing
  · obtain ⟨-, named, -, -⟩ := openFile_eq_ok_iff.mp opened
    obtain ⟨-, place', reached, found⟩ := node_eq_file_iff.mp there
    obtain rfl := Except.ok.inj ((entry?_eq_some_iff.mp named).1.symm.trans reached)
    rw [put]
    exact node_put_of_missing found part missing

end FileAction

end Tariff
