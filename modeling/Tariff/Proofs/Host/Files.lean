import Mathlib.Data.List.Induction
import Tariff.Host.Files
import Tariff.Proofs.Except

/-!
# Files at the end of a path

A path is followed through directories only.  Hence what has been written at the end of a path is
found there, no directories are made on the way to a file, and what cannot be saved leaves the tree
with these directories at most, and with a part of the text if the writing was broken off.
-/

namespace Tariff

namespace HostText

/-! ### Parts of texts -/

/-- The bytes of a text that is made of bytes are these bytes. -/
theorem toByteArray_of_ofBytes {bytes : ByteArray} {s : String} (made : ofBytes bytes = .text s) :
  s.toByteArray = bytes
  := by
  unfold ofBytes String.fromUTF8? at made
  split at made
  case h_1 found =>
    obtain rfl := text.inj made
    split at found
    · cases found
      rfl
    · cases found
  case h_2 => cases made

/-- Without bytes there is the empty text. -/
theorem take_zero (content : HostText) :
  content.take 0 = .text ""
  := by
  have none : content.bytes.extract 0 0 = "".toByteArray := by
    simp
  have valid : ("".toByteArray).IsValidUTF8 := "".isValidUTF8
  rw [take, none, ofBytes, String.fromUTF8?, dif_pos valid]
  rfl

/-- A text that is cut off is continued by what is missing of it. -/
theorem exists_append_of_take {count : Nat} {whole s : String}
    (cut : (text whole).take count = .text s) (lt : count < (text whole).bytes.size) :
  ∃ more, more ≠ [] ∧ s.toList ++ more = whole.toList ∧ (s = "" ↔ count = 0)
  := by
  have bytes_eq : s.toByteArray = whole.toByteArray.extract 0 count := toByteArray_of_ofBytes cut
  have whole_lt : count < whole.toByteArray.size := lt
  have size_eq : s.toByteArray.size = count := by
    rw [bytes_eq, ByteArray.size_extract]
    omega
  have joined : s.toList.utf8Encode ++ whole.toByteArray.extract count whole.toByteArray.size =
      whole.toList.utf8Encode := by
    rw [String.utf8Encode_toList, String.utf8Encode_toList, bytes_eq]
    rw [← ByteArray.extract_eq_extract_append_extract count (Nat.zero_le _) (Nat.le_of_lt whole_lt),
      ByteArray.extract_zero_size]
  obtain ⟨more, append_eq⟩ := List.isPrefix_of_utf8Encode_append_eq_utf8Encode _ joined
  refine ⟨more, ?_, append_eq, ?_⟩
  · rintro rfl
    rw [List.append_nil] at append_eq
    have same := String.toList_inj.mp append_eq
    rw [same] at size_eq
    omega
  · rw [← size_eq]
    exact String.utf8ByteSize_eq_zero_iff.symm

end HostText

/-- The place that a move leads to from a directory. -/
def Place.after (place : Place) : Move → Place
  | .up => place.parent
  | .enter name => place.child name

namespace Files

variable {files files' : Files} {path : Path} {place : Place} {content : HostText}

/-! ### Following moves -/

/-- The nodes at the places through which a place is reached from above are directories. -/
def Supports (files : Files) (place : Place) : Prop :=
  ∀ names, names <:+ place.names → names ≠ place.names →
    files.look ⟨place.above, names⟩ = .ok (some .directory)

/-- There is a directory where one is found. -/
theorem checkDirectory_eq_ok_iff :
  files.checkDirectory place = .ok () ↔ files.look place = .ok (some .directory)
  := by
  unfold checkDirectory
  rw [Except.bind_eq_ok]
  constructor
  · rintro ⟨node?, found, checked⟩
    cases node? with
    | none => exact absurd checked Except.throw_ne_ok
    | some node =>
      cases node with
      | directory => apply found
      | file content => exact absurd checked Except.throw_ne_ok
  · intro found
    exact ⟨_, found, rfl⟩

/-- A move can be made from a directory. -/
theorem step_eq_ok_iff {move : Move} {next : Place} :
  files.step place move = .ok next ↔
    files.look place = .ok (some .directory) ∧ next = place.after move
  := by
  unfold step
  rw [Except.bind_eq_ok, ← checkDirectory_eq_ok_iff]
  constructor
  · rintro ⟨_, checked, moved⟩
    use checked
    cases move with
    | up => apply (Except.pure_eq_ok.mp moved).symm
    | enter name => apply (Except.pure_eq_ok.mp moved).symm
  · rintro ⟨checked, rfl⟩
    use (), checked
    cases move with
    | up => rfl
    | enter name => rfl

/-- The last of several moves is made from where those before it lead. -/
theorem walk_concat_eq_ok_iff {moves : List Move} {move : Move} :
  files.walk (moves ++ [move]) = .ok place ↔
    ∃ base, files.walk moves = .ok base ∧ files.look base = .ok (some .directory) ∧
      place = base.after move
  := by
  unfold walk
  simp only [List.foldlM_append, List.foldlM_cons, List.foldlM_nil, bind_pure,
    Except.bind_eq_ok, step_eq_ok_iff]

/-- A move up from a supported place leads to a supported directory. -/
theorem Supports.parent (supports : files.Supports place) :
  files.Supports place.parent ∧ files.look place.parent = .ok (some .directory)
  := by
  obtain ⟨above, names⟩ := place
  cases names with
  | nil =>
    constructor
    · intro names suffix proper
      exact absurd (List.suffix_nil.mp suffix) proper
    · simp [Place.parent, look, find?, Place.isAbove]
  | cons name names =>
    constructor
    · intro names' suffix proper
      apply supports names' (suffix.trans (List.suffix_cons ..))
      rintro rfl
      exact absurd suffix.length_le (Nat.not_succ_le_self _)
    · apply supports names (List.suffix_cons ..)
      simp

/-- An entry of a supported directory is supported. -/
theorem Supports.child (supports : files.Supports place)
    (directory : files.look place = .ok (some .directory)) (name : String) :
  files.Supports (place.child name)
  := by
  intro names suffix proper
  rcases List.suffix_cons_iff.mp suffix with rfl | suffix
  · exact absurd rfl proper
  · by_cases h : names = place.names
    · rw [h]
      apply directory
    · apply supports names suffix h

/-- Moves are made through directories. -/
theorem supports_of_walk {moves : List Move} (walk : files.walk moves = .ok place) :
  files.Supports place
  := by
  induction moves using List.reverseRecOn generalizing place with
  | nil =>
    obtain rfl : Place.root = place := Except.pure_eq_ok.mp walk
    intro names suffix proper
    exact absurd (List.suffix_nil.mp suffix) proper
  | append_singleton moves move ih =>
    obtain ⟨base, reached, directory, rfl⟩ := walk_concat_eq_ok_iff.mp walk
    cases move with
    | up => apply (ih reached).parent.1
    | enter name => apply (ih reached).child directory name

/-! ### Nodes -/

/-- A path leads to a directory when its moves do. -/
theorem isDirectory_iff :
  files.isDirectory path = true ↔
    ∃ place, files.walk path.moves = .ok place ∧ files.look place = .ok (some .directory)
  := by
  unfold isDirectory node
  cases files.walk path.moves with
  | error e => simp [bind, Except.bind]
  | ok place =>
    cases found : files.look place with
    | error e => simp [found, bind, Except.bind]
    | ok node? =>
      cases node? with
      | none => simp [found, bind, Except.bind, throw, throwThe, MonadExceptOf.throw]
      | some node =>
        cases node with
        | directory => simp [found, bind, Except.bind, pure, Except.pure]
        | file content =>
          by_cases bare : path.ending = .bare <;>
            simp [found, bare, bind, Except.bind, pure, Except.pure, throw, throwThe,
              MonadExceptOf.throw]

/-- A path leads to a file when it is bare and its moves lead to the file. -/
theorem node_eq_file_iff :
  files.node path = .ok (.file content) ↔
    path.ending = .bare ∧ ∃ place, files.walk path.moves = .ok place ∧
      files.look place = .ok (some (.file content))
  := by
  unfold node
  rw [Except.bind_eq_ok]
  constructor
  · rintro ⟨place, reached, looked⟩
    obtain ⟨node?, found, node_eq⟩ := Except.bind_eq_ok.mp looked
    cases node? with
    | none => exact absurd node_eq Except.throw_ne_ok
    | some node =>
      cases node with
      | directory => simp [Except.pure_eq_ok] at node_eq
      | file content' =>
        by_cases bare : path.ending = .bare
        · obtain rfl : content' = content := by simpa [bare, Except.pure_eq_ok] using node_eq
          exact ⟨bare, place, reached, found⟩
        · simp [bare, Except.throw_ne_ok] at node_eq
  · rintro ⟨bare, place, reached, found⟩
    use place, reached
    simp [found, bare, bind, Except.bind, pure, Except.pure]

/-- The way to the end of a path leads through the directory before it. -/
theorem isDirectory_parent {parent : Path} (walk : files.walk path.moves = .ok place)
    (before : path.parent? = some parent) :
  files.isDirectory parent = true
  := by
  unfold Path.parent? at before
  split at before
  case isTrue empty => cases before
  case isFalse nonempty =>
    obtain rfl := Option.some.inj before
    have moves_ne_nil : path.moves ≠ [] := by simpa using nonempty
    rw [← List.dropLast_concat_getLast moves_ne_nil, walk_concat_eq_ok_iff] at walk
    obtain ⟨base, reached, directory, -⟩ := walk
    apply isDirectory_iff.mpr ⟨base, reached, directory⟩

/-! ### Writing -/

/-- A path names an entry if its last part is a name, and that is where its moves lead. -/
theorem entry?_eq_some_iff :
  files.entry? path = .ok (some place) ↔
    files.walk path.moves = .ok place ∧ path.ending ≠ .dot ∧ path.moves.getLast? ≠ some .up
  := by
  unfold entry?
  rw [Except.bind_eq_ok]
  constructor
  · rintro ⟨place', reached, named⟩
    by_cases dot : path.ending = .dot
    · rw [if_pos dot, Except.bind_eq_ok] at named
      obtain ⟨_, _, named⟩ := named
      cases Except.pure_eq_ok.mp named
    · by_cases up : path.moves.getLast? = some .up
      · simp [dot, up, Except.pure_eq_ok] at named
      · obtain rfl : place' = place := by simpa [dot, up, Except.pure_eq_ok] using named
        exact ⟨reached, dot, up⟩
  · rintro ⟨reached, dot, up⟩
    use place, reached
    simp [dot, up, Except.pure_eq_ok]

/-- A file can be opened at a bare path to an entry that is no directory, unless the host refuses. -/
theorem openFile_eq_ok_iff :
  files.openFile path = .ok place ↔
    path.ending = .bare ∧ files.entry? path = .ok (some place) ∧
      (∃ node?, files.look place = .ok node? ∧ node? ≠ some .directory) ∧
      (files.access place).check = .ok ()
  := by
  unfold openFile
  rw [Except.bind_eq_ok]
  constructor
  · rintro ⟨place?, named, opened⟩
    cases place? with
    | none => exact absurd opened Except.throw_ne_ok
    | some place' =>
      by_cases slash : path.ending = .slash
      · simp [slash, Except.throw_ne_ok] at opened
      · simp only [slash, if_false] at opened
        obtain ⟨node?, found, opened⟩ := Except.bind_eq_ok.mp opened
        have bare : path.ending = .bare := by
          have := (entry?_eq_some_iff.mp named).2.1
          cases h : path.ending <;> simp_all
        by_cases directory : node? = some .directory
        · simp [directory, Except.throw_ne_ok] at opened
        · split at opened
          · exact absurd rfl directory
          · obtain ⟨_, allowed, opened⟩ := Except.bind_eq_ok.mp opened
            obtain rfl := Except.pure_eq_ok.mp opened
            exact ⟨bare, named, ⟨node?, found, directory⟩, allowed⟩
  · rintro ⟨bare, named, ⟨node?, found, directory⟩, allowed⟩
    use some place, named
    simp only [bare, reduceCtorEq, if_false, Except.bind_eq_ok]
    use node?, found
    split
    · exact absurd rfl directory
    · exact Except.bind_eq_ok.mpr ⟨(), allowed, rfl⟩

/-- A file is written where it can be opened, if the host does not break off. -/
theorem write_eq_ok_iff :
  files.write path content = .ok files' ↔
    ∃ place, files.openFile path = .ok place ∧ (files.access place).cut? content = none ∧
      files' = files.put place (.file content)
  := by
  unfold write
  rw [Except.bind_eq_ok]
  constructor
  · rintro ⟨place, opened, written⟩
    cases cut : (files.access place).cut? content with
    | some part =>
      rw [cut] at written
      exact absurd written Except.throw_ne_ok
    | none =>
      rw [cut] at written
      exact ⟨place, opened, cut, (Except.pure_eq_ok.mp written).symm⟩
  · rintro ⟨place, opened, cut, rfl⟩
    use place, opened
    rw [cut]
    rfl

/-- What is found away from a place does not depend on what is put there. -/
theorem look_put_of_ne {node : Node} {other : Place} (h : other ≠ place) :
  (files.put place node).look other = files.look other
  := by
  simp only [look, find?_put_of_ne files node h]

/-- A place that is no directory is not above the root. -/
theorem isAbove_of_look {node? : Option Node} (found : files.look place = .ok node?)
    (directory : node? ≠ some .directory) :
  place.isAbove = false
  := by
  unfold look at found
  split at found
  case isTrue => cases found
  case isFalse =>
    obtain rfl := Except.ok.inj found
    cases above : place.isAbove with
    | false => rfl
    | true => exact absurd (by simp [find?, above]) directory

/-- What is put at a place that is no directory is found there. -/
theorem look_put_self {node : Node} {node? : Option Node} (found : files.look place = .ok node?)
    (directory : node? ≠ some .directory) :
  (files.put place node).look place = .ok (some node)
  := by
  have below := isAbove_of_look found directory
  unfold look at found ⊢
  split at found
  case isTrue long => cases found
  case isFalse short => rw [if_neg short, find?_put_self files node below]

/-- Moves are made as before when something is put at a place that is no directory. -/
theorem walk_put {node : Node} {node? : Option Node} {moves : List Move} {last : Place}
    (found : files.look place = .ok node?) (directory : node? ≠ some .directory)
    (walk : files.walk moves = .ok last) :
  (files.put place node).walk moves = .ok last
  := by
  induction moves using List.reverseRecOn generalizing last with
  | nil => apply walk
  | append_singleton moves move ih =>
    obtain ⟨base, reached, there, rfl⟩ := walk_concat_eq_ok_iff.mp walk
    have base_ne : base ≠ place := by
      rintro rfl
      rw [there] at found
      apply directory (Except.ok.inj found).symm
    apply walk_concat_eq_ok_iff.mpr
    use base, ih reached
    rw [look_put_of_ne base_ne]
    exact ⟨there, rfl⟩

/-- What is put at the place of a file that can be opened is found at the path. -/
theorem node_put_of_openFile (opened : files.openFile path = .ok place) (content : HostText) :
  (files.put place (.file content)).node path = .ok (.file content)
  := by
  obtain ⟨bare, named, ⟨node?, found, directory⟩, -⟩ := openFile_eq_ok_iff.mp opened
  obtain ⟨reached, -⟩ := entry?_eq_some_iff.mp named
  apply node_eq_file_iff.mpr
  exact ⟨bare, place, walk_put found directory reached, look_put_self found directory⟩

/-- What has been written to a path is there. -/
theorem node_of_write (written : files.write path content = .ok files') :
  files'.node path = .ok (.file content)
  := by
  obtain ⟨place, opened, -, rfl⟩ := write_eq_ok_iff.mp written
  exact node_put_of_openFile opened content

/-- What is cut off is written up to a number of bytes, fewer than there are. -/
theorem cut?_eq_some_iff {access : WriteAccess} {part : HostText} {e : FileError} :
  access.cut? content = some (part, e) ↔
    ∃ bytes message, access = .limited bytes message ∧ bytes < content.bytes.size ∧
      part = content.take bytes ∧ e = .other message
  := by
  cases access with
  | free => simp [WriteAccess.cut?]
  | refused message => simp [WriteAccess.cut?]
  | limited bytes message =>
    by_cases lt : bytes < content.bytes.size
    · simp [WriteAccess.cut?, lt, eq_comm]
    · simp [WriteAccess.cut?, lt]

/-- A tree that is left when a text could not be written is as before, or holds a part of the text. -/
theorem leftover_cases (files : Files) (path : Path) (content : HostText) :
  files.leftover path content = files ∨
    ∃ place bytes, files.openFile path = .ok place ∧ bytes < content.bytes.size ∧
      files.leftover path content = files.put place (.file (content.take bytes))
  := by
  unfold leftover
  cases opened : files.openFile path with
  | error e => exact .inl rfl
  | ok place =>
    dsimp only
    cases cut : (files.access place).cut? content with
    | none => exact .inl rfl
    | some broken =>
      obtain ⟨part, e⟩ := broken
      obtain ⟨bytes, -, -, lt, rfl, -⟩ := cut?_eq_some_iff.mp cut
      exact .inr ⟨place, bytes, rfl, lt, rfl⟩

end Files

namespace FileAction

open Files

variable {files files' : Files} {path : Path} {content : HostText} {e : FileError}

/-! ### Directories on the way -/

/-- No new directory can be made where there is one. -/
theorem makeDirectory_of_isDirectory (directory : files.isDirectory path = true) :
  files.makeDirectory path = .error .alreadyExists
  := by
  obtain ⟨place, reached, found⟩ := isDirectory_iff.mp directory
  have checked := checkDirectory_eq_ok_iff.mpr found
  unfold makeDirectory entry?
  by_cases dot : path.ending = .dot
  · simp [reached, dot, checked, bind, Except.bind, pure, Except.pure, throw, throwThe,
      MonadExceptOf.throw]
  · by_cases up : path.moves.getLast? = some .up
    · simp [reached, dot, up, bind, Except.bind, pure, Except.pure, throw, throwThe,
        MonadExceptOf.throw]
    · simp [reached, dot, up, found, bind, Except.bind, pure, Except.pure, throw, throwThe,
        MonadExceptOf.throw]

/-- Nothing is done where there is a directory. -/
theorem ensureDirectory_of_isDirectory (directory : files.isDirectory path = true) :
  ensureDirectory path files = (.ok (), files)
  := by
  simp [ensureDirectory, makeDirectory_of_isDirectory directory, directory]

/-- Along moves that lead to a directory, or cannot, nothing is done but what is done at the
last. -/
theorem ensureAlong_of_ne_notFound {ending : PathEnd} {moves : List Move}
    {answer : Except FileError Unit}
    (last : ensureDirectory ⟨moves.reverse, ending⟩ files = (answer, files'))
    (answer_ne : answer ≠ .error .notFound) :
  ensureAlong ending moves files = (answer, files')
  := by
  unfold ensureAlong
  simp only [last]
  split
  case h_1 missing =>
    cases missing
    exact absurd rfl answer_ne
  case h_2 => rfl

/-- Nothing is done where the directories are. -/
theorem makeDirectories_of_isDirectory (directory : files.isDirectory path = true) :
  makeDirectories path files = (.ok (), files)
  := by
  apply ensureAlong_of_ne_notFound
  · rw [List.reverse_reverse]
    apply ensureDirectory_of_isDirectory directory
  · simp

/-! ### Saving -/

/-- The directories on the way to a path. -/
def makeParents (path : Path) : FileAction :=
  match path.parent? with
  | none => pure ()
  | some parent => makeDirectories parent

/-- A file is saved by making directories and then writing it. -/
theorem save_eq :
  save path content files =
    match makeParents path files with
    | (.ok (), files) => write path content files
    | (.error e, files) => (.error e, files)
  := by
  have save_eq_bind : save path content = makeParents path >>= fun _ => write path content := by
    unfold save makeParents
    cases path.parent? <;> rfl
  rw [save_eq_bind]
  simp only [bind, ExceptT.bind, ExceptT.mk, StateT.bind]
  rcases makeParents path files with ⟨_ | _, _⟩ <;> rfl

/-- No directories are made on the way to a file. -/
theorem makeParents_of_node {old : HostText} (there : files.node path = .ok (.file old)) :
  makeParents path files = (.ok (), files)
  := by
  obtain ⟨-, place, reached, -⟩ := node_eq_file_iff.mp there
  unfold makeParents
  cases before : path.parent? with
  | none => rfl
  | some parent => apply makeDirectories_of_isDirectory (isDirectory_parent reached before)

/-- Writing leaves the tree as it was, or with a file at the end of the path. -/
theorem write_cases (path : Path) (content : HostText) (files : Files) :
  (write path content files).2 = files ∨
    ∃ place part, files.openFile path = .ok place ∧
      (write path content files).2 = files.put place (.file part)
  := by
  unfold write
  split
  case h_1 written =>
    obtain ⟨place, opened, -, rfl⟩ := write_eq_ok_iff.mp written
    exact .inr ⟨place, content, opened, rfl⟩
  case h_2 =>
    apply (files.leftover_cases path content).imp_right
    rintro ⟨place, bytes, opened, -, cut⟩
    exact ⟨place, _, opened, cut⟩

/-- What has been saved is there. -/
theorem node_of_save (saved : save path content files = (.ok (), files')) :
  files'.node path = .ok (.file content)
  := by
  rw [save_eq] at saved
  split at saved
  case h_1 =>
    unfold write at saved
    split at saved
    case h_1 written =>
      cases saved
      apply node_of_write written
    case h_2 => cases saved
  case h_2 => cases saved

/-- At the end of a path where a file could not be saved is what was there when the directories on the
way had been made, or a part of the content. -/
theorem node_of_save_error (failed : save path content files = (.error e, files')) :
  files'.node path = (makeParents path files).2.node path ∨
    ∃ bytes, bytes < content.bytes.size ∧ files'.node path = .ok (.file (content.take bytes))
  := by
  rw [save_eq] at failed
  split at failed
  case h_1 mid made =>
    rw [made]
    unfold write at failed
    split at failed
    case h_1 => cases failed
    case h_2 =>
      cases failed
      rcases mid.leftover_cases path content with same | ⟨place, bytes, opened, lt, cut⟩
      · exact .inl (congrArg (·.node path) same)
      · right
        rw [cut]
        exact ⟨bytes, lt, node_put_of_openFile opened _⟩
  case h_2 mid made =>
    cases failed
    rw [made]
    exact .inl rfl

end FileAction

end Tariff
