import Tariff.Host.Path

/-!
# Files of the host

A tree of directories and files, and what goes wrong in it.  The tree is seen from one of its
directories, the root; directories above the root are there, but nothing is known of them.  The host
may refuse to write at a place or break off there.  An operation of several steps that fails keeps the
steps before the failure, and a file whose writing is broken off keeps what was written.
-/

namespace Tariff

/-- A text as the host keeps it: bytes that are UTF-8, or other bytes. -/
inductive HostText where
  | text (s : String)
  | other (bytes : List UInt8)
deriving DecidableEq

namespace HostText

/-- The text of bytes that are UTF-8. -/
def text? : HostText → Option String
  | .text s => some s
  | .other _ => none

/-- The bytes that are kept. -/
def bytes : HostText → ByteArray
  | .text s => s.toUTF8
  | .other bytes => ⟨bytes.toArray⟩

/-- The text that is kept as some bytes. -/
def ofBytes (bytes : ByteArray) : HostText :=
  match String.fromUTF8? bytes with
  | some s => .text s
  | none => .other bytes.data.toList

/-- The first bytes of a text, so many of them. -/
def take (count : Nat) (content : HostText) : HostText :=
  .ofBytes (content.bytes.extract 0 count)

end HostText

/-- What can be found at a place. -/
inductive Node where
  | directory
  | file (content : HostText)
deriving DecidableEq

/-- A place in the tree: the names that lead there, the last one first, from the directory so many
levels above the root. -/
structure Place where
  above : Nat
  names : List String
deriving DecidableEq

namespace Place

/-- The place of the root. -/
def root : Place := ⟨0, []⟩

/-- The place of the directory that holds what is at a place. -/
def parent (place : Place) : Place :=
  match place.names with
  | [] => ⟨place.above + 1, []⟩
  | _ :: names => ⟨place.above, names⟩

/-- The place of the entry with a name in the directory at a place. -/
def child (place : Place) (name : String) : Place :=
  ⟨place.above, name :: place.names⟩

/-- The place lies in the directory at `base` or further down in it. -/
def isBelow (place base : Place) : Bool :=
  place.above = base.above && base.names.isSuffixOf place.names && place ≠ base

/-- The place of a directory above the root. -/
def isAbove (place : Place) : Bool :=
  0 < place.above && place.names.isEmpty

end Place

/-- What becomes of writing at a place: all is written, or nothing since the host refuses it, or so
many bytes before the host breaks off. -/
inductive WriteAccess where
  | free
  | refused (message : String)
  | limited (bytes : Nat) (message : String)

namespace WriteAccess

/-- A file can be opened, or a directory made. -/
def check : WriteAccess → Except FileError Unit
  | .refused message => throw (.other message)
  | _ => return ()

/-- What is written of a content before the host breaks off, and what it says then. -/
def cut? (access : WriteAccess) (content : HostText) : Option (HostText × FileError) :=
  match access with
  | .limited bytes message =>
    if bytes < content.bytes.size then some (content.take bytes, .other message) else none
  | _ => none

end WriteAccess

/-- The nodes of a tree by their places, and what becomes of writing there.  The directories above the
root are left out. -/
structure Files where
  nodes : List (Place × Node)
  access : Place → WriteAccess := fun _ => .free

namespace Files

/-- The root alone. -/
def empty : Files where
  nodes := [(.root, .directory)]

/-- The node at a place. -/
def find? (files : Files) (place : Place) : Option Node :=
  if place.isAbove then some .directory else files.nodes.lookup place

/-- The tree without the node at a place. -/
def erase (files : Files) (place : Place) : Files :=
  { files with nodes := files.nodes.filter fun entry => entry.1 ≠ place }

/-- The tree with a node put at a place. -/
def put (files : Files) (place : Place) (node : Node) : Files :=
  { files with nodes := (place, node) :: (files.erase place).nodes }

/-- Nothing is left at an erased place below the root. -/
theorem find?_erase_self (files : Files) {place : Place} (h : place.isAbove = false) :
  (files.erase place).find? place = none
  := by
  simp only [find?, erase, h, Bool.false_eq_true, if_false, List.lookup_eq_none_iff]
  intro entry he
  have hne : entry.1 ≠ place := by simpa using (List.mem_filter.1 he).2
  simpa using hne.symm

/-- Erasing a place changes nothing elsewhere. -/
theorem find?_erase_of_ne (files : Files) {place other : Place} (h : other ≠ place) :
  (files.erase place).find? other = files.find? other
  := by
  simp only [find?, erase]
  split
  · rfl
  · induction files.nodes with
    | nil => rfl
    | cons entry nodes ih =>
      obtain ⟨place', node⟩ := entry
      rw [List.filter_cons]
      by_cases he : place' = place
      · have hb : (other == place') = false := by simp [he, h]
        rw [List.lookup_cons, hb, ← ih]
        simp [he]
      · simp only [ne_eq, he, not_false_eq_true, decide_true, if_true, List.lookup_cons, ih]

/-- What is put at a place is found there. -/
theorem find?_put_self (files : Files) {place : Place} (node : Node) (h : place.isAbove = false) :
  (files.put place node).find? place = some node
  := by
  simp [find?, put, h]

/-- Putting a node at a place changes nothing elsewhere. -/
theorem find?_put_of_ne (files : Files) {place other : Place} (node : Node) (h : other ≠ place) :
  (files.put place node).find? other = files.find? other
  := by
  have hb : (other == place) = false := by simp [h]
  rw [← find?_erase_of_ne files h]
  simp [find?, put, List.lookup_cons, hb]

/-- The tree without the nodes in the directory at a place. -/
def clear (files : Files) (place : Place) : Files :=
  { files with nodes := files.nodes.filter fun entry => !entry.1.isBelow place }

/-- A name has at most this many bytes. -/
def nameLimit : Nat := 255

/-- The node at a place, the last name on the way to which must not be too long. -/
def look (files : Files) (place : Place) : Except FileError (Option Node) :=
  if place.names.head?.any (nameLimit < ·.utf8ByteSize) then .error .nameTooLong
  else .ok (files.find? place)

/-- There is a directory at a place. -/
def checkDirectory (files : Files) (place : Place) : Except FileError Unit := do
  match ← files.look place with
  | none => throw .notFound
  | some (.file _) => throw .notDirectory
  | some .directory => return ()

/-- The place that a move leads to from a place, which has to be one of a directory. -/
def step (files : Files) (place : Place) (move : Move) : Except FileError Place := do
  files.checkDirectory place
  match move with
  | .up => return place.parent
  | .enter name => return place.child name

/-- The place that moves lead to from the root; all but the last have to lead to directories. -/
def walk (files : Files) (moves : List Move) : Except FileError Place :=
  moves.foldlM files.step .root

/-- The node that a path leads to; a file only if the path is bare. -/
def node (files : Files) (path : Path) : Except FileError Node := do
  match ← files.look (← files.walk path.moves) with
  | none => throw .notFound
  | some .directory => return .directory
  | some (.file content) =>
    if path.ending = .bare then return .file content else throw .notDirectory

/-- A path leads to a directory. -/
def isDirectory (files : Files) (path : Path) : Bool :=
  match files.node path with
  | .ok .directory => true
  | _ => false

/-- There is something at the end of a path. -/
def isThere (files : Files) (path : Path) : Except FileError Bool :=
  match files.node path with
  | .ok _ => .ok true
  | .error .notFound => .ok false
  | .error e => .error e

/-- The text of a file. -/
def read (files : Files) (path : Path) : Except FileError String := do
  match ← files.node path with
  | .file (.text s) => return s
  | .file (.other _) => throw .notText
  | .directory => throw .isDirectory

/-- The place of the entry that the last move of a path names.  There is none if the path ends in
dots, and then it leads to a directory. -/
def entry? (files : Files) (path : Path) : Except FileError (Option Place) := do
  let place ← files.walk path.moves
  if path.ending = .dot then do
    files.checkDirectory place
    return none
  else if path.moves.getLast? = some .up then return none
  else return some place

/-- The place at a path where a file can be opened to be written. -/
def openFile (files : Files) (path : Path) : Except FileError Place := do
  match ← files.entry? path with
  | none => throw .isDirectory
  | some place =>
    if path.ending = .slash then throw .isDirectory
    else
      match ← files.look place with
      | some .directory => throw .isDirectory
      | _ => do
        (files.access place).check
        return place

/-- The tree with a file of the given content at a path, if all of it is written. -/
def write (files : Files) (path : Path) (content : HostText) : Except FileError Files := do
  let place ← files.openFile path
  match (files.access place).cut? content with
  | some (_, e) => throw e
  | none => return files.put place (.file content)

/-- What is left of the tree if not all of a content is written at a path: a file that could be opened
holds what was written. -/
def leftover (files : Files) (path : Path) (content : HostText) : Files :=
  match files.openFile path with
  | .error _ => files
  | .ok place =>
    match (files.access place).cut? content with
    | some (part, _) => files.put place (.file part)
    | none => files

/-- The tree with a new directory at a path. -/
def makeDirectory (files : Files) (path : Path) : Except FileError Files := do
  match ← files.entry? path with
  | none => throw .alreadyExists
  | some place =>
    match ← files.look place with
    | some _ => throw .alreadyExists
    | none => do
      (files.access place).check
      return files.put place .directory

/-- The tree without the file at a path. -/
def removeFile (files : Files) (path : Path) : Except FileError Files := do
  match ← files.entry? path with
  | none => throw .isDirectory
  | some place =>
    match ← files.look place with
    | none => throw .notFound
    | some .directory => throw .isDirectory
    | some (.file _) =>
      if path.ending = .bare then return files.erase place else throw .notDirectory

end Files

/-- An operation on the tree; what it has done stays when it fails. -/
abbrev FileAction := ExceptT FileError (StateM Files) Unit

namespace FileAction

/-- The operation of one step, which does nothing if it fails. -/
def ofStep (step : Files → Except FileError Files) : FileAction := fun files =>
  match step files with
  | .ok files => (.ok (), files)
  | .error e => (.error e, files)

/-- A new directory at a path, unless there is one. -/
def ensureDirectory (path : Path) : FileAction := fun files =>
  match files.makeDirectory path with
  | .ok files => (.ok (), files)
  | .error e =>
    if e = .alreadyExists ∧ files.isDirectory path then (.ok (), files) else (.error e, files)

/-- Directories along moves, the last one first: where the directory for one is missing it is made
before. -/
def ensureAlong (ending : PathEnd) (moves : List Move) : FileAction := fun files =>
  let last := ensureDirectory ⟨moves.reverse, ending⟩
  match last files, moves with
  | (.error .notFound, files), _ :: outer =>
    match ensureAlong .bare outer files with
    | (.ok (), files) => last files
    | reply => reply
  | reply, _ => reply

/-- Directories at a path and on the way to it. -/
def makeDirectories (path : Path) : FileAction :=
  ensureAlong path.ending path.moves.reverse

/-- A file of the given content at a path, or what was written of it. -/
def write (path : Path) (content : HostText) : FileAction := fun files =>
  match files.write path content with
  | .ok files => (.ok (), files)
  | .error e => (.error e, files.leftover path content)

/-- A file at a path, directories on the way to it made if they are missing. -/
def save (path : Path) (content : HostText) : FileAction := do
  match path.parent? with
  | none => pure ()
  | some parent => makeDirectories parent
  write path content

/-- No directory at a path, and nothing of what was in it.  A path that ends in a dot is refused
when all is gone but the directory itself. -/
def removeTree (path : Path) : FileAction := fun files =>
  match files.node path, files.walk path.moves with
  | .error e, _ => (.error e, files)
  | .ok (.file _), _ => (.error .notDirectory, files)
  | .ok .directory, .error e => (.error e, files)
  | .ok .directory, .ok place =>
    let cleared := files.clear place
    match cleared.entry? path with
    | .error .notFound => (.ok (), cleared)
    | .error e => (.error e, cleared)
    | .ok none => (.error .invalidPath, cleared)
    | .ok (some place) => (.ok (), cleared.erase place)

end FileAction

end Tariff
