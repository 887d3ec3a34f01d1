import Tariff.Proofs.Host.Growth

/-!
# Plain paths

A path of names leads down only.  In a tree, the nodes above one that is there are directories, so that
a path of names leads to it.  Hence a path of names that leads nowhere does not come to lead somewhere
because directories are made on the way to another place, or a file is written there.
-/

namespace Tariff

namespace Place

/-- Neither of two places is the other one or lies below it. -/
structure Apart (p q : Place) : Prop where
  ne : p ≠ q
  not_below : p.isBelow q = false
  not_above : q.isBelow p = false

/-- Whether two places are apart can be computed. -/
instance : DecidableRel Apart := fun p q =>
  decidable_of_iff (p ≠ q ∧ p.isBelow q = false ∧ q.isBelow p = false)
    ⟨fun ⟨ne, not_below, not_above⟩ => ⟨ne, not_below, not_above⟩,
      fun ⟨ne, not_below, not_above⟩ => ⟨ne, not_below, not_above⟩⟩

/-- What lies below a place. -/
theorem isBelow_iff {place base : Place} :
  place.isBelow base = true ↔ place.above = base.above ∧ base.names <:+ place.names ∧ place ≠ base
  := by
  simp [isBelow, and_assoc]

/-- An entry lies below its directory, and below whatever that lies below. -/
theorem isBelow_child {place base : Place} (name : String)
    (within : place = base ∨ place.isBelow base = true) :
  (place.child name).isBelow base = true
  := by
  have longer : (place.child name).names.length = place.names.length + 1 := rfl
  rcases within with rfl | below
  · apply isBelow_iff.mpr
    refine ⟨rfl, List.suffix_cons .., ?_⟩
    intro same
    rw [same] at longer
    omega
  · obtain ⟨above_eq, suffix, -⟩ := isBelow_iff.mp below
    apply isBelow_iff.mpr
    refine ⟨above_eq, suffix.trans (List.suffix_cons ..), ?_⟩
    rintro rfl
    have le := suffix.length_le
    omega

end Place

/-- A move to a name that is not too long. -/
def Move.IsPlain : Move → Prop
  | .up => False
  | .enter name => name.utf8ByteSize ≤ Files.nameLimit

/-- Whether a move is plain can be computed. -/
instance : DecidablePred Move.IsPlain
  | .up => isFalse id
  | .enter name => inferInstanceAs (Decidable (name.utf8ByteSize ≤ Files.nameLimit))

/-- A plain move has a name. -/
theorem Move.IsPlain.exists_name {move : Move} (plain : move.IsPlain) :
  ∃ name, move = .enter name ∧ name.utf8ByteSize ≤ Files.nameLimit
  := by
  cases move with
  | up => cases plain
  | enter name => exact ⟨name, rfl, plain⟩

namespace Path

/-- Moves to names that are not too long. -/
def ArePlain (moves : List Move) : Prop :=
  ∀ move ∈ moves, move.IsPlain

/-- A path of names that are not too long. -/
def IsPlain (path : Path) : Prop :=
  ArePlain path.moves

/-- Whether a path is plain can be computed. -/
instance : DecidablePred IsPlain := fun path =>
  inferInstanceAs (Decidable (∀ move ∈ path.moves, move.IsPlain))

/-- Plain moves lead further down. -/
theorem isBelow_along {moves moves' : List Move} (plain : ArePlain moves)
    (before : moves' <+: moves) (proper : moves' ≠ moves) :
  (Place.along moves).isBelow (.along moves') = true
  := by
  induction moves using List.reverseRecOn with
  | nil => exact absurd (List.prefix_nil.mp before) proper
  | append_singleton moves move ih =>
    obtain ⟨plain_moves, plain_move⟩ := List.forall_mem_append.mp plain
    obtain ⟨name, rfl, -⟩ := (plain_move move List.mem_cons_self).exists_name
    rw [Place.along_concat]
    apply Place.isBelow_child
    rcases List.prefix_concat_iff.mp before with eq | before
    · exact absurd eq proper
    · by_cases same : moves' = moves
      · exact .inl (congrArg Place.along same.symm)
      · exact .inr (ih plain_moves before same)

end Path

namespace Files

variable {files files' : Files} {path : Path} {place : Place} {found? : Node} {content : HostText}
  {written made : Place → Prop}

/-- The root alone is a tree. -/
theorem isTree_empty :
  empty.IsTree
  := by
  rintro ⟨above, names⟩ node found
  cases names with
  | nil => simp [find?, Place.parent, Place.isAbove]
  | cons name names =>
    have ne : (⟨above, name :: names⟩ : Place) ≠ .root := by simp [Place.root]
    simp [find?, Place.isAbove, empty, List.lookup_cons, beq_false_of_ne ne] at found

/-- The last name of plain moves is not too long. -/
theorem look_along {moves : List Move} (plain : Path.ArePlain moves) (files : Files) :
  files.look (.along moves) = .ok (files.find? (.along moves))
  := by
  apply look_eq_ok_iff.mpr
  refine ⟨?_, rfl⟩
  cases moves using List.reverseRecOn with
  | nil => rfl
  | append_singleton moves move =>
    obtain ⟨name, rfl, short⟩ := (plain move (by simp)).exists_name
    rw [Place.along_concat]
    simpa [Place.after, Place.child] using short

/-- Plain moves lead to a node of a tree. -/
theorem IsTree.walk_eq (tree : files.IsTree) {moves : List Move} (plain : Path.ArePlain moves)
    (found : files.find? (.along moves) = some found?) :
  files.walk moves = .ok (.along moves)
  := by
  induction moves using List.reverseRecOn generalizing found? with
  | nil => rfl
  | append_singleton moves move ih =>
    obtain ⟨plain_moves, plain_move⟩ := List.forall_mem_append.mp plain
    obtain ⟨name, rfl, -⟩ := (plain_move move List.mem_cons_self).exists_name
    rw [Place.along_concat] at found ⊢
    have directory : files.find? (.along moves) = some .directory := tree _ _ found
    apply walk_concat_eq_ok_iff.mpr
    refine ⟨_, ih plain_moves directory, ?_, rfl⟩
    rw [look_along plain_moves, directory]

/-- No further moves can be made from a file. -/
theorem walk_of_file {moves rest : List Move} (reached : files.walk moves = .ok place)
    (found : files.look place = .ok (some (.file content))) (rest_ne : rest ≠ []) :
  files.walk (moves ++ rest) = .error .notDirectory
  := by
  obtain ⟨move, rest, rfl⟩ := List.exists_cons_of_ne_nil rest_ne
  have stuck : files.step place move = .error .notDirectory := by
    unfold step checkDirectory
    rw [found]
    rfl
  rw [walk] at reached
  rw [walk, List.foldlM_append, reached]
  change (files.step place move >>= _) = _
  rw [stuck]
  rfl

/-- No file is in the way of moves. -/
def ClearWay (files : Files) (moves : List Move) : Prop :=
  ∀ before, before <+: moves → before ≠ moves → ∀ content,
    files.find? (.along before) ≠ some (.file content)

/-- Plain moves lead to their place or nowhere if no file is in the way. -/
theorem walk_of_clearWay {moves : List Move} (plain : Path.ArePlain moves)
    (clear : files.ClearWay moves) :
  files.walk moves = .ok (.along moves) ∨ files.walk moves = .error .notFound
  := by
  induction moves using List.reverseRecOn with
  | nil => exact .inl rfl
  | append_singleton moves move ih =>
    obtain ⟨plain_moves, -⟩ := List.forall_mem_append.mp plain
    have clear_moves : files.ClearWay moves := by
      intro before within proper
      apply clear before (within.trans (List.prefix_append _ _))
      rintro rfl
      have le := within.length_le
      rw [List.length_append, List.length_singleton] at le
      omega
    have looked := look_along plain_moves files
    rw [walk_concat]
    rcases ih plain_moves clear_moves with reached | stuck
    · rcases found : files.find? (.along moves) with _ | _ | content
      · right
        rw [reached]
        change files.step (.along moves) move = _
        unfold step checkDirectory
        rw [looked, found]
        rfl
      · left
        rw [← walk_concat, Place.along_concat]
        exact walk_concat_eq_ok_iff.mpr ⟨_, reached, looked.trans (congrArg _ found), rfl⟩
      · exact absurd found (clear moves (List.prefix_append _ _) (by simp) content)
    · right
      rw [stuck]
      rfl

/-- A plain path leads nowhere in a tree if nothing is at its place and no file is in the way. -/
theorem IsTree.node_eq_notFound_iff (tree : files.IsTree) (plain : path.IsPlain) :
  files.node path = .error .notFound ↔
    files.find? path.place = none ∧ files.ClearWay path.moves
  := by
  have looked := look_along plain files
  rw [← Path.place] at looked
  rw [Files.node_eq_notFound_iff]
  constructor
  · intro missing
    have nothing : files.find? path.place = none := by
      by_contra there
      obtain ⟨node, found⟩ := Option.ne_none_iff_exists'.mp there
      have reached := tree.walk_eq plain found
      rcases missing with stuck | ⟨place, reached', nothing⟩
      · cases reached.symm.trans stuck
      · obtain rfl := Except.ok.inj (reached'.symm.trans reached)
        cases (looked.trans (congrArg _ found)).symm.trans nothing
    refine ⟨nothing, ?_⟩
    intro before within proper content found
    obtain ⟨rest, moves_eq⟩ := within
    have rest_ne : rest ≠ [] := by
      rintro rfl
      exact proper ((List.append_nil before).symm.trans moves_eq)
    have plain_before : Path.ArePlain before := by
      intro move move_mem
      apply plain move
      rw [← moves_eq]
      exact List.mem_append_left rest move_mem
    have stuck := walk_of_file (tree.walk_eq plain_before found)
      ((look_along plain_before files).trans (congrArg _ found)) rest_ne
    rw [moves_eq] at stuck
    rcases missing with missing | ⟨place, reached, -⟩
    · cases stuck.symm.trans missing
    · cases stuck.symm.trans reached
  · rintro ⟨nothing, clear⟩
    rcases walk_of_clearWay plain clear with reached | stuck
    · exact .inr ⟨path.place, reached, looked.trans (congrArg _ nothing)⟩
    · exact .inl stuck

/-- A plain path that leads nowhere in a tree does not lead anywhere afterwards, unless it leads to or
through what is written or made. -/
theorem Grows.node_missing (grows : Grows written made files files') (tree : files.IsTree)
    (plain : path.IsPlain) (missing : files.node path = .error .notFound)
    (unwritten : ∀ p, written p → p ≠ path.place ∧ path.place.isBelow p = false)
    (unmade : ¬ made path.place) :
  files'.node path = .error .notFound
  := by
  rw [tree.node_eq_notFound_iff plain] at missing
  rw [(grows.isTree tree).node_eq_notFound_iff plain]
  obtain ⟨nothing, clear⟩ := missing
  constructor
  · rcases found : files'.find? path.place with _ | _ | content
    · rfl
    · exact absurd (grows.new_directory nothing found) unmade
    · exact absurd rfl (unwritten _ (grows.new_file nothing found)).1
  · intro before within proper content found'
    rcases found : files.find? (.along before) with _ | _ | content
    · have not_below := (unwritten _ (grows.new_file found found')).2
      rw [Path.place, Path.isBelow_along plain within proper] at not_below
      cases not_below
    · cases found'.symm.trans (grows.directory found)
    · exact clear before within proper content found

end Files

end Tariff
