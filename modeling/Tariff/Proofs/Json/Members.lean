import Tariff.Proofs.Json.Records
import Tariff.Proofs.Json.WrittenValues
import Tariff.Proofs.SortedMap

/-!
# Members of objects

The members of an object in the order in which they stand in its text, those of one name all there.
An object or a map can be read from a text exactly if its members can, and holds the last of those
of one name.  A record is read from the same members: each of them is taken into its field, of which
no two may belong to one.
-/

namespace Tariff.Json

variable {φ σ : Type} {text : String}

/-- The members of the object that a text holds, in the order in which they stand in it. -/
def memberList (text : String) : Except Fault (List (String × Json)) :=
  List.reverse <$> Reader.membersBackwards.run text

namespace Reader

variable {cs rest : List Char}

/-- Nothing is read where every value is refused. -/
theorem scalar_none_ne_ok {α : Type} {a : α} :
  scalar (fun _ => none) cs ≠ .ok (a, rest)
  := by
  intro read
  have refused := toOption_scalar_none (α := α) cs
  rw [read] at refused
  cases refused

/-- An object is read from behind its bracket. -/
theorem value_eq_object_iff (depth : Nat) {members : List (String × Json)} :
  value (depth + 1) cs = .ok (.object members, rest) ↔
    ∃ mid, dropBlanks cs = '\x7b' :: mid ∧
      parts '\x7d' (objectMember .wanted depth) [] mid = .ok (members, rest)
  := by
  constructor
  · intro read
    obtain ⟨d, mid, depth_eq, front, read_members⟩ := of_value_object read
    cases depth_eq
    exact ⟨mid, front, read_members⟩
  · rintro ⟨mid, front, read_members⟩
    rw [value, valueWith_eq, front]
    exact map_eq_ok.mpr ⟨members, read_members, rfl⟩

/-- A map is read from behind its bracket. -/
theorem members_eq_ok_iff {map : SortedMap String Json} :
  members cs = .ok (map, rest) ↔
    ∃ mid, dropBlanks cs = '\x7b' :: mid ∧
      parts '\x7d' (fun map : SortedMap String Json =>
        (fun m => map.insert m.1 m.2) <$> member (nestingLimit - 1)) .empty mid = .ok (map, rest)
  := by
  have part_eq (map : SortedMap String Json) :
      ((fun m => map.insert m.1 m.2) <$> member (nestingLimit - 1)) = (do
        let name ← memberName unitCharacter
        let v ← value (nestingLimit - 1)
        pure (map.insert name v)) := by
    simp [member]
  simp only [part_eq]
  unfold members
  split
  case h_1 mid front =>
    rw [front]
    simp
  case h_2 no_object =>
    constructor
    · intro read
      exact absurd read scalar_none_ne_ok
    · rintro ⟨mid, front, -⟩
      exact absurd front (no_object mid)

/-- The members of an object are read from behind its bracket. -/
theorem membersBackwards_eq_ok_iff {all : List (String × Json)} :
  membersBackwards cs = .ok (all, rest) ↔
    ∃ mid, dropBlanks cs = '\x7b' :: mid ∧
      parts '\x7d' (fun members => (· :: members) <$> member (nestingLimit - 1)) [] mid =
        .ok (all, rest)
  := by
  unfold membersBackwards
  split
  case h_1 mid front =>
    rw [front]
    simp
  case h_2 no_object =>
    constructor
    · intro read
      exact absurd read scalar_none_ne_ok
    · rintro ⟨mid, front, -⟩
      exact absurd front (no_object mid)

end Reader

/-- The members of a text are read one after the other up to its end. -/
theorem memberList_eq_ok_iff {members : List (String × Json)} :
  memberList text = .ok members ↔
    ∃ mid rest, dropBlanks text.toList = '\x7b' :: mid ∧
      Reader.parts '\x7d'
        (fun members => (· :: members) <$> Reader.member (nestingLimit - 1)) [] mid =
          .ok (members.reverse, rest) ∧
      dropBlanks rest = []
  := by
  have reversed : memberList text = .ok members ↔
      Reader.membersBackwards.run text = .ok members.reverse := by
    change Except.map List.reverse _ = _ ↔ _
    rw [Except.map_eq_ok]
    constructor
    · rintro ⟨all, read, rfl⟩
      rw [List.reverse_reverse, read]
    · intro read
      exact ⟨members.reverse, read, members.reverse_reverse⟩
  rw [reversed, Reader.run_eq_ok]
  constructor
  · rintro ⟨rest, read, blank⟩
    obtain ⟨mid, front, read_all⟩ := Reader.membersBackwards_eq_ok_iff.mp read
    exact ⟨mid, rest, front, read_all, blank⟩
  · rintro ⟨mid, rest, front, read_all, blank⟩
    exact ⟨rest, Reader.membersBackwards_eq_ok_iff.mpr ⟨mid, front, read_all⟩, blank⟩

/-- A text holds a map exactly if it has members, the last of those with one name. -/
theorem run_members_eq_ok_iff {map : SortedMap String Json} :
  Reader.members.run text = .ok map ↔
    ∃ members, memberList text = .ok members ∧ SortedMap.ofList members = map
  := by
  rw [Reader.run_eq_ok]
  constructor
  · rintro ⟨rest, read, blank⟩
    obtain ⟨mid, front, read_map⟩ := Reader.members_eq_ok_iff.mp read
    obtain ⟨all, read_all, folded⟩ := Reader.parts_map_member_eq_ok.mp read_map
    refine ⟨all.reverse, memberList_eq_ok_iff.mpr ⟨mid, rest, front, ?_, blank⟩, folded⟩
    rw [List.reverse_reverse, read_all]
  · rintro ⟨members, read, rfl⟩
    obtain ⟨mid, rest, front, read_all, blank⟩ := memberList_eq_ok_iff.mp read
    refine ⟨rest, Reader.members_eq_ok_iff.mpr ⟨mid, front, ?_⟩, blank⟩
    apply Reader.parts_map_member_eq_ok.mpr ⟨_, read_all, _⟩
    rw [List.reverse_reverse]
    rfl

/-- A text holds an object exactly if it has members, the last of those with one name. -/
theorem ofText_eq_object_iff {object : List (String × Json)} :
  ofText text = .ok (.object object) ↔
    ∃ members, memberList text = .ok members ∧ (SortedMap.ofList members).entries = object
  := by
  rw [ofText, Reader.run_eq_ok]
  constructor
  · rintro ⟨rest, read, blank⟩
    obtain ⟨mid, front, read_object⟩ := (Reader.value_eq_object_iff (nestingLimit - 1)).mp read
    obtain ⟨all, read_all, folded⟩ := Reader.parts_objectMember_eq_ok.mp read_object
    refine ⟨all.reverse, memberList_eq_ok_iff.mpr ⟨mid, rest, front, ?_, blank⟩, ?_⟩
    · rw [List.reverse_reverse, read_all]
    · rw [SortedMap.ofList, SortedMap.entries_foldl_insert, ← folded]
      rfl
  · rintro ⟨members, read, rfl⟩
    obtain ⟨mid, rest, front, read_all, blank⟩ := memberList_eq_ok_iff.mp read
    refine ⟨rest, (Reader.value_eq_object_iff (nestingLimit - 1)).mpr ⟨mid, front, ?_⟩, blank⟩
    apply Reader.parts_objectMember_eq_ok.mpr ⟨_, read_all, _⟩
    rw [List.reverse_reverse, SortedMap.ofList, SortedMap.entries_foldl_insert]
    rfl

/-- A text holds a map exactly if it holds the object with the same members. -/
theorem run_members_eq_ok_iff_ofText {map : SortedMap String Json} :
  Reader.members.run text = .ok map ↔ ofText text = .ok (.object map.entries)
  := by
  rw [run_members_eq_ok_iff, ofText_eq_object_iff]
  constructor
  · rintro ⟨members, read, rfl⟩
    exact ⟨members, read, rfl⟩
  · rintro ⟨members, read, entries_eq⟩
    exact ⟨members, read, SortedMap.eq_of_entries entries_eq⟩

/-- A text with a value is not blank. -/
theorem isAllBlank_of_ofText {v : Json} (isText : ofText text = .ok v) :
  Text.isAllBlank text = false
  := by
  obtain ⟨rest, read, -⟩ := Reader.run_eq_ok.mp isText
  obtain ⟨c, mid, front, no_blank, -⟩ := Reader.of_value read
  have c_mem : c ∈ text.toList := by
    have suffix : dropBlanks text.toList <:+ text.toList := List.dropWhile_suffix _
    apply suffix.mem
    rw [front]
    apply List.mem_cons_self
  apply List.all_eq_false.mpr
  exact ⟨c, c_mem, by simp [no_blank]⟩

/-- Members whose values are read back unchanged are taken in one after the other. -/
theorem foldlM_reread? {depth : Nat} {members : List (String × Json)}
    (kept : ∀ m ∈ members, reread? depth m.2 = some m.2) (before : List (String × Json)) :
  members.foldlM (fun before m => (reread? depth m.2).map fun v => (m.1, v) :: before) before =
    some (members.reverse ++ before)
  := by
  induction members generalizing before with
  | nil => rfl
  | cons m members ih =>
    obtain ⟨m_kept, kept⟩ := List.forall_mem_cons.mp kept
    rw [List.foldlM_cons, m_kept, Option.map_some, Option.bind_eq_bind, Option.bind_some, ih kept,
      List.reverse_cons, List.append_assoc, List.singleton_append]

/-- A text of an object has the members of the object, if its values are read back unchanged. -/
theorem memberList_chars (layout : Layout) {members : List (String × Json)}
    (sorted : ∀ m ∈ members, m.2.Sorted)
    (kept : ∀ m ∈ members, reread? (nestingLimit - 1) m.2 = some m.2) :
  memberList (String.ofList (layout.chars 0 (.object members))) = .ok members
  := by
  apply memberList_eq_ok_iff.mpr
  rw [String.toList_ofList]
  cases members with
  | nil =>
    rw [layout.chars_object_nil]
    exact ⟨['\x7d'], [], rfl, rfl, rfl⟩
  | cons m members =>
    have read : ∀ e ∈ m :: members, ∀ rest, EndsNumeral rest →
        Reader.value (nestingLimit - 1) (layout.chars 1 e.2 ++ rest) =
          Reader.answer .malformed rest (reread? (nestingLimit - 1) e.2) :=
      fun e e_mem rest ends => Reader.value_chars layout (sorted e e_mem) 1 ends
    have read_members :=
      (Reader.readsParts_members layout 1 (fun before e => e :: before) read).parts_eq
        (layout.line_blank 1) (layout.line_blank 0) [] []
    rw [foldlM_reread? kept, List.append_nil] at read_members
    rw [layout.chars_object]
    exact ⟨_, [], rfl, read_members, rfl⟩

/-- The text of an object without blanks has the members of the object, if its values are read back
unchanged. -/
theorem memberList_compact {members : List (String × Json)}
    (sorted : ∀ m ∈ members, m.2.Sorted)
    (kept : ∀ m ∈ members, reread? (nestingLimit - 1) m.2 = some m.2) :
  memberList (Json.object members).compact = .ok members
  := memberList_chars .compact sorted kept

/-! ### Records -/

section Records

variable [DecidableEq φ] {shape : Shape φ σ} {fill : Filling φ σ}

/-- A record is read from an object by taking in its members in the order in which they stand, if all
required fields are among them. -/
theorem toOption_run_record_finish {members : List (String × Json)} (initial : σ)
    (fills : shape.Fills fill) (read : memberList text = .ok members) :
  ((Reader.record shape initial).run text).toOption =
    (members.foldlM (shape.take fill) (initial, [])).bind shape.finish
  := by
  obtain ⟨mid, rest, front, read_all, blank⟩ := memberList_eq_ok_iff.mp read
  refine Reader.toOption_run ?_ blank
  rw [Reader.record_of_object fills front read_all, List.reverse_reverse]
  cases (members.foldlM (shape.take fill) (initial, [])).bind shape.finish <;> rfl

/-- A record without required fields is read from an object by taking in its members in the order in
which they stand. -/
theorem toOption_run_record {members : List (String × Json)} (initial : σ)
    (fills : shape.Fills fill) (optional : ∀ f, shape.required f = false)
    (read : memberList text = .ok members) :
  ((Reader.record shape initial).run text).toOption =
    (members.foldlM (shape.take fill) (initial, [])).map (·.1)
  := by
  have finish_eq : shape.finish = fun state => some state.1 := by
    funext state
    simp [Shape.finish, optional]
  rw [toOption_run_record_finish initial fills read, finish_eq, Option.map_eq_bind]
  rfl

/-- A record without required fields is read from an array by filling in its items. -/
theorem toOption_run_record_of_array {items : List Json} (initial : σ)
    (fills : shape.Fills fill) (optional : ∀ f, shape.required f = false)
    (isText : ofText text = .ok (.array items)) :
  ((Reader.record shape initial).run text).toOption = fillAll fill shape.order items initial
  := by
  obtain ⟨rest, read, blank⟩ := Reader.run_eq_ok.mp isText
  obtain ⟨d, mid, all, depth_eq, front, rfl, read_items⟩ := Reader.of_value_array read
  obtain rfl : d = nestingLimit - 1 := by omega
  exact Reader.toOption_run (Reader.record_of_array initial fills optional front read_items) blank

/-- Members can be taken into a record if no two belong to one field, none to a field that has been
there before, and each field accepts its value. -/
theorem isSome_foldlM_take {accepts : φ → Json → Prop}
    (accepts_iff : ∀ f record v, (fill f record v).isSome = true ↔ accepts f v)
    (members : List (String × Json)) (record : σ) (seen : List φ) :
  (members.foldlM (shape.take fill) (record, seen)).isSome = true ↔
    (members.filterMap fun m => shape.named? m.1).Nodup ∧
      (∀ m ∈ members, ∀ f ∈ shape.named? m.1, f ∉ seen) ∧
      ∀ m ∈ members, ∀ f ∈ shape.named? m.1, accepts f m.2
  := by
  induction members generalizing record seen with
  | nil => simp
  | cons m members ih =>
    rw [List.foldlM_cons, List.forall_mem_cons, List.forall_mem_cons]
    cases named : shape.named? m.1 with
    | none =>
      have passed : shape.take fill (record, seen) m = some (record, seen) :=
        Shape.take_of_unnamed named
      have no_field : List.filterMap (fun m => shape.named? m.1) (m :: members) =
          List.filterMap (fun m => shape.named? m.1) members := List.filterMap_cons_none named
      rw [passed, no_field]
      simp [ih]
    | some f =>
      have field : List.filterMap (fun m => shape.named? m.1) (m :: members) =
          f :: List.filterMap (fun m => shape.named? m.1) members := List.filterMap_cons_some named
      rw [field, List.nodup_cons, List.mem_filterMap]
      simp only [Option.mem_def, Option.some.injEq, forall_eq']
      by_cases there : f ∈ seen
      · have refused : shape.take fill (record, seen) m = none := Shape.take_of_mem named there
        rw [refused]
        simp [there]
      · cases filled : fill f record m.2 with
        | none =>
          have refused : shape.take fill (record, seen) m = none := by
            rw [Shape.take_of_not_mem named there, filled, Option.map_none]
          have not_accepted : ¬ accepts f m.2 := by
            rw [← accepts_iff f record m.2, filled]
            exact Bool.false_ne_true
          rw [refused]
          simp [not_accepted]
        | some record' =>
          have taken : shape.take fill (record, seen) m = some (record', f :: seen) := by
            rw [Shape.take_of_not_mem named there, filled, Option.map_some]
          have accepted : accepts f m.2 := by
            rw [← accepts_iff f record m.2, filled]
            rfl
          have new_iff : (∀ m ∈ members, ∀ g ∈ shape.named? m.1, g ∉ f :: seen) ↔
              (¬ ∃ m ∈ members, shape.named? m.1 = some f) ∧
                ∀ m ∈ members, ∀ g ∈ shape.named? m.1, g ∉ seen := by
            simp only [List.mem_cons, not_or, not_exists, not_and]
            constructor
            · intro new
              exact ⟨fun m m_mem eq => (new m m_mem f eq).1 rfl,
                fun m m_mem g g_mem => (new m m_mem g g_mem).2⟩
            · rintro ⟨other, new⟩ m m_mem g g_mem
              exact ⟨fun eq => other m m_mem (eq ▸ g_mem), new m m_mem g g_mem⟩
          rw [taken, Option.bind_eq_bind, Option.bind_some, ih, new_iff]
          simp only [Option.mem_def] at *
          tauto

end Records

end Tariff.Json
