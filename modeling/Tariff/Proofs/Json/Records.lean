import Tariff.Json.Record
import Tariff.Proofs.Json.Values

/-!
# Reading records

A record is read from an object like the object itself: its members are taken into the record in
the order in which they stand in the text.  From an array it is read if the array has no more items
than the record has fields.
-/

namespace Tariff.Json

/-- The record after a value has been taken into a field, unless the value is refused. -/
abbrev Filling (φ σ : Type) := φ → σ → Json → Option σ

/-- The fields of a record are read as values that are then taken into it. -/
def Shape.Fills {φ σ : Type} (shape : Shape φ σ) (fill : Filling φ σ) : Prop :=
  ∀ f record cs v mid, Reader.value (nestingLimit - 1) cs = .ok (v, mid) →
    shape.field f record cs = Reader.answer .mismatched mid (fill f record v)

/-- The record if all required fields are among those that have been read. -/
def Shape.finish {φ σ : Type} [DecidableEq φ] (shape : Shape φ σ) (state : σ × List φ) : Option σ :=
  if shape.order.all fun f => !shape.required f || f ∈ state.2 then some state.1 else none

/-- A member of an object is taken into a record, unless its field has been there before. -/
def Shape.take {φ σ : Type} [DecidableEq φ] (shape : Shape φ σ) (fill : Filling φ σ)
    (state : σ × List φ) (entry : String × Json) : Option (σ × List φ) :=
  match shape.named? entry.1 with
  | none => some state
  | some f =>
    if f ∈ state.2 then none else (fill f state.1 entry.2).map fun record => (record, f :: state.2)

/-- Values are taken into the fields of a record in order, if there are fields enough. -/
def fillAll {φ σ : Type} (fill : Filling φ σ) : List φ → List Json → σ → Option σ
  | _, [], record => some record
  | [], _ :: _, _ => none
  | f :: fields, v :: values, record => (fill f record v).bind (fillAll fill fields values)

section Taking

variable {φ σ : Type} [DecidableEq φ] {shape : Shape φ σ} {fill : Filling φ σ}
  {state : σ × List φ} {m : String × Json} {f : φ}

/-- A member without a field is passed over. -/
theorem Shape.take_of_unnamed (unnamed : shape.named? m.1 = none) :
  shape.take fill state m = some state
  := by
  rw [take, unnamed]

/-- A member whose field has been there before is refused. -/
theorem Shape.take_of_mem (named : shape.named? m.1 = some f) (there : f ∈ state.2) :
  shape.take fill state m = none
  := by
  rw [take, named]
  exact if_pos there

/-- A member whose field has not been there before is taken into it. -/
theorem Shape.take_of_not_mem (named : shape.named? m.1 = some f) (new : f ∉ state.2) :
  shape.take fill state m = (fill f state.1 m.2).map fun record => (record, f :: state.2)
  := by
  rw [take, named]
  exact if_neg new

end Taking

namespace Reader

variable {α σ τ φ : Type} {close : Char} {count : Nat} {cs rest : List Char}

/-- Reads an object into its members, the last one first. -/
def membersBackwards : Reader (List (String × Json)) := fun cs =>
  match dropBlanks cs with
  | '\x7b' :: rest =>
    parts '\x7d' (fun members => (· :: members) <$> member (nestingLimit - 1)) [] rest
  | rest => scalar (fun _ => none) rest

/-! ### Parts taken in one after the other -/

section Folding

variable {item : Reader α} {step : τ → α → Option τ} {part : τ → Reader τ}

/-- Further parts are taken in one after the other, in the order in which they stand. -/
theorem moreParts_eq_foldlM {items all : List α}
    (part_eq : ∀ t cs a mid, item cs = .ok (a, mid) → part t cs = answer .mismatched mid (step t a))
    (read : moreParts close (fun items => (· :: items) <$> item) count items cs = .ok (all, rest)) :
  ∃ more : List α, all = more.reverse ++ items ∧ ∀ t,
    moreParts close part count t cs = answer .mismatched rest (more.foldlM step t)
  := by
  induction count generalizing items cs with
  | zero => cases read
  | succ count ih =>
    simp only [moreParts] at read ⊢
    split at read
    case h_1 => cases read
    case h_2 c mid front =>
      split at read
      case isTrue closed =>
        cases read
        refine ⟨[], rfl, fun t => ?_⟩
        rw [if_pos closed]
        rfl
      case isFalse not_closed =>
        split at read
        case isTrue comma =>
          obtain ⟨_, next, read_item, read_more⟩ := bind_eq_ok.mp read
          obtain ⟨a, read_a, rfl⟩ := map_eq_ok.mp read_item
          obtain ⟨more, rfl, more_eq⟩ := ih read_more
          refine ⟨a :: more, by simp, fun t => ?_⟩
          rw [if_neg not_closed, if_pos comma, List.foldlM_cons]
          have part_read := part_eq t mid a next read_a
          cases stepped : step t a with
          | none =>
            rw [stepped] at part_read
            apply bind_of_error part_read
          | some t =>
            rw [stepped] at part_read
            rw [bind_of_ok part_read]
            apply more_eq t
        case isFalse => cases read

/-- The parts of a container are taken in one after the other, in the order in which they stand. -/
theorem parts_eq_foldlM {all : List α}
    (part_eq : ∀ t cs a mid, item cs = .ok (a, mid) → part t cs = answer .mismatched mid (step t a))
    (read : parts close (fun items => (· :: items) <$> item) [] cs = .ok (all, rest)) (t : τ) :
  parts close part t cs = answer .mismatched rest (all.reverse.foldlM step t)
  := by
  unfold parts at read ⊢
  split at read
  case h_1 => cases read
  case h_2 c mid front =>
    split at read
    case isTrue closed =>
      cases read
      rw [if_pos closed]
      rfl
    case isFalse not_closed =>
      obtain ⟨_, next, read_item, read_more⟩ := bind_eq_ok.mp read
      obtain ⟨a, read_a, rfl⟩ := map_eq_ok.mp read_item
      obtain ⟨more, rfl, more_eq⟩ := moreParts_eq_foldlM part_eq read_more
      rw [if_neg not_closed, List.reverse_append, List.reverse_reverse, List.reverse_singleton,
        List.singleton_append, List.foldlM_cons]
      have part_read := part_eq t _ a next read_a
      cases stepped : step t a with
      | none =>
        rw [stepped] at part_read
        apply bind_of_error part_read
      | some t =>
        rw [stepped] at part_read
        rw [bind_of_ok part_read]
        apply more_eq t

end Folding

/-! ### Objects -/

/-- Members are read alike with more text behind that does not go on with their values. -/
theorem follows_member {settled : Prop} {n depth : Nat} {tail : List Char}
    (ends : settled → EndsNumeral tail) :
  Follows settled n tail (Same True) (member depth) (member depth)
  := by
  apply (follows_memberName ((leavesFollow_wanted ends).string _)).bind
  intro name name' same_name
  apply (follows_valueWith (leavesFollow_wanted ends) (.inl (Nat.le_refl _))).bind
  intro value value' same_value
  apply Follows.pure
  intro _
  rw [same_name trivial, same_value trivial]

/-- What members are made into one after the other is made of the list of them. -/
theorem parts_map_member_eq_ok {depth : Nat} {f : τ → String × Json → τ} {t t' : τ} :
  parts '\x7d' (fun t => f t <$> member depth) t cs = .ok (t', rest) ↔
    ∃ all, parts '\x7d' (fun members => (· :: members) <$> member depth) [] cs = .ok (all, rest) ∧
      all.reverse.foldl f t = t'
  := by
  have taken {all : List (String × Json)}
      (read : parts '\x7d' (fun members => (· :: members) <$> member depth) [] cs =
        .ok (all, rest)) :
      parts '\x7d' (fun t => f t <$> member depth) t cs = .ok (all.reverse.foldl f t, rest) := by
    have part_eq : ∀ t cs m mid, member depth cs = .ok (m, mid) →
        (f t <$> member depth) cs = answer .mismatched mid (some (f t m)) :=
      fun t cs m mid read_m => map_eq_ok.mpr ⟨m, read_m, rfl⟩
    have folded : all.reverse.foldlM (fun t m => some (f t m)) t = some (all.reverse.foldl f t) :=
      List.foldlM_pure
    rw [parts_eq_foldlM part_eq read t, folded]
    rfl
  constructor
  · intro read
    have follows : Follows True cs.length [] (fun _ _ => True)
        (parts '\x7d' (fun t => f t <$> member depth) t)
        (parts '\x7d' (fun members => (· :: members) <$> member depth) []) := by
      apply follows_parts
      · intro t members _
        apply (follows_member False.elim).map
        intro _ _ _
        trivial
      · trivial
    obtain ⟨-, all, read_all, -⟩ := follows cs t' rest (Nat.le_refl _) read
    rw [List.append_nil, List.append_nil] at read_all
    replace read_all := read_all fun _ => trivial
    refine ⟨all, read_all, ?_⟩
    rw [taken read_all] at read
    cases read
    rfl
  · rintro ⟨all, read_all, rfl⟩
    apply taken read_all

/-- The members of an object are read one after the other and inserted in this order. -/
theorem parts_objectMember_eq_ok {depth : Nat} {members : List (String × Json)} :
  parts '\x7d' (objectMember .wanted depth) [] cs = .ok (members, rest) ↔
    ∃ all, parts '\x7d' (fun members => (· :: members) <$> member depth) [] cs = .ok (all, rest) ∧
      all.reverse.foldl (fun members m => Assoc.insert m.1 m.2 members) [] = members
  := by
  rw [funext (objectMember_eq depth)]
  apply parts_map_member_eq_ok

section Objects

variable [DecidableEq φ] {shape : Shape φ σ} {fill : Filling φ σ}

/-- A member of a record's object form is read like any member and then taken into the record. -/
theorem recordMember_eq_take (fills : shape.Fills fill) (state : σ × List φ) {m : String × Json}
    (read : member (nestingLimit - 1) cs = .ok (m, rest)) :
  recordMember shape state cs = answer .mismatched rest (shape.take fill state m)
  := by
  obtain ⟨name, behind_name, read_name, read_rest⟩ := bind_eq_ok.mp read
  obtain ⟨v, behind, read_v, pure_eq⟩ := bind_eq_ok.mp read_rest
  cases pure_eq
  obtain ⟨_, cs₁, read_quote, read_name⟩ := bind_eq_ok.mp read_name
  obtain ⟨_, cs₂, read_name, read_colon⟩ := bind_eq_ok.mp read_name
  obtain ⟨_, cs₃, read_colon, pure_eq⟩ := bind_eq_ok.mp read_colon
  cases pure_eq
  obtain ⟨record, seen⟩ := state
  unfold recordMember Shape.take
  dsimp only
  rw [bind_of_ok read_quote, bind_of_ok read_name]
  cases named : shape.named? name with
  | none =>
    dsimp only
    rw [bind_of_ok read_colon, bind_of_ok (skip_of_value read_v)]
    rfl
  | some f =>
    dsimp only
    split
    case isTrue => rfl
    case isFalse =>
      have filled := fills f record behind_name v rest read_v
      cases filled_eq : fill f record v with
      | none =>
        rw [filled_eq] at filled
        rw [bind_of_ok read_colon, bind_of_error filled]
        rfl
      | some record =>
        rw [filled_eq] at filled
        rw [bind_of_ok read_colon, bind_of_ok filled]
        rfl

/-- A record is read from an object by taking its members into it. -/
theorem record_of_object {initial : σ} {all : List (String × Json)} {mid : List Char}
    (fills : shape.Fills fill) (front : dropBlanks cs = '\x7b' :: mid)
    (read : parts '\x7d' (fun members => (· :: members) <$> member (nestingLimit - 1)) [] mid =
      .ok (all, rest)) :
  record shape initial cs =
    answer .mismatched rest ((all.reverse.foldlM (shape.take fill) (initial, [])).bind shape.finish)
  := by
  have takes : ∀ state cs m mid, member (nestingLimit - 1) cs = .ok (m, mid) →
      recordMember shape state cs = answer .mismatched mid (shape.take fill state m) := by
    intro state cs m mid read_m
    apply recordMember_eq_take fills state read_m
  have read_record := parts_eq_foldlM takes read (initial, [])
  unfold record
  simp only [front]
  cases folded : all.reverse.foldlM (shape.take fill) (initial, []) with
  | none =>
    rw [folded] at read_record
    apply bind_of_error read_record
  | some state =>
    rw [folded] at read_record
    rw [bind_of_ok read_record, Option.bind_some, Shape.finish]
    split <;> rfl

end Objects

/-! ### Other values -/

/-- No record is read from a value that is no container. -/
theorem toOption_record_of_scalar [DecidableEq φ] (shape : Shape φ σ) (initial : σ) {c : Char}
    {mid : List Char} (front : dropBlanks cs = c :: mid) (no_array : c ≠ '[')
    (no_object : c ≠ '\x7b') :
  (record shape initial cs).toOption = none
  := by
  have record_eq : record shape initial cs = scalar (fun _ => none) (c :: mid) := by
    simp [record, front, no_array, no_object]
  rw [record_eq]
  apply toOption_scalar_none _

/-! ### Arrays -/

section Arrays

variable {shape : Shape φ σ} {fill : Filling φ σ}

/-- Behind its first item, an array is read into a record if there are fields for its items. -/
theorem furtherFields_eq_fillAll {items all : List Json} (fills : shape.Fills fill)
    (optional : ∀ f, shape.required f = false)
    (read : moreParts ']' (fun items => (· :: items) <$> value (nestingLimit - 1)) count items cs =
      .ok (all, rest)) :
  ∃ more : List Json, all = more.reverse ++ items ∧ ∀ fields record,
    (furtherFields shape fields record cs).toOption =
      (fillAll fill fields more record).map fun record => (record, rest)
  := by
  induction count generalizing items cs with
  | zero => cases read
  | succ count ih =>
    simp only [moreParts] at read
    split at read
    case h_1 => cases read
    case h_2 c mid front =>
      split at read
      case isTrue closed =>
        cases read
        refine ⟨[], rfl, fun fields record => ?_⟩
        subst closed
        cases fields with
        | nil => simp [furtherFields, front, fillAll, Except.toOption]
        | cons f fields => simp [furtherFields, front, fillAll, optional, Except.toOption]
      case isFalse not_closed =>
        split at read
        case isTrue comma =>
          obtain ⟨_, next, read_item, read_more⟩ := bind_eq_ok.mp read
          obtain ⟨v, read_v, rfl⟩ := map_eq_ok.mp read_item
          obtain ⟨more, rfl, more_eq⟩ := ih read_more
          refine ⟨v :: more, by simp, fun fields record => ?_⟩
          subst comma
          cases fields with
          | nil => simp [furtherFields, front, fillAll, Except.toOption]
          | cons f fields =>
            have filled := fills f record mid v next read_v
            simp only [furtherFields, front, fillAll]
            cases filled_eq : fill f record v with
            | none =>
              rw [filled_eq] at filled
              rw [bind_of_error filled]
              rfl
            | some record =>
              rw [filled_eq] at filled
              rw [bind_of_ok filled]
              apply more_eq fields record
        case isFalse => cases read

/-- A record is read from an array if there are fields for its items. -/
theorem record_of_array [DecidableEq φ] (initial : σ) {all : List Json} {mid : List Char}
    (fills : shape.Fills fill) (optional : ∀ f, shape.required f = false)
    (front : dropBlanks cs = '[' :: mid)
    (read : parts ']' (fun items => (· :: items) <$> value (nestingLimit - 1)) [] mid =
      .ok (all, rest)) :
  (record shape initial cs).toOption =
    (fillAll fill shape.order all.reverse initial).map fun record => (record, rest)
  := by
  have record_eq : record shape initial cs = arrayFields shape initial mid := by
    unfold record
    simp only [front]
  rw [record_eq]
  unfold parts at read
  cases front' : dropBlanks mid with
  | nil =>
    rw [front'] at read
    cases read
  | cons c mid' =>
    rw [front'] at read
    dsimp only at read
    have again := dropBlanks_cons (isBlank_of_dropBlanks front') mid'
    split at read
    case isTrue closed =>
      cases read
      subst closed
      cases fields : shape.order with
      | nil => simp [arrayFields, fields, front', furtherFields, again, fillAll, Except.toOption]
      | cons f fields' => simp [arrayFields, fields, front', fillAll, optional, Except.toOption]
    case isFalse not_closed =>
      obtain ⟨_, next, read_item, read_more⟩ := bind_eq_ok.mp read
      obtain ⟨v, read_v, rfl⟩ := map_eq_ok.mp read_item
      obtain ⟨more, rfl, more_eq⟩ := furtherFields_eq_fillAll fills optional read_more
      rw [List.reverse_append, List.reverse_reverse, List.reverse_singleton, List.singleton_append]
      cases fields : shape.order with
      | nil => simp [arrayFields, fields, front', furtherFields, again, not_closed, fillAll,
          Except.toOption]
      | cons f fields' =>
        have filled := fills f initial (c :: mid') v next read_v
        have array_eq : arrayFields shape initial mid =
            (shape.field f initial >>= furtherFields shape fields') (c :: mid') := by
          simp [arrayFields, fields, front', not_closed]
        rw [array_eq, fillAll]
        cases filled_eq : fill f initial v with
        | none =>
          rw [filled_eq] at filled
          rw [bind_of_error filled]
          rfl
        | some record =>
          rw [filled_eq] at filled
          rw [bind_of_ok filled]
          apply more_eq fields' record

end Arrays

end Reader

end Tariff.Json
