import Mathlib.Data.List.Nodup
import Mathlib.Data.List.Pairwise
import Mathlib.Data.List.Perm.Basic
import Tariff.Proofs.Json.Members
import Tariff.Usage.Entry

/-!
# The forms of price details

Price details are recorded in an entry as a JSON value or as a text that holds one.  An object
gives the same details in both forms, whatever the order of its members, and any other value none,
except that an array with no more items than there are fields gives details from a text.
-/

namespace Tariff.UsageDetail

open Json

/-! ### Members in any order -/

/-- The field that a member of an object belongs to. -/
def fieldOf (m : String × Json) : Option Field :=
  Field.ofLabel? m.1

/-- The details with a member of an object taken in. -/
def take (detail : UsageDetail) (m : String × Json) : UsageDetail :=
  match fieldOf m with
  | none => detail
  | some f => detail.set f m.2

/-- Details can be taken from members whose fields differ. -/
theorem ofMembersFrom?_eq (detail : UsageDetail) (seen : List Field)
    (members : List (String × Json)) :
  ofMembersFrom? detail seen members =
    if (members.filterMap fieldOf).Nodup ∧ ∀ f ∈ members.filterMap fieldOf, f ∉ seen then
      some (members.foldl take detail)
    else none
  := by
  induction members generalizing detail seen with
  | nil => simp [ofMembersFrom?]
  | cons m members ih =>
    obtain ⟨name, v⟩ := m
    cases named : Field.ofLabel? name with
    | none =>
      have no_field : fieldOf (name, v) = none := named
      rw [List.filterMap_cons_none no_field, List.foldl_cons]
      simp only [ofMembersFrom?, named, take, no_field]
      apply ih detail seen
    | some f =>
      have field : fieldOf (name, v) = some f := named
      rw [List.filterMap_cons_some field, List.foldl_cons]
      simp only [ofMembersFrom?, named, take, field]
      by_cases there : f ∈ seen
      · simp [there]
      · rw [if_neg there, ih]
        congr 1
        simp only [List.nodup_cons, List.mem_cons, forall_eq_or_imp, not_or, eq_iff_iff]
        constructor
        · rintro ⟨distinct, new⟩
          have f_new : f ∉ members.filterMap fieldOf := fun f_mem => (new f f_mem).1 rfl
          exact ⟨⟨f_new, distinct⟩, there, fun g g_mem => (new g g_mem).2⟩
        · rintro ⟨⟨f_new, distinct⟩, -, new⟩
          exact ⟨distinct, fun g g_mem => ⟨fun eq => f_new (eq ▸ g_mem), new g g_mem⟩⟩

/-- Two different fields can be set in any order. -/
theorem set_comm (detail : UsageDetail) {f g : Field} (h : f ≠ g) (v w : Json) :
  (detail.set f v).set g w = (detail.set g w).set f v
  := by
  cases f <;> cases g <;> first | rfl | exact absurd rfl h

/-- Members of two different fields can be taken in in any order. -/
theorem take_comm (detail : UsageDetail) {m m' : String × Json}
    (differ : ∀ f ∈ fieldOf m, ∀ g ∈ fieldOf m', f ≠ g) :
  take (take detail m) m' = take (take detail m') m
  := by
  unfold take
  cases field : fieldOf m with
  | none => rfl
  | some f =>
    cases field' : fieldOf m' with
    | none => rfl
    | some g => apply set_comm detail (differ f field g field') m.2 m'.2

/-- Details do not depend on the order of the members they are taken from. -/
theorem ofMembers?_perm {members members' : List (String × Json)}
    (perm : members.Perm members') :
  ofMembers? members = ofMembers? members'
  := by
  have fields_perm := perm.filterMap fieldOf
  simp only [ofMembers?, ofMembersFrom?_eq, List.not_mem_nil, not_false_eq_true, implies_true,
    and_true]
  by_cases distinct : (members.filterMap fieldOf).Nodup
  · rw [if_pos distinct, if_pos (fields_perm.nodup_iff.mp distinct)]
    congr 1
    apply perm.foldl_eq'
    intro m m_mem m' m'_mem detail
    have differ := List.pairwise_filterMap.mp distinct
    by_cases same : m = m'
    · rw [same]
    · apply take_comm
      have symm : Std.Symm fun m m' : String × Json =>
          ∀ f ∈ fieldOf m, ∀ g ∈ fieldOf m', f ≠ g :=
        ⟨fun _ _ h f f_mem g g_mem => (h g g_mem f f_mem).symm⟩
      apply differ.forall m_mem m'_mem same
  · rw [if_neg distinct, if_neg (fun h => distinct (fields_perm.nodup_iff.mpr h))]

/-! ### Details in a text -/

/-- A value is always taken into a field. -/
def fill : Filling Field UsageDetail :=
  fun f detail v => some (detail.set f v)

/-- Fields of details are read as values. -/
theorem fills_shape :
  shape.Fills fill
  := by
  intro f detail cs v mid read
  apply Reader.map_eq_ok.mpr ⟨v, read, rfl⟩

/-- Members are taken into details as they are into a record. -/
theorem ofMembersFrom?_eq_foldlM (detail : UsageDetail) (seen : List Field)
    (members : List (String × Json)) :
  ofMembersFrom? detail seen members =
    (members.foldlM (shape.take fill) (detail, seen)).map (·.1)
  := by
  induction members generalizing detail seen with
  | nil => rfl
  | cons m members ih =>
    obtain ⟨name, v⟩ := m
    rw [List.foldlM_cons, ofMembersFrom?]
    cases named : Field.ofLabel? name with
    | none =>
      have passed : shape.take fill (detail, seen) (name, v) = some (detail, seen) :=
        Shape.take_of_unnamed named
      rw [passed]
      apply ih detail seen
    | some f =>
      dsimp only
      by_cases there : f ∈ seen
      · have refused : shape.take fill (detail, seen) (name, v) = none :=
          Shape.take_of_mem named there
        rw [if_pos there, refused]
        rfl
      · have taken : shape.take fill (detail, seen) (name, v) =
            some (detail.set f v, f :: seen) :=
          Shape.take_of_not_mem named there
        rw [if_neg there, taken]
        apply ih _ _

/-- The members of an object have different names, as far as they can be told from its text. -/
def DistinctNames (text : String) : Prop :=
  ∀ members, Reader.membersBackwards.run text = .ok members → (members.map (·.1)).Nodup

/-- A text with an object holds the details that the object gives. -/
theorem toOption_run_of_object {text : String} {members : List (String × Json)}
    (isText : ofText text = .ok (.object members)) (distinct : DistinctNames text) :
  (reader.run text).toOption = ofMembers? members
  := by
  obtain ⟨all, read, rfl⟩ := ofText_eq_object_iff.mp isText
  have names_distinct : (all.map (·.1)).Nodup := by
    obtain ⟨backwards, read_backwards, rfl⟩ := Except.map_eq_ok.mp read
    rw [List.map_reverse, List.nodup_reverse]
    exact distinct backwards read_backwards
  rw [ofMembers?_perm (SortedMap.entries_ofList_perm (Assoc.pairwise_ne_of_nodup names_distinct)),
    reader, toOption_run_record empty fills_shape (fun _ => rfl) read, ofMembers?,
    ofMembersFrom?_eq_foldlM]

/-- Details can be filled in from no more values than there are fields. -/
theorem isSome_fillAll (fields : List Field) (values : List Json) (detail : UsageDetail) :
  (fillAll fill fields values detail).isSome = true ↔ values.length ≤ fields.length
  := by
  induction values generalizing fields detail with
  | nil => simp [fillAll]
  | cons v values ih =>
    cases fields with
    | nil => simp [fillAll]
    | cons f fields => simp [fillAll, fill, ih]

/-- A text with an array holds details if it has no more items than there are fields. -/
theorem isSome_run_of_array {text : String} {items : List Json}
    (isText : ofText text = .ok (.array items)) :
  (reader.run text).toOption.isSome = true ↔ items.length ≤ Field.all.length
  := by
  rw [reader, toOption_run_record_of_array empty fills_shape (fun _ => rfl) isText]
  apply isSome_fillAll _ _ _

/-- A text with a value that is no container holds no details. -/
theorem toOption_run_of_scalar {text : String} {v : Json} (isText : ofText text = .ok v)
    (no_container : Reader.isContainer v = false) :
  (reader.run text).toOption = none
  := by
  obtain ⟨rest, read, -⟩ := Reader.run_eq_ok.mp isText
  obtain ⟨c, mid, front, no_array, no_object⟩ := Reader.of_value_scalar read no_container
  have read_record := Reader.toOption_record_of_scalar shape empty front no_array no_object
  unfold reader Reader.run
  cases answer : Reader.record shape empty text.toList with
  | error fault => rfl
  | ok p =>
    rw [answer] at read_record
    cases read_record

end Tariff.UsageDetail
