import Tariff.Proofs.Json.Members

/-!
# Single fields

A record is read from its fields one after the other, in object form or in array form.  Where a field
takes every value and does not matter to the other fields, two texts that differ in the value of that
field alone give the same record but for the field, or none of them gives a record.
-/

namespace Tariff.Json

variable {φ σ : Type} {fill : Filling φ σ} {set : Json → σ → σ} {f : φ}

/-- A field takes every value, and the other fields take theirs alike before and behind it. -/
structure Filling.Sets (fill : Filling φ σ) (f : φ) (set : Json → σ → σ) : Prop where
  fills : ∀ record v, fill f record v = some (set v record)
  commutes : ∀ g record v w, g ≠ f → fill g (set w record) v = (fill g record v).map (set w)

namespace Filling.Sets

/-! ### Object form -/

section Objects

variable [DecidableEq φ] {shape : Shape φ σ} (sets : fill.Sets f set)

include sets

/-- The members behind that of a field are taken in as if it had not been there. -/
theorem foldlM_take (members : List (String × Json)) (record : σ) {seen : List φ} (w : Json)
    (there : f ∈ seen) :
  members.foldlM (shape.take fill) (set w record, seen) =
    (members.foldlM (shape.take fill) (record, seen)).map fun state => (set w state.1, state.2)
  := by
  induction members generalizing record seen with
  | nil => rfl
  | cons m members ih =>
    rw [List.foldlM_cons, List.foldlM_cons]
    cases named : shape.named? m.1 with
    | none =>
      rw [Shape.take_of_unnamed named, Shape.take_of_unnamed named]
      exact ih record there
    | some g =>
      by_cases g_there : g ∈ seen
      · rw [Shape.take_of_mem named g_there, Shape.take_of_mem named g_there]
        rfl
      · have g_ne : g ≠ f := fun eq => g_there (eq ▸ there)
        rw [Shape.take_of_not_mem named g_there, Shape.take_of_not_mem named g_there,
          sets.commutes g record m.2 w g_ne]
        cases fill g record m.2 with
        | none => rfl
        | some record' => exact ih record' (List.mem_cons_of_mem _ there)

/-- The record of an object is that of the other members with the value put into the field. -/
theorem exists_foldlM_take_eq_map {name : String} (named : shape.named? name = some f)
    (before behind : List (String × Json)) (initial : σ) :
  ∃ record? : Option σ, ∀ v,
    ((before ++ (name, v) :: behind).foldlM (shape.take fill) (initial, [])).map (·.1) =
      record?.map (set v)
  := by
  cases first : before.foldlM (shape.take fill) (initial, []) with
  | none =>
    refine ⟨none, fun v => ?_⟩
    rw [List.foldlM_append, first]
    rfl
  | some state =>
    obtain ⟨record, seen⟩ := state
    by_cases there : f ∈ seen
    · refine ⟨none, fun v => ?_⟩
      have refused : shape.take fill (record, seen) (name, v) = none :=
        Shape.take_of_mem named there
      rw [List.foldlM_append, first, Option.bind_eq_bind, Option.bind_some, List.foldlM_cons, refused]
      rfl
    · refine ⟨(behind.foldlM (shape.take fill) (record, f :: seen)).map (·.1), fun v => ?_⟩
      have taken : shape.take fill (record, seen) (name, v) = some (set v record, f :: seen) := by
        rw [Shape.take_of_not_mem named there, sets.fills, Option.map_some]
      rw [List.foldlM_append, first, Option.bind_eq_bind, Option.bind_some, List.foldlM_cons, taken,
        Option.bind_eq_bind, Option.bind_some, sets.foldlM_take behind record v List.mem_cons_self,
        Option.map_map, Option.map_map]
      rfl

end Objects

/-! ### Array form -/

variable (sets : fill.Sets f set)

include sets

/-- The items behind that of a field are taken in as if it had not been there. -/
theorem fillAll_behind {fields : List φ} (new : f ∉ fields) (items : List Json) (record : σ) (w : Json) :
  fillAll fill fields items (set w record) = (fillAll fill fields items record).map (set w)
  := by
  induction items generalizing fields record with
  | nil => simp [fillAll]
  | cons v items ih =>
    cases fields with
    | nil => rfl
    | cons g fields =>
      rw [List.mem_cons, not_or] at new
      obtain ⟨f_ne, new⟩ := new
      rw [fillAll, fillAll, sets.commutes g record v w (Ne.symm f_ne)]
      cases fill g record v with
      | none => rfl
      | some record' => exact ih new record'

/-- The record of an array is that of the other items with the value put into the field. -/
theorem exists_fillAll_eq_map {fields : List φ} (distinct : fields.Nodup) {before : List Json}
    (placed : fields[before.length]? = some f) (behind : List Json) (initial : σ) :
  ∃ record? : Option σ, ∀ v,
    fillAll fill fields (before ++ v :: behind) initial = record?.map (set v)
  := by
  induction before generalizing fields initial with
  | nil =>
    cases fields with
    | nil => cases placed
    | cons g fields =>
      obtain rfl : g = f := by simpa using placed
      refine ⟨fillAll fill fields behind initial, fun v => ?_⟩
      rw [List.nil_append, fillAll, sets.fills, Option.bind_some,
        sets.fillAll_behind (List.nodup_cons.mp distinct).1]
  | cons w before ih =>
    cases fields with
    | nil => cases placed
    | cons g fields =>
      cases filled : fill g initial w with
      | none =>
        refine ⟨none, fun v => ?_⟩
        rw [List.cons_append, fillAll, filled]
        rfl
      | some record =>
        obtain ⟨record?, record_eq⟩ := ih (List.nodup_cons.mp distinct).2 (by simpa using placed) record
        refine ⟨record?, fun v => ?_⟩
        rw [List.cons_append, fillAll, filled, Option.bind_some, record_eq]

end Filling.Sets

/-! ### Texts -/

/-- Two texts hold a record each, which differ in the value of one field and nothing else. -/
inductive Shape.DifferIn (shape : Shape φ σ) (f : φ) (v v' : Json) (text text' : String) : Prop
  | object (name : String) (before behind : List (String × Json))
      (named : shape.named? name = some f)
      (read : memberList text = .ok (before ++ (name, v) :: behind))
      (read' : memberList text' = .ok (before ++ (name, v') :: behind))
  | array (before behind : List Json) (placed : shape.order[before.length]? = some f)
      (read : ofText text = .ok (.array (before ++ v :: behind)))
      (read' : ofText text' = .ok (.array (before ++ v' :: behind)))

variable {shape : Shape φ σ} {v v' : Json} {text text' : String}

/-- Texts with records are not blank. -/
theorem Shape.DifferIn.isAllBlank (differ : shape.DifferIn f v v' text text') :
  Text.isAllBlank text = false ∧ Text.isAllBlank text' = false
  := by
  cases differ with
  | object name before behind named read read' =>
    exact ⟨isAllBlank_of_ofText (ofText_eq_object_iff.mpr ⟨_, read, rfl⟩),
      isAllBlank_of_ofText (ofText_eq_object_iff.mpr ⟨_, read', rfl⟩)⟩
  | array before behind placed read read' =>
    exact ⟨isAllBlank_of_ofText read, isAllBlank_of_ofText read'⟩

/-- Texts that differ in the value of one field give the same record but for that field, or no
record. -/
theorem Shape.DifferIn.exists_record [DecidableEq φ]
    (differ : shape.DifferIn f v v' text text') (sets : fill.Sets f set) (fills : shape.Fills fill)
    (optional : ∀ f, shape.required f = false) (distinct : shape.order.Nodup) (initial : σ) :
  ∃ record? : Option σ,
    ((Reader.record shape initial).run text).toOption = record?.map (set v) ∧
      ((Reader.record shape initial).run text').toOption = record?.map (set v')
  := by
  cases differ with
  | object name before behind named read read' =>
    obtain ⟨record?, record_eq⟩ := sets.exists_foldlM_take_eq_map named before behind initial
    refine ⟨record?, ?_, ?_⟩
    · rw [toOption_run_record initial fills optional read, record_eq]
    · rw [toOption_run_record initial fills optional read', record_eq]
  | array before behind placed read read' =>
    obtain ⟨record?, record_eq⟩ := sets.exists_fillAll_eq_map distinct placed behind initial
    refine ⟨record?, ?_, ?_⟩
    · rw [toOption_run_record_of_array initial fills optional read, record_eq]
    · rw [toOption_run_record_of_array initial fills optional read', record_eq]

end Tariff.Json
