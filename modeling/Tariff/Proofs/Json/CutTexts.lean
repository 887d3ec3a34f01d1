import Tariff.Proofs.Json.Records
import Tariff.Proofs.Json.WrittenValues

/-!
# Texts that are cut off

The closing bracket of an object ends its text, and what has been read up to it does not depend on what
stands behind.  Hence no object can be read from a text of an object that is cut off, wherever that is.
-/

namespace Tariff.Json.Reader

variable {cs rest : List Char} {map : SortedMap String Json}

/-- Members are read one after the other. -/
theorem members_eq_parts {mid : List Char} (front : dropBlanks cs = '\x7b' :: mid) :
  members cs = parts '\x7d'
    (fun map : SortedMap String Json =>
      (fun m => map.insert m.1 m.2) <$> member (nestingLimit - 1)) .empty mid
  := by
  unfold members
  simp only [front, member, map_eq_pure_bind, bind_assoc, pure_bind]

/-- An object is read as it is alone whatever stands behind it. -/
theorem members_append (read : members cs = .ok (map, rest)) (tail : List Char) :
  members (cs ++ tail) = .ok (map, rest ++ tail)
  := by
  have opened : ∃ mid, dropBlanks cs = '\x7b' :: mid := by
    unfold members at read
    split at read
    case h_1 mid front => exact ⟨mid, front⟩
    case h_2 =>
      have refused := toOption_scalar_none (α := SortedMap String Json) (dropBlanks cs)
      rw [read] at refused
      cases refused
  obtain ⟨mid, front⟩ := opened
  rw [members_eq_parts front] at read
  rw [members_eq_parts (dropBlanks_append front tail)]
  have follows : Follows True mid.length tail Eq
      (parts '\x7d' (fun map : SortedMap String Json =>
        (fun m => map.insert m.1 m.2) <$> member (nestingLimit - 1)) .empty)
      (parts '\x7d' (fun map : SortedMap String Json =>
        (fun m => map.insert m.1 m.2) <$> member (nestingLimit - 1)) .empty) := by
    apply follows_parts _ rfl
    rintro map _ rfl
    apply (follows_member False.elim).map
    intro m m' same
    rw [same trivial]
  obtain ⟨-, _, read', rfl⟩ := follows mid map rest (Nat.le_refl _) read
  exact read' fun _ => trivial

/-- No object can be read from a text of an object from which something is missing at the end. -/
theorem run_members_ne_ok_of_cut (layout : Layout) (level : Nat) {s : String} {more : List Char}
    (more_ne : more ≠ []) {written : SortedMap String Json}
    (sorted : ∀ e ∈ written.entries, e.2.Sorted)
    (cut : s.toList ++ more = layout.chars level (.object written.entries)) :
  members.run s ≠ .ok map
  := by
  intro read
  obtain ⟨rest, read, -⟩ := run_eq_ok.mp read
  have read_whole := members_append read more
  have whole := members_written layout level written sorted []
  rw [List.append_nil, ← cut, read_whole] at whole
  cases found : rereadMap? (nestingLimit - 1) written with
  | none =>
    rw [found] at whole
    cases whole
  | some map' =>
    rw [found] at whole
    have nothing_left : rest ++ more = [] := (Prod.mk.inj (Except.ok.inj whole)).2
    exact more_ne (List.append_eq_nil_iff.mp nothing_left).2

end Tariff.Json.Reader
