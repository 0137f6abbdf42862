/-
`CodeRanges.lean` -- sets of code points, kept as ranges in order.

A property of Unicode is given as a table of inclusive ranges, each of which begins after the
one before it has ended, and a table carries the proof that it is so. A code point is in the
table when one of the ranges holds it. A look-up stops at the first range that does not end
below the code point, so a table costs nothing for the characters in front of it; `covers_iff`
says that nothing is missed by stopping there, and so the look-up decides the membership.
-/
set_option autoImplicit false

namespace JvmStub.Text

/-- The ranges are nonempty and in order, and none begins below `low`. -/
def Ascending : Nat → List (Nat × Nat) → Prop
  | _, [] => True
  | low, (first, last) :: rest => low ≤ first ∧ first ≤ last ∧ Ascending (last + 1) rest

instance decidableAscending : (low : Nat) → (ranges : List (Nat × Nat)) →
    Decidable (Ascending low ranges)
  | _, [] => isTrue trivial
  | low, (first, last) :: rest =>
    have := decidableAscending (last + 1) rest
    inferInstanceAs (Decidable (low ≤ first ∧ first ≤ last ∧ Ascending (last + 1) rest))

theorem Ascending.le_of_mem {ranges : List (Nat × Nat)} {low : Nat} (h : Ascending low ranges)
    {range : Nat × Nat} (hr : range ∈ ranges) : low ≤ range.1 := by
  induction ranges generalizing low with
  | nil => cases hr
  | cons head rest ih =>
    obtain ⟨hlow, hlast, hrest⟩ := h
    rcases List.mem_cons.mp hr with rfl | hr
    · exact hlow
    · have := ih hrest hr
      omega

/-- Inclusive ranges of code points, in order. -/
structure CodeRanges where
  ranges : List (Nat × Nat)
  ascending : Ascending 0 ranges

/-- The first range that does not end below the code point holds it. -/
def covers : List (Nat × Nat) → Nat → Bool
  | [], _ => false
  | (first, last) :: rest, code => if code ≤ last then first ≤ code else covers rest code

/-- A code point is covered exactly when one of the ranges holds it. -/
theorem covers_iff {ranges : List (Nat × Nat)} {low : Nat} (h : Ascending low ranges)
    (code : Nat) :
    covers ranges code = true ↔ ∃ range ∈ ranges, range.1 ≤ code ∧ code ≤ range.2 := by
  induction ranges generalizing low with
  | nil => simp [covers]
  | cons head rest ih =>
    obtain ⟨first, last⟩ := head
    obtain ⟨hlow, hlast, hrest⟩ := h
    rw [covers]
    -- no range behind the first one begins at or below the end of the first
    split
    · rename_i hc
      simp only [decide_eq_true_eq]
      refine ⟨fun hf => ⟨(first, last), List.mem_cons_self, hf, hc⟩, ?_⟩
      rintro ⟨range, hr, hf, -⟩
      rcases List.mem_cons.mp hr with rfl | hr
      · exact hf
      · have := hrest.le_of_mem hr
        omega
    · rename_i hc
      rw [ih hrest]
      refine ⟨fun ⟨range, hr, hin⟩ => ⟨range, List.mem_cons_of_mem _ hr, hin⟩, ?_⟩
      rintro ⟨range, hr, hf, hl⟩
      rcases List.mem_cons.mp hr with rfl | hr
      · exact absurd hl hc
      · exact ⟨range, hr, hf, hl⟩

/-- A code point is in a table when one of its ranges holds it. -/
instance : Membership Nat CodeRanges where
  mem table code := ∃ range ∈ table.ranges, range.1 ≤ code ∧ code ≤ range.2

instance (code : Nat) (table : CodeRanges) : Decidable (code ∈ table) :=
  decidable_of_iff _ (covers_iff table.ascending code)

end JvmStub.Text
