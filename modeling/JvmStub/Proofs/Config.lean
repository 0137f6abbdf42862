/-
`Config.lean` -- class names in their internal form.

A name that holds neither dots nor separating characters and has no empty segment
is in its internal form already, and is taken as it is. How long it is does not
matter.
-/
import JvmStub.Config
import Mathlib.Data.List.TakeWhile

set_option autoImplicit false

namespace JvmStub

variable {cs : List Char}

theorem isSeparator_of_isBlank {c : Char} (h : Text.isBlank c = true) : isSeparator c = true := by
  simp [isSeparator, h]

/-- Text without white space has none at its ends. -/
theorem trim_of_not_blank (h : ∀ c ∈ cs, Text.isBlank c = false) : Text.trim cs = cs := by
  have hdrop : ∀ ds : List Char, (∀ c ∈ ds, Text.isBlank c = false) →
      ds.dropWhile Text.isBlank = ds := fun ds hds =>
    List.dropWhile_eq_self_iff.mpr fun hlen => by simp [hds _ (List.getElem_mem hlen)]
  rw [Text.trim, hdrop cs h, hdrop cs.reverse (by simpa using h), List.reverse_reverse]

/-- A name in its internal form is taken as it is. -/
theorem internalClassName_of_internal (hne : cs ≠ []) (hsegments : ∀ s ∈ segments cs, s ≠ [])
    (hcs : ∀ c ∈ cs, c ≠ '.' ∧ isSeparator c = false) :
    internalClassName (String.ofList cs) = .ok (String.ofList cs) := by
  have htrim : Text.trim cs = cs := by
    refine trim_of_not_blank fun c hc => ?_
    cases hblank : Text.isBlank c with
    | false => rfl
    | true =>
      have hseparator := isSeparator_of_isBlank hblank
      rw [(hcs c hc).2] at hseparator
      cases hseparator
  have hdots : cs.map (fun c => if c = '.' then '/' else c) = cs := by
    have hid : ∀ c ∈ cs, (if c = '.' then '/' else c) = id c := fun c hc => if_neg (hcs c hc).1
    rw [List.map_congr_left hid, List.map_id]
  have hempty : (segments cs).any List.isEmpty = false := by
    simpa using hsegments
  have hnone : cs.find? isSeparator = none :=
    List.find?_eq_none.mpr fun c hc => by simp [(hcs c hc).2]
  simp [internalClassName, htrim, hdots, hempty, hnone, hne]

/-- A name without a slash is one segment. -/
theorem segments_of_no_slash (h : ∀ c ∈ cs, c ≠ '/') : segments cs = [cs] := by
  induction cs with
  | nil => rfl
  | cons c cs ih =>
    obtain ⟨hc, hcs⟩ := List.forall_mem_cons.mp h
    rw [segments] at ih
    rw [segments, List.foldr_cons, ih hcs, consSegment, if_neg hc]

end JvmStub
