/-
`ClassNames.lean` -- class names in settings and in descriptors.

There are two notions of a class name that may be used. A setting trims the name, puts
slashes for dots and then looks at its segments and at its characters; a descriptor looks
at the characters around the slashes and at none beyond five. What is shown here is that
the first is the narrower: a name that a setting accepts is in a form that the setting
leaves alone, and a descriptor can carry it.

Both rest on what an accepted name is (`internalClassName_eq_ok`). The step between the two
notions is that splitting a name at a slash splits its segments there
(`segments_append_slash`), so that a slash at either end, or two in a row, leaves an empty
segment.
-/
import JvmStub.Proofs.Config
import JvmStub.Proofs.Descriptor.Spelling

set_option autoImplicit false

namespace JvmStub

/-! ## Segments -/

/-- There is always a first segment, which may be empty. -/
theorem segments_ne_nil (cs : List Char) : segments cs ≠ [] := by
  cases cs with
  | nil => exact List.cons_ne_nil [] []
  | cons c cs =>
    rw [segments, List.foldr_cons, ← segments]
    cases segments cs with
    | nil => exact List.cons_ne_nil [c] []
    | cons first others =>
      rw [consSegment]
      split <;> exact List.cons_ne_nil _ _

/-- A character goes in front of the first part, whatever parts follow. -/
theorem consSegment_append (c : Char) {parts : List (List Char)} (others : List (List Char))
    (h : parts ≠ []) : consSegment c (parts ++ others) = consSegment c parts ++ others := by
  obtain ⟨first, rest, rfl⟩ := List.exists_cons_of_ne_nil h
  simp only [List.cons_append, consSegment]
  split <;> rfl

/-- A slash parts the segments in front of it from those behind it. -/
theorem segments_append_slash (cs ds : List Char) :
    segments (cs ++ '/' :: ds) = segments cs ++ segments ds := by
  induction cs with
  | nil =>
    obtain ⟨first, others, hds⟩ := List.exists_cons_of_ne_nil (segments_ne_nil ds)
    rw [segments] at hds
    simp [segments, hds, consSegment]
  | cons c cs ih =>
    have hcons : ∀ es, segments (c :: es) = consSegment c (segments es) := fun es => rfl
    rw [List.cons_append, hcons, hcons, ih, consSegment_append c _ (segments_ne_nil cs)]

/-- Of no name at all there is one segment, and it is empty. -/
theorem ne_nil_of_segments {cs : List Char} (h : [] ∉ segments cs) : cs ≠ [] := by
  rintro rfl
  exact h List.mem_cons_self

/-! ## Names that are accepted -/

/-- The character that stands in the internal form of a name for one in the name. -/
def slashForDot (c : Char) : Char := if c = '.' then '/' else c

/-- The name with slashes for dots. -/
def slashed (name : String) : String := String.ofList (name.toList.map slashForDot)

/-- A name in its internal form: no segment of it is empty, and no character of it is a dot or
separates names elsewhere. -/
structure InternalName (name : String) : Prop where
  no_empty_segment : [] ∉ segments name.toList
  plain : ∀ c ∈ name.toList, c ≠ '.' ∧ isSeparator c = false

/-- No dot is left. -/
theorem slashForDot_ne_dot (c : Char) : slashForDot c ≠ '.' := by
  unfold slashForDot
  split
  · decide
  · assumption

/-- Where no dot is left, nothing changes any more. -/
theorem slashForDot_slashForDot (c : Char) : slashForDot (slashForDot c) = slashForDot c :=
  if_neg (slashForDot_ne_dot c)

/-- Neither a dot nor a slash is white space. -/
theorem isBlank_slashForDot (c : Char) : Text.isBlank (slashForDot c) = Text.isBlank c := by
  unfold slashForDot
  split
  · next hdot =>
    subst hdot
    decide
  · rfl

/-- Trimming may be done before or after, since neither a dot nor a slash is blank. -/
theorem trim_map_slashForDot (cs : List Char) :
    Text.trim (cs.map slashForDot) = (Text.trim cs).map slashForDot := by
  have hblank : Text.isBlank ∘ slashForDot = Text.isBlank := funext isBlank_slashForDot
  simp only [Text.trim, List.dropWhile_map, ← List.map_reverse, hblank]

/-- An accepted name is the trimmed name with slashes for dots, and in its internal form. -/
theorem internalClassName_eq_ok {name internal : String} :
    internalClassName name = .ok internal ↔
      internal.toList = (Text.trim name.toList).map slashForDot ∧ InternalName internal := by
  have hslash : (fun c => if c = '.' then '/' else c) = slashForDot := rfl
  unfold internalClassName
  rw [hslash]
  have hdots : ∀ c ∈ (Text.trim name.toList).map slashForDot, c ≠ '.' := by
    intro c hc
    obtain ⟨d, -, rfl⟩ := List.mem_map.mp hc
    exact slashForDot_ne_dot d
  -- all that is used of the name from here on is that it has no dots
  generalize (Text.trim name.toList).map slashForDot = cs at hdots ⊢
  dsimp only
  constructor
  · intro h
    split at h
    · cases h
    · split at h
      · cases h
      · next hsegments =>
        split at h
        · cases h
        · next hnone =>
          cases h
          refine ⟨String.toList_ofList, ?_, ?_⟩ <;> rw [String.toList_ofList]
          · simpa using hsegments
          · exact fun c hc => ⟨hdots c hc, by simpa using List.find?_eq_none.mp hnone c hc⟩
  · rintro ⟨rfl, hsegments, hplain⟩
    have hempty : internal.toList.isEmpty = false :=
      List.isEmpty_eq_false_iff.mpr (ne_nil_of_segments hsegments)
    have hany : (segments internal.toList).any List.isEmpty = false :=
      List.any_eq_false.mpr fun s hs hs' => hsegments (List.isEmpty_iff.mp hs' ▸ hs)
    have hnone : internal.toList.find? isSeparator = none :=
      List.find?_eq_none.mpr fun c hc => by simp [(hplain c hc).2]
    rw [hempty, hany, hnone, String.ofList_toList]
    rfl

/-- A setting does not care whether the segments of a name are parted by dots or slashes. -/
theorem internalClassName_slashed {name internal : String} :
    internalClassName (slashed name) = .ok internal ↔ internalClassName name = .ok internal := by
  rw [internalClassName_eq_ok, internalClassName_eq_ok, slashed, String.toList_ofList,
    trim_map_slashForDot, List.map_map]
  have htwice : slashForDot ∘ slashForDot = slashForDot := funext slashForDot_slashForDot
  rw [htwice]

/-- A name of this form is accepted as it is. -/
theorem InternalName.internalClassName {name : String} (h : InternalName name) :
    internalClassName name = .ok name := by
  have hsegments : ∀ s ∈ segments name.toList, s ≠ [] := fun s hs hnil =>
    h.no_empty_segment (hnil ▸ hs)
  have hinternal :=
    internalClassName_of_internal (ne_nil_of_segments h.no_empty_segment) hsegments h.plain
  rwa [String.ofList_toList] at hinternal

/-- A name in its internal form may stand in a descriptor. -/
theorem InternalName.wellFormed {name : String} (h : InternalName name) :
    WellFormedName name := by
  -- wherever there is a slash, the segments on both sides of it are segments of the name
  have hparts : ∀ {cs ds : List Char}, name.toList = cs ++ '/' :: ds →
      [] ∉ segments cs ∧ [] ∉ segments ds := by
    intro cs ds hname
    have hsegments := h.no_empty_segment
    rw [hname, segments_append_slash] at hsegments
    exact ⟨fun hmem => hsegments (List.mem_append_left _ hmem),
      fun hmem => hsegments (List.mem_append_right _ hmem)⟩
  have hnothing : [] ∈ segments [] := List.mem_cons_self
  constructor
  · rintro rfl
    exact h.no_empty_segment hnothing
  · intro c hc
    obtain ⟨hdot, hseparator⟩ := h.plain c hc
    refine ⟨hdot, ?_, ?_, ?_, ?_⟩ <;> rintro rfl <;> exact absurd hseparator (by decide)
  · rintro ⟨ds, hname⟩
    exact (hparts (hname.symm.trans (List.nil_append _).symm)).1 hnothing
  · rintro ⟨cs, hname⟩
    exact (hparts hname.symm).2 hnothing
  · rintro ⟨cs, ds, hname⟩
    have hdouble : name.toList = cs ++ '/' :: ([] ++ '/' :: ds) := by simp [← hname]
    have hbehind := (hparts hdouble).2
    rw [segments_append_slash] at hbehind
    exact hbehind (List.mem_append_left _ hnothing)

/-- A setting takes a name with dots as it takes the name with slashes for them, and what it takes
from a name it takes again as it is and can be spelled in a descriptor. -/
theorem internalClassName_canonical (name : String) :
    (internalClassName name).toOption = (internalClassName (slashed name)).toOption ∧
      ∀ internal, internalClassName name = .ok internal →
        internalClassName internal = .ok internal ∧
          FieldType.parse ("L" ++ internal ++ ";") = .ok ⟨0, .object internal⟩ := by
  constructor
  · cases hname : internalClassName name with
    | ok internal => rw [internalClassName_slashed.mpr hname]
    | error e =>
      cases hslashed : internalClassName (slashed name) with
      | ok internal => cases hname.symm.trans (internalClassName_slashed.mp hslashed)
      | error e' => rfl
  · intro internal hname
    obtain ⟨-, hinternal⟩ := internalClassName_eq_ok.mp hname
    refine ⟨hinternal.internalClassName, FieldType.parse_eq_ok.mpr ⟨⟨Nat.zero_le 255, ?_⟩, rfl⟩⟩
    exact hinternal.wellFormed

/-- White space at the ends, some of it not ASCII, and both kinds of separator. -/
example : internalClassName (String.ofList ['\u2003', 'a', '.', 'b', '/', 'C', '\u00a0']) =
    .ok "a/b/C" := by decide

end JvmStub
