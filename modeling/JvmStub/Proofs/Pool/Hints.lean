/-
`Hints.lean` -- requests that come with a hint.

A hint is a slot that may or may not hold what is asked for. Whatever it is, the
answer resolves to what was asked for, and the pool has grown by harmless
constants only. What such a request does not do is settle: in a later pool the
same hint may lead somewhere and be taken. So a slot that was given out is
followed through its text from here on, not by asking again.
-/
import JvmStub.Proofs.Pool.Interning

set_option autoImplicit false

namespace JvmStub

open ConstantPool

variable {texts : String → Prop} {pool later : ConstantPool} {slot : Slot}

namespace PoolM

/-- What is known of the pool after a request holds of the pool that it was seen to leave. -/
theorem grown_of_run {α : Type} {x : PoolM α} {result : Except PoolError α}
    (h : x pool = (result, later)) (hx : Grown texts pool (x pool).2) : Grown texts pool later := by
  rwa [h] at hx

/-! ## One text, one class -/

/-- A text by a hint adds that text at most. -/
theorem grown_utf8At {hint : Option Slot} {text : String} (ht : texts text) :
    Grown texts pool (utf8At hint text pool).2 := by
  unfold utf8At
  cases hint with
  | none => exact grown_addUtf8 ht
  | some slot =>
    dsimp only
    split
    · exact Grown.refl texts pool
    · exact grown_addUtf8 ht

/-- The answer holds the text, whether the hint was taken or not. -/
theorem utf8_of_utf8At {hint : Option Slot} {text : String} (hn : later.Numbered)
    (h : utf8At hint text pool = (.ok slot, later)) : later.utf8 slot = .ok text := by
  unfold utf8At at h
  cases hint with
  | none => exact utf8_of_addUtf8 hn h
  | some hint =>
    dsimp only at h
    split at h
    · next hholds =>
      cases h
      exact holdsUtf8_iff.mp hholds
    · exact utf8_of_addUtf8 hn h

theorem grown_classAt {hint : Option Slot} {name : String} (hn : pool.Numbered) (ht : texts name) :
    Grown texts pool (classAt hint name pool).2 := by
  unfold classAt
  cases hint with
  | none => exact grown_addClass hn ht
  | some slot =>
    dsimp only
    split
    · exact Grown.refl texts pool
    · exact grown_addClass hn ht

/-- The answer holds the class, whether the hint was taken or not. -/
theorem className_of_classAt {hint : Option Slot} {name : String} (hn : later.Numbered)
    (h : classAt hint name pool = (.ok slot, later)) : later.className slot = .ok name := by
  unfold classAt at h
  cases hint with
  | none => exact className_of_addClass hn h
  | some hint =>
    dsimp only at h
    split at h
    · next hholds =>
      cases h
      exact holdsClass_iff.mp hholds
    · exact className_of_addClass hn h

/-- A request for a class that fails found the pool full. -/
theorem outOfSpace_of_classAt {hint : Option Slot} {name : String} {e : PoolError}
    (h : classAt hint name pool = (.error e, later)) : e = .outOfSpace := by
  unfold classAt at h
  cases hint with
  | none => exact (interns_addClass name).eq_outOfSpace h
  | some slot =>
    dsimp only at h
    split at h
    · cases h
    · exact (interns_addClass name).eq_outOfSpace h

/-! ## Several classes -/

/-- Several classes add themselves and their texts at most. The induction is on the names, as hints
may run out before them. -/
theorem grown_classesOnto {names : List String} (hn : pool.Numbered) (ht : ∀ n ∈ names, texts n)
    (given : Array Slot) (hints : List Slot) :
    Grown texts pool (classesOnto given hints names pool).2 := by
  induction names generalizing pool given hints with
  | nil => exact Grown.refl texts pool
  | cons name names ih =>
    obtain ⟨hname, hnames⟩ := List.forall_mem_cons.mp ht
    exact grown_bind hn (grown_classAt hn hname) fun slot mid _ hmid => ih hmid hnames _ _

theorem grown_classesAt {names : List String} (hn : pool.Numbered) (ht : ∀ n ∈ names, texts n)
    (hints : List Slot) : Grown texts pool (classesAt hints names pool).2 :=
  grown_classesOnto hn ht #[] hints

/-- A hint is never an error, so only a full pool refuses. -/
theorem outOfSpace_of_classesOnto {names : List String} {given : Array Slot} {hints : List Slot}
    {e : PoolError} (h : classesOnto given hints names pool = (.error e, later)) :
    e = .outOfSpace := by
  induction names generalizing pool given hints with
  | nil => cases h
  | cons name names ih =>
    rcases bind_eq_error.mp h with hfirst | ⟨slot, mid, -, hrest⟩
    · exact outOfSpace_of_classAt hfirst
    · exact ih hrest

/-- The slots that are given out go behind those given out before, one for each class. -/
theorem length_of_classesOnto {names : List String} {given slots : Array Slot} {hints : List Slot}
    (h : classesOnto given hints names pool = (.ok slots, later)) :
    slots.size = given.size + names.length := by
  induction names generalizing pool given hints with
  | nil =>
    cases h
    rfl
  | cons name names ih =>
    obtain ⟨slot, mid, -, hrest⟩ := bind_eq_ok.mp h
    rw [ih hrest, Array.size_push, List.length_cons]
    omega

/-- There are as many slots as classes were asked for. -/
theorem size_of_classesAt {names : List String} {slots : Array Slot} {hints : List Slot}
    (h : classesAt hints names pool = (.ok slots, later)) : slots.size = names.length := by
  rw [length_of_classesOnto h, Array.size_empty, Nat.zero_add]

/-- The slots that are given have the classes, whether by hints or not. -/
theorem classNames_of_classesOnto {names : List String} {given slots : Array Slot}
    {hints : List Slot} (hn : pool.Numbered)
    (h : classesOnto given hints names pool = (.ok slots, later)) :
    ∃ added, slots = given ++ added.toArray ∧
      List.Forall₂ (fun slot name => later.className slot = .ok name) added names := by
  induction names generalizing pool given hints with
  | nil =>
    cases h
    exact ⟨[], by simp, .nil⟩
  | cons name names ih =>
    obtain ⟨slot, mid, hslot, hrest⟩ := bind_eq_ok.mp h
    have hgrown : Grown (fun _ => True) pool mid := grown_of_run hslot (grown_classAt hn trivial)
    have hmid := hgrown.numbered hn
    obtain ⟨added, rfl, hadded⟩ := ih hmid hrest
    -- the rest of the list may have added constants behind the first class
    have hgrown' : Grown (fun _ => True) mid later :=
      grown_of_run hrest (grown_classesOnto hmid (fun _ _ => trivial) _ _)
    refine ⟨slot :: added, by simp, .cons ?_ hadded⟩
    exact hgrown'.growsInto.className (className_of_classAt hmid hslot)

/-- The slots hold the classes that were asked for, in their order. -/
theorem classNames_of_classesAt {names : List String} {slots : Array Slot} {hints : List Slot}
    (hn : pool.Numbered) (h : classesAt hints names pool = (.ok slots, later)) :
    List.Forall₂ (fun slot name => later.className slot = .ok name) slots.toList names := by
  obtain ⟨added, rfl, hadded⟩ := classNames_of_classesOnto hn h
  simpa using hadded

end PoolM

end JvmStub
