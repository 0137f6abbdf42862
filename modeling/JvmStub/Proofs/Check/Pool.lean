/-
`Pool.lean` -- the check of a pool that has grown.

The check of a pool passes exactly when the second slots stand where they should,
each reference leads to a constant of its kind, and dynamic constants have their
bootstrap methods. None of this can be lost when a pool grows by harmless
constants, so a fault in the pool of a stub was there before.
-/
import JvmStub.Check.Class
import JvmStub.Proofs.Event.Parts
import JvmStub.Proofs.Stub.Constants

set_option autoImplicit false

namespace JvmStub.Check

open ConstantPool

variable {cf : ClassFile} {later : ConstantPool} {c : Constant} {cs : List Constant}

/-- Whether the class has bootstrap methods. -/
def hasBootstrap (cf : ClassFile) : Bool :=
  cf.attributes.any (Attribute.isNamed cf.pool .bootstrapMethods)

/-- Second slots that stand where they should pass, wherever the count begins. -/
theorem shadowSlots_of_wellSlotted (h : WellSlotted cs) (slot : Nat) :
    shadowSlots none slot cs = .ok () := by
  induction h generalizing slot with
  | nil => rfl
  | narrow hu hc _ ih =>
    rw [shadowSlots, if_neg hu, hc]
    exact ih (slot + 1)
  | @wide c cs hc _ ih =>
    have hu : c ≠ .unusable := by
      rintro rfl
      cases hc
    rw [shadowSlots, if_neg hu, if_pos hc, shadowSlots, if_pos rfl]
    exact ih (slot + 1 + 1)

/-- A reference passes exactly when it leads to a constant of the right kind. -/
theorem reference_eq_ok {pool : ConstantPool} {slot target : Slot}
    {isExpected : Constant → Bool} : reference pool slot target isExpected = .ok () ↔
      ∃ found, pool.get target = .ok found ∧ isExpected found = true := by
  unfold reference
  split
  · next found hfound => simp [hfound]
  · next e he => simp [he]

/-- A constant passes exactly when its references hold and, if it is dynamic, the class has
bootstrap methods. -/
theorem constant_eq_ok {pool : ConstantPool} {bootstrap : Bool} (slot : Slot) :
    constant pool bootstrap slot c = .ok () ↔
      (c.isDynamic = true → bootstrap = true) ∧ c.ReferencesHold pool := by
  have hreferences : (forM c.references fun r => reference pool slot r.1 r.2) = .ok () ↔
      c.ReferencesHold pool := by
    rw [except_forM_eq_ok]
    exact forall₂_congr fun r _ => reference_eq_ok
  unfold constant
  cases hdynamic : c.isDynamic <;> cases hbootstrap : bootstrap
  all_goals simp only [Bool.not_true, Bool.not_false, Bool.and_true, Bool.and_false,
    Bool.false_eq_true, if_false, if_true, false_imp_iff, true_imp_iff, true_and, imp_self,
    false_and]
  · exact hreferences
  · exact hreferences
  · simp [throw, throwThe, MonadExceptOf.throw, bind, Except.bind]
  · exact hreferences

theorem constants_eq_ok {pool : ConstantPool} {bootstrap : Bool} (slot : Nat) :
    constants pool bootstrap slot cs = .ok () ↔
      ∀ c ∈ cs, (c.isDynamic = true → bootstrap = true) ∧ c.ReferencesHold pool := by
  induction cs generalizing slot with
  | nil => simp [constants]
  | cons c cs ih =>
    rw [constants, except_bind_eq_ok, List.forall_mem_cons, ← ih (slot + 1),
      ← constant_eq_ok (UInt16.ofNat slot)]
    exact ⟨fun ⟨_, hc, hcs⟩ => ⟨hc, hcs⟩, fun ⟨hc, hcs⟩ => ⟨(), hc, hcs⟩⟩

/-- A pool whose second slots stand where they should passes exactly when all its constants do. -/
theorem pool_eq_ok (hslots : WellSlotted cf.pool.constants.toList) : pool cf = .ok () ↔
    ∀ c ∈ cf.pool.constants.toList,
      (c.isDynamic = true → hasBootstrap cf = true) ∧ c.ReferencesHold cf.pool := by
  unfold pool
  rw [except_bind_eq_ok, shadowSlots_of_wellSlotted hslots]
  exact ⟨fun ⟨_, _, h⟩ => (constants_eq_ok 1).mp h, fun h => ⟨(), rfl, (constants_eq_ok 1).mpr h⟩⟩

/-- A class keeps its bootstrap methods. -/
theorem hasBootstrap_of_growsInto {stubbed : ClassFile} (hg : cf.pool.GrowsInto stubbed.pool)
    (hattributes : stubbed.attributes = cf.attributes) (h : hasBootstrap cf = true) :
    hasBootstrap stubbed = true := by
  unfold hasBootstrap at h ⊢
  rw [Array.any_eq_true'] at h ⊢
  obtain ⟨a, ha, hnamed⟩ := h
  rw [hattributes]
  exact ⟨a, ha, isNamed_iff.mpr (hg.utf8 (isNamed_iff.mp hnamed))⟩

/-- A pool that passes still passes when it has grown by harmless constants. -/
theorem pool_of_grown {texts : String → Prop} {stubbed : ClassFile}
    (hslots : WellSlotted cf.pool.constants.toList) (hgrown : Grown texts cf.pool stubbed.pool)
    (hattributes : stubbed.attributes = cf.attributes) (h : pool cf = .ok ()) :
    pool stubbed = .ok () := by
  have hg := hgrown.growsInto
  have hbefore := (pool_eq_ok hslots).mp h
  rw [pool_eq_ok (hgrown.wellSlotted hslots)]
  obtain ⟨added, hadded, hharmless⟩ := hgrown.added
  rw [hadded, List.forall_mem_append]
  constructor
  · intro c hc
    obtain ⟨hdynamic, hreferences⟩ := hbefore c hc
    exact ⟨fun hd => hasBootstrap_of_growsInto hg hattributes (hdynamic hd), hreferences.mono hg⟩
  · intro c hc
    refine ⟨fun hd => ?_, (hharmless c hc).referencesHold⟩
    rw [(hharmless c hc).static] at hd
    cases hd

end JvmStub.Check
