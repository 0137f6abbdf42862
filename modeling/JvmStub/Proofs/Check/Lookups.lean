/-
`Lookups.lean` -- the check of a pool and what can be looked up in it.

The check looks at every constant and one step ahead of it: at the constants that it
refers to. A lookup follows the references, up to three steps, until it has texts.
The two agree because the check looks at every slot: what is found one step ahead has
itself been checked, so the next step is there as well. `Closed` is this property of
the whole pool, and the lemmas below take one step of a lookup each.

Backwards nothing is composed. A lookup that succeeds has found the constants that the
check asks for on its way.
-/
import JvmStub.Proofs.Check.Pool

set_option autoImplicit false

namespace JvmStub

open ConstantPool

variable {pool : ConstantPool} {slot : Slot} {c : Constant} {cs : List Constant}

/-! ## Second slots -/

namespace Check

/-- Second slots pass exactly where they stand behind wide constants and nowhere else, wherever the
count begins. -/
theorem shadowSlots_eq_ok (slot : Nat) : shadowSlots none slot cs = .ok () ↔ WellSlotted cs := by
  refine ⟨fun h => ?_, fun h => shadowSlots_of_wellSlotted h slot⟩
  -- two steps at a time, because a wide constant is checked with the slot behind it
  induction cs using List.twoStepInduction generalizing slot with
  | nil => exact .nil
  | singleton c =>
    rw [shadowSlots] at h
    split at h
    · cases h
    · next hu =>
      split at h
      · cases h
      · next hc => exact .narrow hu (Bool.not_eq_true _ ▸ hc) .nil
  | cons_cons c d cs ih ih' =>
    rw [shadowSlots] at h
    split at h
    · cases h
    · next hu =>
      split at h
      · next hc =>
        rw [shadowSlots] at h
        split at h
        · next hd =>
          subst hd
          exact .wide hc (ih (slot + 1 + 1) h)
        · cases h
      · next hc => exact .narrow hu (Bool.not_eq_true _ ▸ hc) (ih' d (slot + 1) h)

end Check

/-! ## One step of a lookup -/

namespace ConstantPool

/-- Every reference in the pool leads to a constant of the kind that is needed. -/
def Closed (pool : ConstantPool) : Prop := ∀ c ∈ pool.constants.toList, c.ReferencesHold pool

/-- What stands in a slot of a closed pool has its references. -/
theorem Closed.referencesHold (h : pool.Closed) (hget : pool.get slot = .ok c) :
    c.ReferencesHold pool :=
  h c (List.mem_of_getElem? (get_eq_ok.mp hget).2.1)

/-- A constant that is a text can be read as one. -/
theorem utf8_of_isUtf8 (hget : pool.get slot = .ok c) (hc : c.isUtf8 = true) :
    ∃ text, pool.utf8 slot = .ok text := by
  cases c with
  | utf8 text => exact ⟨text, utf8_eq_ok.mpr hget⟩
  | _ => cases hc

/-- In a pool whose references hold, a class has a name. -/
theorem Closed.className_of_isClass (h : pool.Closed) (hget : pool.get slot = .ok c)
    (hc : c.isClass = true) : ∃ name, pool.className slot = .ok name := by
  cases c with
  | classRef n =>
    obtain ⟨found, hfound, hkind⟩ := h.referencesHold hget _ (.head _)
    obtain ⟨name, hname⟩ := utf8_of_isUtf8 hfound hkind
    exact ⟨name, className_eq_ok.mpr ⟨n, hget, hname⟩⟩
  | _ => cases hc

theorem Closed.nameAndType_of_isNameAndType (h : pool.Closed) (hget : pool.get slot = .ok c)
    (hc : c.isNameAndType = true) : ∃ both, pool.nameAndType slot = .ok both := by
  cases c with
  | nameAndType n d =>
    obtain ⟨found, hfound, hkind⟩ := h.referencesHold hget _ (.head _)
    obtain ⟨name, hname⟩ := utf8_of_isUtf8 hfound hkind
    obtain ⟨found', hfound', hkind'⟩ := h.referencesHold hget _ (.tail _ (.head _))
    obtain ⟨descriptor, hdescriptor⟩ := utf8_of_isUtf8 hfound' hkind'
    exact ⟨(name, descriptor), nameAndType_eq_ok.mpr ⟨n, d, hget, hname, hdescriptor⟩⟩
  | _ => cases hc

/-- A member is looked up through its owner and its name and descriptor. -/
theorem memberRef_eq_ok {member : MemberRef} : pool.memberRef slot = .ok member ↔
    ∃ c owner named, pool.get slot = .ok c ∧ c.isMember = true ∧
      c.references = [(owner, Constant.isClass), (named, Constant.isNameAndType)] ∧
      pool.className owner = .ok member.owner ∧
      pool.nameAndType named = .ok (member.name, member.descriptor) := by
  unfold memberRef
  rw [except_bind_eq_ok]
  constructor
  · rintro ⟨c, hget, h⟩
    split at h
    case h_4 => cases h
    all_goals
      obtain ⟨owner', howner, h⟩ := except_bind_eq_ok.mp h
      obtain ⟨⟨name, descriptor⟩, hnamed, h⟩ := except_bind_eq_ok.mp h
      cases h
      exact ⟨_, _, _, hget, rfl, rfl, howner, hnamed⟩
  · rintro ⟨c, owner, named, hget, hc, hreferences, howner, hnamed⟩
    refine ⟨c, hget, ?_⟩
    cases c with
    | fieldRef _ _ | methodRef _ _ | interfaceMethodRef _ _ =>
      cases hreferences
      exact except_bind_eq_ok.mpr ⟨_, howner, except_bind_eq_ok.mpr ⟨_, hnamed, rfl⟩⟩
    | _ => cases hc

/-- In such a pool a reference to a member can be read, down to its texts. -/
theorem Closed.memberRef_of_isMember (h : pool.Closed) (hget : pool.get slot = .ok c)
    (hc : c.isMember = true) : ∃ member, pool.memberRef slot = .ok member := by
  have hreferences : ∃ owner named,
      c.references = [(owner, Constant.isClass), (named, Constant.isNameAndType)] := by
    cases c with
    | fieldRef o n | methodRef o n | interfaceMethodRef o n => exact ⟨o, n, rfl⟩
    | _ => cases hc
  obtain ⟨owner, named, hreferences⟩ := hreferences
  have hholds := h.referencesHold hget
  rw [Constant.ReferencesHold, hreferences] at hholds
  obtain ⟨found, hfound, hkind⟩ := hholds _ (.head _)
  obtain ⟨name, howner⟩ := h.className_of_isClass hfound hkind
  obtain ⟨found', hfound', hkind'⟩ := hholds _ (.tail _ (.head _))
  obtain ⟨both, hnamed⟩ := h.nameAndType_of_isNameAndType hfound' hkind'
  exact ⟨⟨name, both.1, both.2⟩,
    memberRef_eq_ok.mpr ⟨c, owner, named, hget, hc, hreferences, howner, hnamed⟩⟩

end ConstantPool

/-! ## Lookups by kind -/

/-- The lookup of the constant in a slot succeeds all the way down: what it refers to can be spelled
out, by the lookup for its own kind where there is one, and else by that for the kind it needs. -/
def Constant.LooksUp (pool : ConstantPool) (slot : Slot) : Constant → Prop
  | .classRef target | .string target | .methodType target | .moduleRef target
  | .packageRef target => ∃ text, pool.utf8 target = .ok text
  | .nameAndType .. => ∃ both, pool.nameAndType slot = .ok both
  | .fieldRef .. | .methodRef .. | .interfaceMethodRef .. =>
    ∃ member, pool.memberRef slot = .ok member
  | .methodHandle _ target => ∃ member, pool.memberRef target = .ok member
  | .dynamic _ target | .invokeDynamic _ target => ∃ both, pool.nameAndType target = .ok both
  | .utf8 _ | .integer _ | .float _ | .long _ | .double _ | .unusable => True

namespace ConstantPool

/-- In such a pool every constant can be looked up as what it is. The cases are those of the
constants. -/
theorem Closed.looksUp (h : pool.Closed) (hget : pool.get slot = .ok c) : c.LooksUp pool slot := by
  have hholds := h.referencesHold hget
  cases c with
  | classRef target | string target | methodType target | moduleRef target | packageRef target =>
    obtain ⟨found, hfound, hkind⟩ := hholds _ (.head _)
    exact utf8_of_isUtf8 hfound hkind
  | nameAndType n d => exact h.nameAndType_of_isNameAndType hget rfl
  | fieldRef o n | methodRef o n | interfaceMethodRef o n => exact h.memberRef_of_isMember hget rfl
  | methodHandle kind target =>
    obtain ⟨found, hfound, hkind⟩ := hholds _ (.head _)
    exact h.memberRef_of_isMember hfound hkind
  | dynamic b target | invokeDynamic b target =>
    obtain ⟨found, hfound, hkind⟩ := hholds _ (.head _)
    exact h.nameAndType_of_isNameAndType hfound hkind
  | utf8 _ | integer _ | float _ | long _ | double _ | unusable => trivial

/-- A lookup that succeeds has found a constant of the kind it asks for. -/
theorem found_of_utf8 {text : String} (h : pool.utf8 slot = .ok text) :
    ∃ found, pool.get slot = .ok found ∧ found.isUtf8 = true :=
  ⟨_, utf8_eq_ok.mp h, rfl⟩

/-- A name with its type that can be read is a constant of that kind. -/
theorem found_of_nameAndType {both : String × String} (h : pool.nameAndType slot = .ok both) :
    ∃ found, pool.get slot = .ok found ∧ found.isNameAndType = true := by
  obtain ⟨n, d, hget, -⟩ := nameAndType_eq_ok.mp h
  exact ⟨_, hget, rfl⟩

theorem found_of_memberRef {member : MemberRef} (h : pool.memberRef slot = .ok member) :
    ∃ found, pool.get slot = .ok found ∧ found.isMember = true := by
  obtain ⟨found, -, -, hfound, hkind, -⟩ := memberRef_eq_ok.mp h
  exact ⟨found, hfound, hkind⟩

/-- A constant whose lookup succeeds has its references. -/
theorem referencesHold_of_looksUp (hget : pool.get slot = .ok c) (h : c.LooksUp pool slot) :
    c.ReferencesHold pool := by
  unfold Constant.ReferencesHold
  -- one group of cases for each kind of lookup
  cases c with
  | classRef target | string target | methodType target | moduleRef target | packageRef target =>
    obtain ⟨text, htext⟩ := h
    exact List.forall_mem_singleton.mpr (found_of_utf8 htext)
  | nameAndType n d =>
    obtain ⟨⟨name, descriptor⟩, hboth⟩ := h
    obtain ⟨n', d', hget', hname, hdescriptor⟩ := nameAndType_eq_ok.mp hboth
    cases hget.symm.trans hget'
    exact List.forall_mem_cons.mpr
      ⟨found_of_utf8 hname, List.forall_mem_singleton.mpr (found_of_utf8 hdescriptor)⟩
  | fieldRef o n | methodRef o n | interfaceMethodRef o n =>
    obtain ⟨member, hmember⟩ := h
    obtain ⟨c', owner, named, hget', -, hreferences, howner, hnamed⟩ := memberRef_eq_ok.mp hmember
    cases hget.symm.trans hget'
    obtain ⟨m, hclass, -⟩ := className_eq_ok.mp howner
    rw [hreferences]
    exact List.forall_mem_cons.mpr
      ⟨⟨_, hclass, rfl⟩, List.forall_mem_singleton.mpr (found_of_nameAndType hnamed)⟩
  | methodHandle kind target =>
    obtain ⟨member, hmember⟩ := h
    exact List.forall_mem_singleton.mpr (found_of_memberRef hmember)
  | dynamic b target | invokeDynamic b target =>
    obtain ⟨both, hboth⟩ := h
    exact List.forall_mem_singleton.mpr (found_of_nameAndType hboth)
  | utf8 _ | integer _ | float _ | long _ | double _ | unusable => exact List.forall_mem_nil _

/-- The references of a pool whose slots have numbers lead to what they need exactly where every
lookup succeeds. -/
theorem closed_iff_looksUp (hn : pool.Numbered) :
    pool.Closed ↔ ∀ slot c, pool.get slot = .ok c → c.LooksUp pool slot := by
  refine ⟨fun h slot c hget => h.looksUp hget, fun h c hc => ?_⟩
  by_cases hu : c = .unusable
  · subst hu
    exact List.forall_mem_nil _
  · obtain ⟨i, hi, hget⟩ := List.getElem_of_mem hc
    have hlt : i < pool.size := by simpa [size] using hi
    have hsome : pool.constants.toList[i]? = some c := by rw [List.getElem?_eq_getElem hi, hget]
    have hslot := get_slotAt (Nat.lt_of_lt_of_le hlt hn) hsome hu
    exact referencesHold_of_looksUp hslot (h _ c hslot)

end ConstantPool

namespace Check

variable {cf : ClassFile}

/-- A class has a table of bootstrap methods when one of its attributes has that name. -/
theorem hasBootstrap_iff : hasBootstrap cf = true ↔
    ∃ a ∈ cf.attributes, cf.pool.utf8 a.nameSlot = .ok AttributeName.bootstrapMethods.text := by
  unfold hasBootstrap
  rw [Array.any_eq_true']
  exact exists_congr fun a => and_congr_right fun _ => isNamed_iff

/-- A pool passes exactly when the slots without a constant are those behind a long or a double, the
lookup of every slot succeeds all the way down, and dynamic constants come with an attribute that
names bootstrap methods. -/
theorem pool_eq_ok_iff_looksUp (hn : cf.pool.size ≤ 65535) : Check.pool cf = .ok () ↔
    (∀ i, cf.pool.constants[i]? = some .unusable ↔
      ∃ j c, i = j + 1 ∧ cf.pool.constants[j]? = some c ∧ c.isWide = true) ∧
    (∀ slot c, cf.pool.get slot = .ok c → c.LooksUp cf.pool slot) ∧
    ((∃ c ∈ cf.pool.constants, c.isDynamic = true) →
      ∃ a ∈ cf.attributes, cf.pool.utf8 a.nameSlot = .ok AttributeName.bootstrapMethods.text) := by
  have hslots : WellSlotted cf.pool.constants.toList ↔
      ∀ i, cf.pool.constants[i]? = some .unusable ↔
        ∃ j c, i = j + 1 ∧ cf.pool.constants[j]? = some c ∧ c.isWide = true := by
    simp only [wellSlotted_iff, WideAt, Array.getElem?_toList]
  -- the three parts of the check are the three conditions
  rw [← hslots, ← closed_iff_looksUp hn, ← hasBootstrap_iff]
  unfold Check.pool
  rw [except_bind_eq_ok]
  constructor
  · rintro ⟨⟨⟩, hshadow, hconstants⟩
    have hall := (constants_eq_ok 1).mp hconstants
    refine ⟨(shadowSlots_eq_ok 1).mp hshadow, fun c hc => (hall c hc).2, ?_⟩
    rintro ⟨c, hc, hdynamic⟩
    exact (hall c (Array.mem_toList_iff.mpr hc)).1 hdynamic
  · rintro ⟨hshadow, hclosed, hbootstrap⟩
    refine ⟨(), (shadowSlots_eq_ok 1).mpr hshadow, (constants_eq_ok 1).mpr fun c hc => ?_⟩
    exact ⟨fun hdynamic => hbootstrap ⟨c, Array.mem_toList_iff.mp hc, hdynamic⟩, hclosed c hc⟩

/-- A class whose pool refers forwards, through three steps, and has a dynamic constant. -/
def bootstrapClass : ClassFile :=
  { ClassFile.empty with
    pool := ⟨#[.methodHandle 6 2, .methodRef 3 4, .classRef 5, .nameAndType 5 6, .utf8 "run",
      .utf8 "()V", .long 0, .unusable, .invokeDynamic 0 4, .utf8 "BootstrapMethods"]⟩
    attributes := #[⟨10, []⟩] }

/-- A pool with a dynamic constant, in a class that has the table. -/
theorem pool_eq_ok_iff_looksUp_bootstrap : bootstrapClass.pool.size ≤ 65535 ∧
    Check.pool bootstrapClass = .ok () ∧
    ∀ slot c, bootstrapClass.pool.get slot = .ok c → c.LooksUp bootstrapClass.pool slot := by
  have hsize : bootstrapClass.pool.size ≤ 65535 := by decide
  have hpool : Check.pool bootstrapClass = .ok () := by decide +kernel
  exact ⟨hsize, hpool, ((pool_eq_ok_iff_looksUp hsize).mp hpool).2.1⟩

end Check

end JvmStub
