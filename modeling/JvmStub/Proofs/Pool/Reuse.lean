/-
`Reuse.lean` -- when a call is answered without adding anything.

A call looks for its constant from the texts upwards: it takes the lowest slot of each
text, then the lowest slot of the class or of the name and type that refers to those
slots, and so on. What it looks for is therefore one constant, the canonical one, and a
call adds nothing exactly when that constant is in the pool. In a pool that holds no
text, no class and no name and type twice, every constant that a slot can lead to is
canonical, so there a call reuses whatever the pool has.

In a pool with copies it does not: a class whose name is the second copy of a text is a
class of that name for every lookup, and still no call for the class finds it.
-/
import JvmStub.Proofs.Pool.Calls

set_option autoImplicit false

namespace JvmStub

open ConstantPool

variable {pool : ConstantPool} {slot : Slot} {c : Constant}

/-! ## Canonical constants -/

namespace PoolCall

/-- The constant is one that the call asks for, and each slot that it names is the lowest of a
constant of which the same is true. -/
inductive Canonical (pool : ConstantPool) : PoolCall → Constant → Prop
  | utf8 (text : String) : Canonical pool (.utf8 text) (.utf8 text)
  | classRef {name : String} {n : Slot} (hname : pool.IsLowest n (.utf8 name)) :
    Canonical pool (.classRef name) (.classRef n)
  | string {text : String} {t : Slot} (htext : pool.IsLowest t (.utf8 text)) :
    Canonical pool (.string text) (.string t)
  | nameAndType {name descriptor : String} {n d : Slot} (hname : pool.IsLowest n (.utf8 name))
    (hdescriptor : pool.IsLowest d (.utf8 descriptor)) :
    Canonical pool (.nameAndType name descriptor) (.nameAndType n d)
  | methodRef {owner name descriptor : String} {o m : Slot} {c c' : Constant}
    (howner : Canonical pool (.classRef owner) c) (ho : pool.IsLowest o c)
    (hnamed : Canonical pool (.nameAndType name descriptor) c') (hm : pool.IsLowest m c') :
    Canonical pool (.methodRef owner name descriptor) (.methodRef o m)
  | interfaceMethodRef {owner name descriptor : String} {o m : Slot} {c c' : Constant}
    (howner : Canonical pool (.classRef owner) c) (ho : pool.IsLowest o c)
    (hnamed : Canonical pool (.nameAndType name descriptor) c') (hm : pool.IsLowest m c') :
    Canonical pool (.interfaceMethodRef owner name descriptor) (.interfaceMethodRef o m)

/-- The slot is the lowest of the call's canonical constant. -/
def CanonicalAt (pool : ConstantPool) (call : PoolCall) (slot : Slot) : Prop :=
  ∃ c, call.Canonical pool c ∧ pool.IsLowest slot c

end PoolCall

open PoolCall (CanonicalAt)

/-! ## Requests that add nothing -/

namespace PoolM

/-- A sequence of requests adds nothing exactly when none of them does, because a pool never
shrinks again. -/
theorem Interns.bind_eq_self {α β : Type} {x : PoolM α} {f : α → PoolM β} (hx : Interns x)
    (hf : ∀ a, Interns (f a)) {b : β} : (x >>= f) pool = (.ok b, pool) ↔
      ∃ a, x pool = (.ok a, pool) ∧ f a pool = (.ok b, pool) := by
  rw [bind_eq_ok]
  constructor
  · rintro ⟨a, mid, hfirst, hrest⟩
    have hsame := (hx.growsInto hfirst).antisymm ((hf a).growsInto hrest)
    subst hsame
    exact ⟨a, hfirst, hrest⟩
  · rintro ⟨a, hfirst, hrest⟩
    exact ⟨a, pool, hfirst, hrest⟩

/-- Interning adds nothing exactly when the constant is there, and the answer is its lowest slot. -/
theorem intern_eq_self (hn : pool.Numbered) (hnarrow : c.isWide = false) (hu : c ≠ .unusable) :
    intern c pool = (.ok slot, pool) ↔ pool.IsLowest slot c := by
  rw [← find?_eq_some_iff_isLowest hn hu]
  exact ⟨find?_of_intern hnarrow, intern_of_find?⟩

theorem addUtf8_eq_self (hn : pool.Numbered) {text : String} :
    addUtf8 text pool = (.ok slot, pool) ↔ pool.IsLowest slot (.utf8 text) :=
  intern_eq_self hn rfl (by simp)

/-- A request for a class adds nothing exactly when the class is there over the lowest slot of its
name. -/
theorem addClass_eq_self (hn : pool.Numbered) {name : String} :
    addClass name pool = (.ok slot, pool) ↔ CanonicalAt pool (.classRef name) slot := by
  refine ((interns_addUtf8 name).bind_eq_self fun _ => .intern rfl).trans ⟨?_, ?_⟩
  · rintro ⟨n, hname, h⟩
    exact ⟨_, .classRef ((addUtf8_eq_self hn).mp hname),
      (intern_eq_self hn rfl (by simp)).mp h⟩
  · rintro ⟨c, hc, h⟩
    cases hc with
    | classRef hname =>
      exact ⟨_, (addUtf8_eq_self hn).mpr hname, (intern_eq_self hn rfl (by simp)).mpr h⟩

/-- A request for a string adds nothing exactly when the string is there over the lowest slot of its
text. -/
theorem addString_eq_self (hn : pool.Numbered) {text : String} :
    addString text pool = (.ok slot, pool) ↔ CanonicalAt pool (.string text) slot := by
  refine ((interns_addUtf8 text).bind_eq_self fun _ => .intern rfl).trans ⟨?_, ?_⟩
  · rintro ⟨t, htext, h⟩
    exact ⟨_, .string ((addUtf8_eq_self hn).mp htext), (intern_eq_self hn rfl (by simp)).mp h⟩
  · rintro ⟨c, hc, h⟩
    cases hc with
    | string htext =>
      exact ⟨_, (addUtf8_eq_self hn).mpr htext, (intern_eq_self hn rfl (by simp)).mpr h⟩

/-- A request for a name with its type adds nothing exactly when they are there over the lowest
slots of both texts. -/
theorem addNameAndType_eq_self (hn : pool.Numbered) {name descriptor : String} :
    addNameAndType name descriptor pool = (.ok slot, pool) ↔
      CanonicalAt pool (.nameAndType name descriptor) slot := by
  have hrest : ∀ n, Interns (do
      let d ← addUtf8 descriptor
      intern (.nameAndType n d)) := fun n => (interns_addUtf8 descriptor).bind fun _ => .intern rfl
  refine ((interns_addUtf8 name).bind_eq_self hrest).trans ⟨?_, ?_⟩
  · rintro ⟨n, hname, h⟩
    obtain ⟨d, hdescriptor, h⟩ :=
      ((interns_addUtf8 descriptor).bind_eq_self fun _ => .intern rfl).mp h
    exact ⟨_, .nameAndType ((addUtf8_eq_self hn).mp hname) ((addUtf8_eq_self hn).mp hdescriptor),
      (intern_eq_self hn rfl (by simp)).mp h⟩
  · rintro ⟨c, hc, h⟩
    cases hc with
    | nameAndType hname hdescriptor =>
      refine ⟨_, (addUtf8_eq_self hn).mpr hname, ?_⟩
      refine ((interns_addUtf8 descriptor).bind_eq_self fun _ => .intern rfl).mpr ?_
      exact ⟨_, (addUtf8_eq_self hn).mpr hdescriptor, (intern_eq_self hn rfl (by simp)).mpr h⟩

/-- For a member the owner and the name and type are asked for as they are by themselves. -/
theorem addMember_eq_self (hn : pool.Numbered) {member : MemberRef} {ofInterface : Bool} :
    addMember member ofInterface pool = (.ok slot, pool) ↔
      ∃ o, CanonicalAt pool (.classRef member.owner) o ∧
        ∃ m, CanonicalAt pool (.nameAndType member.name member.descriptor) m ∧
          pool.IsLowest slot
            (if ofInterface then .interfaceMethodRef o m else .methodRef o m) := by
  have hnarrow : ∀ o m, (if ofInterface then Constant.interfaceMethodRef o m
      else .methodRef o m).isWide = false := by
    cases ofInterface <;> intro o m <;> rfl
  have husable : ∀ o m, (if ofInterface then Constant.interfaceMethodRef o m
      else .methodRef o m) ≠ .unusable := by
    cases ofInterface <;> simp
  have hrest : ∀ o, Interns (do
      let m ← addNameAndType member.name member.descriptor
      intern (if ofInterface then .interfaceMethodRef o m else .methodRef o m)) :=
    fun o => (interns_addNameAndType _ _).bind fun m => .intern (hnarrow o m)
  rw [addMember_eq]
  refine ((interns_addClass _).bind_eq_self hrest).trans (exists_congr fun o => ?_)
  refine and_congr (addClass_eq_self hn) ?_
  refine ((interns_addNameAndType _ _).bind_eq_self fun m => .intern (hnarrow o m)).trans
    (exists_congr fun m => ?_)
  exact and_congr (addNameAndType_eq_self hn) (intern_eq_self hn (hnarrow o m) (husable o m))

end PoolM

/-! ## Calls that are answered from the pool -/

namespace PoolCall

variable {call : PoolCall}

/-- A call adds nothing exactly when its canonical constant is in the pool, and it is answered with
the lowest slot of that constant. -/
theorem request_eq_self (hn : pool.Numbered) (hcall : call.isInterning = true) :
    call.request pool = (.ok slot, pool) ↔ CanonicalAt pool call slot := by
  cases call with
  | integer _ | long _ | utf8At _ _ | classAt _ _ => cases hcall
  | utf8 text =>
    refine (PoolM.addUtf8_eq_self hn).trans ⟨fun h => ⟨_, .utf8 text, h⟩, ?_⟩
    rintro ⟨c, ⟨⟩, h⟩
    exact h
  | classRef name => exact PoolM.addClass_eq_self hn
  | string text => exact PoolM.addString_eq_self hn
  | nameAndType name descriptor => exact PoolM.addNameAndType_eq_self hn
  | methodRef owner name descriptor =>
    have hmember : PoolM.addMember ⟨owner, name, descriptor⟩ false pool = (.ok slot, pool) ↔ _ :=
      PoolM.addMember_eq_self hn
    refine hmember.trans ⟨?_, ?_⟩
    · rintro ⟨o, ⟨c, howner, ho⟩, m, ⟨c', hnamed, hm⟩, h⟩
      exact ⟨_, .methodRef howner ho hnamed hm, h⟩
    · rintro ⟨c, hc, h⟩
      cases hc with
      | methodRef howner ho hnamed hm => exact ⟨_, ⟨_, howner, ho⟩, _, ⟨_, hnamed, hm⟩, h⟩
  | interfaceMethodRef owner name descriptor =>
    have hmember : PoolM.addMember ⟨owner, name, descriptor⟩ true pool = (.ok slot, pool) ↔ _ :=
      PoolM.addMember_eq_self hn
    refine hmember.trans ⟨?_, ?_⟩
    · rintro ⟨o, ⟨c, howner, ho⟩, m, ⟨c', hnamed, hm⟩, h⟩
      exact ⟨_, .interfaceMethodRef howner ho hnamed hm, h⟩
    · rintro ⟨c, hc, h⟩
      cases hc with
      | interfaceMethodRef howner ho hnamed hm =>
        exact ⟨_, ⟨_, howner, ho⟩, _, ⟨_, hnamed, hm⟩, h⟩

end PoolCall

/-! ## Pools without copies -/

/-- No text, no class and no name and type stands in two slots. -/
def ConstantPool.WithoutCopies (pool : ConstantPool) : Prop :=
  ∀ c : Constant, c.isUtf8 = true ∨ c.isClass = true ∨ c.isNameAndType = true →
    ∀ slot other, pool.get slot = .ok c → pool.get other = .ok c → slot = other

/-- Without copies the slot where a constant stands is its lowest. -/
theorem ConstantPool.WithoutCopies.isLowest (h : pool.WithoutCopies)
    (hkind : c.isUtf8 = true ∨ c.isClass = true ∨ c.isNameAndType = true)
    (hget : pool.get slot = .ok c) : pool.IsLowest slot c := by
  refine ⟨hget, fun other hother => ?_⟩
  rw [h c hkind slot other hget hother]
  exact UInt16.le_refl other

/-- A constant that some slot holds has a lowest slot. -/
theorem ConstantPool.exists_isLowest_of_get (hn : pool.Numbered) (hget : pool.get slot = .ok c) :
    ∃ lowest, pool.IsLowest lowest c := by
  obtain ⟨lowest, hfound, -⟩ := find?_le_of_get hget
  exact ⟨lowest, (find?_eq_some_iff_isLowest hn (get_eq_ok.mp hget).2.2).mp hfound⟩

namespace PoolCall

variable {call : PoolCall}

/-- Without copies, whatever holds what a call asks for is the call's canonical constant. -/
theorem canonical_of_heldAt (h : pool.WithoutCopies) (hcall : call.isInterning = true)
    (hheld : call.HeldAt pool slot) : ∃ c, call.Canonical pool c ∧ pool.get slot = .ok c := by
  -- without copies each slot on the way is the lowest one, which makes the way canonical
  have htext : ∀ {t : Slot} {text : String}, pool.utf8 t = .ok text →
      pool.IsLowest t (.utf8 text) := fun ht => h.isLowest (.inl rfl) (utf8_eq_ok.mp ht)
  have hclass : ∀ {o : Slot} {name : String}, pool.className o = .ok name →
      ∃ c, Canonical pool (.classRef name) c ∧ pool.IsLowest o c := by
    intro o name ho
    obtain ⟨n, hget, hname⟩ := className_eq_ok.mp ho
    exact ⟨_, .classRef (htext hname), h.isLowest (.inr (.inl rfl)) hget⟩
  have hnamed : ∀ {m : Slot} {name descriptor : String},
      pool.nameAndType m = .ok (name, descriptor) →
      ∃ c, Canonical pool (.nameAndType name descriptor) c ∧ pool.IsLowest m c := by
    intro m name descriptor hm
    obtain ⟨n, d, hget, hname, hdescriptor⟩ := nameAndType_eq_ok.mp hm
    exact ⟨_, .nameAndType (htext hname) (htext hdescriptor), h.isLowest (.inr (.inr rfl)) hget⟩
  cases call with
  | integer _ | long _ | utf8At _ _ | classAt _ _ => cases hcall
  | utf8 text => exact ⟨_, .utf8 text, utf8_eq_ok.mp hheld⟩
  | classRef name =>
    obtain ⟨c, hc, hlowest⟩ := hclass hheld
    exact ⟨c, hc, hlowest.1⟩
  | string text =>
    obtain ⟨t, hget, ht⟩ := hheld
    exact ⟨_, .string (htext ht), hget⟩
  | nameAndType name descriptor =>
    obtain ⟨c, hc, hlowest⟩ := hnamed hheld
    exact ⟨c, hc, hlowest.1⟩
  | methodRef owner name descriptor =>
    obtain ⟨⟨o, m, hget, ho, hm⟩, -⟩ := hheld
    obtain ⟨c, hc, ho⟩ := hclass ho
    obtain ⟨c', hc', hm⟩ := hnamed hm
    exact ⟨_, .methodRef hc ho hc' hm, hget⟩
  | interfaceMethodRef owner name descriptor =>
    obtain ⟨⟨o, m, hget, ho, hm⟩, -⟩ := hheld
    obtain ⟨c, hc, ho⟩ := hclass ho
    obtain ⟨c', hc', hm⟩ := hnamed hm
    exact ⟨_, .interfaceMethodRef hc ho hc' hm, hget⟩

end PoolCall

/-! ## Pools with their tables -/

namespace IndexedPool

variable {call : PoolCall}

/-- A call leaves a pool with its tables as it is exactly when it leaves the pool. -/
theorem perform_eq_self_iff : call.perform (ofPool pool) = (.ok slot, ofPool pool) ↔
    call.request pool = (.ok slot, pool) := by
  rw [call.simulates pool]
  constructor
  · intro h
    obtain ⟨hanswer, hafter⟩ := Prod.mk.inj h
    have hpool := congrArg IndexedPool.pool hafter
    rw [ofPool_pool, ofPool_pool] at hpool
    exact Prod.ext hanswer hpool
  · intro h
    rw [h]

/-- A call for a text, a class, a name and type, a method or a string is answered without adding
anything exactly when its canonical constant is in the pool. The answer is then the lowest slot of
that constant, and it holds what was asked for. Where the pool has no text, no class and no name
and type twice, it is enough that some slot holds what is asked for. -/
theorem answered_from_pool_iff (hn : pool.Numbered) (hcall : call.isInterning = true) :
    let p := ofPool pool
    (∀ slot, call.perform p = (.ok slot, p) ↔ call.CanonicalAt pool slot) ∧
      (∀ slot, call.CanonicalAt pool slot → call.HeldAt pool slot) ∧
      (pool.WithoutCopies → ∀ slot, call.HeldAt pool slot →
        ∃ found, call.perform p = (.ok found, p)) := by
  have hanswer : ∀ slot, call.perform (ofPool pool) = (.ok slot, ofPool pool) ↔
      call.CanonicalAt pool slot := fun slot =>
    perform_eq_self_iff.trans (PoolCall.request_eq_self hn hcall)
  refine ⟨hanswer, fun slot hslot => ?_, fun hcopies slot hheld => ?_⟩
  · exact PoolCall.heldAt_of_request hn ((PoolCall.request_eq_self hn hcall).mpr hslot)
  · obtain ⟨c, hc, hget⟩ := PoolCall.canonical_of_heldAt hcopies hcall hheld
    obtain ⟨lowest, hlowest⟩ := exists_isLowest_of_get hn hget
    exact ⟨lowest, (hanswer lowest).mpr ⟨c, hc, hlowest⟩⟩

/-- The name of a class in two slots, and a class of that name by each of them. -/
def sharedPool : ConstantPool :=
  ⟨#[.utf8 "java/lang/Error", .utf8 "java/lang/Error", .classRef 2, .classRef 1]⟩

/-- The class by the lower name is the answer, although it stands in the higher slot. -/
theorem answered_from_pool_iff_shared :
    sharedPool.Numbered ∧ (PoolCall.classRef "java/lang/Error").isInterning = true ∧
      (PoolCall.classRef "java/lang/Error").CanonicalAt sharedPool 4 ∧
      (PoolCall.classRef "java/lang/Error").perform (ofPool sharedPool) =
        (.ok 4, ofPool sharedPool) := by
  have hn : sharedPool.Numbered := (by decide : sharedPool.size ≤ 65535)
  have hname : sharedPool.IsLowest 1 (.utf8 "java/lang/Error") :=
    (find?_eq_some_iff_isLowest hn (by simp)).mp (by decide +kernel)
  have hclass : sharedPool.IsLowest 4 (.classRef 1) :=
    (find?_eq_some_iff_isLowest hn (by simp)).mp (by decide +kernel)
  have hcanonical : (PoolCall.classRef "java/lang/Error").CanonicalAt sharedPool 4 :=
    ⟨_, .classRef hname, hclass⟩
  exact ⟨hn, rfl, hcanonical, ((answered_from_pool_iff hn rfl).1 4).mpr hcanonical⟩

/-- The name of a class in two slots, and the class twice by the higher one. -/
def twinPool : ConstantPool :=
  ⟨#[.utf8 "java/lang/Error", .utf8 "java/lang/Error", .classRef 2, .classRef 2]⟩

/-- Two slots hold the class, and a call for it adds it once more. -/
theorem not_answered_from_twinPool :
    twinPool.Numbered ∧ (PoolCall.classRef "java/lang/Error").HeldAt twinPool 3 ∧
      ((PoolCall.classRef "java/lang/Error").perform (ofPool twinPool)).1 = .ok 5 ∧
      ((PoolCall.classRef "java/lang/Error").perform (ofPool twinPool)).2.pool =
        ⟨twinPool.constants.push (.classRef 1)⟩ ∧
      ¬ ∃ slot, (PoolCall.classRef "java/lang/Error").perform (ofPool twinPool) =
        (.ok slot, ofPool twinPool) := by
  have hadded : ((PoolCall.classRef "java/lang/Error").perform (ofPool twinPool)).2.pool =
      ⟨twinPool.constants.push (.classRef 1)⟩ := by decide +kernel
  have hheld : twinPool.className 3 = .ok "java/lang/Error" := by decide +kernel
  have hn : twinPool.Numbered := (by decide : twinPool.size ≤ 65535)
  refine ⟨hn, hheld, by decide +kernel, hadded, ?_⟩
  rintro ⟨slot, hsame⟩
  rw [hsame, ofPool_pool] at hadded
  exact absurd (congrArg ConstantPool.size hadded) (by decide)

end IndexedPool

end JvmStub
