/-
`Interning.lean` -- what a request to a pool adds and what it answers.

Three things are shown of the requests that intern a constant.

First, whatever the outcome, the pool has grown by harmless constants only:
`Grown` says that each of them is narrow, refers to constants of the kinds it
needs, and, if it is a text, is one of those the request was about.

Second, the answer resolves to what was asked for.

Third, a request that has succeeded is settled: asked again of any later pool it
adds nothing and gives the same answer. This is what lets a slot that was written
early be read off the final pool. A request that has not succeeded found the pool
full. Both hold of everything that is made of requests for narrow constants:
`Interns` is that class of requests.
-/
import JvmStub.Check.Pool
import JvmStub.Proofs.Pool.Growth

set_option autoImplicit false

namespace JvmStub

/-- Every reference of the constant leads to a constant of the kind it needs. -/
def Constant.ReferencesHold (pool : ConstantPool) (c : Constant) : Prop :=
  ∀ r ∈ c.references, ∃ found, pool.get r.1 = .ok found ∧ r.2 found = true

/-- The references of a constant go on holding in a pool that grows. -/
theorem Constant.ReferencesHold.mono {pool later : ConstantPool} {c : Constant}
    (h : c.ReferencesHold pool) (hg : pool.GrowsInto later) : c.ReferencesHold later := by
  intro r hr
  obtain ⟨found, hget, hkind⟩ := h r hr
  exact ⟨found, hg.get hget, hkind⟩

namespace ConstantPool

/-! ## Growth by harmless constants -/

/-- A constant that a request may add: its text, if it is one, is among `texts`. -/
structure Harmless (texts : String → Prop) (pool : ConstantPool) (c : Constant) : Prop where
  narrow : c.isWide = false
  usable : c ≠ .unusable
  static : c.isDynamic = false
  referencesHold : c.ReferencesHold pool
  text : ∀ t, c = .utf8 t → texts t

/-- The later pool has harmless constants behind those of the earlier one, and was refused
whatever would not fit. -/
structure Grown (texts : String → Prop) (pool later : ConstantPool) : Prop where
  added : ∃ added, later.constants.toList = pool.constants.toList ++ added ∧
    ∀ c ∈ added, Harmless texts later c
  bounded : later.size ≤ max pool.size maxSize

variable {texts : String → Prop} {pool later last : ConstantPool} {c : Constant} {slot : Slot}

theorem Harmless.mono (h : Harmless texts pool c) (hg : pool.GrowsInto later) :
    Harmless texts later c :=
  { h with referencesHold := h.referencesHold.mono hg }

theorem Grown.refl (texts : String → Prop) (pool : ConstantPool) : Grown texts pool pool where
  added := ⟨[], by simp⟩
  bounded := Nat.le_max_left _ _

/-- Harmless constants stand behind those that were there. -/
theorem Grown.growsInto (h : Grown texts pool later) : pool.GrowsInto later := by
  obtain ⟨added, hadded, -⟩ := h.added
  exact ⟨added, hadded.symm⟩

/-- Growing by harmless constants twice is growing by harmless constants. -/
theorem Grown.trans (h : Grown texts pool later) (h' : Grown texts later last) :
    Grown texts pool last := by
  obtain ⟨added, hadded, hharmless⟩ := h.added
  obtain ⟨added', hadded', hharmless'⟩ := h'.added
  constructor
  · refine ⟨added ++ added', by rw [hadded', hadded, List.append_assoc], ?_⟩
    intro c hc
    -- what was added first is still harmless when the rest has been added
    rcases List.mem_append.mp hc with hc | hc
    · exact (hharmless c hc).mono h'.growsInto
    · exact hharmless' c hc
  · have hle := h.bounded
    have hle' := h'.bounded
    omega

/-- A pool does not grow out of its numbers: what would not fit was refused. -/
theorem Grown.numbered (h : Grown texts pool later) (hn : pool.Numbered) : later.Numbered := by
  have hle := h.bounded
  unfold Numbered at hn ⊢
  unfold maxSize at hle
  omega

/-- Appending a harmless constant that fits. -/
theorem grown_append (hc : Harmless texts pool c) (hfits : pool.size < maxSize) :
    Grown texts pool (pool.append c) := by
  have happend : (pool.append c).constants.toList = pool.constants.toList ++ [c] := by
    simp [append, hc.narrow]
  constructor
  · refine ⟨[c], happend, fun c' hc' => ?_⟩
    rw [List.mem_singleton.mp hc']
    exact hc.mono (growsInto_append pool c)
  · have hsize : (pool.append c).size = pool.size + 1 := by
      rw [size_append, Constant.width, hc.narrow]
      rfl
    omega

/-- The appended constant is found at its slot when there was none before. -/
theorem find?_append (hnarrow : c.isWide = false) (hnone : pool.find? c = none) :
    (pool.append c).find? c = some (slotAt pool.size) := by
  have hidx : pool.constants.findIdx? (· == c) = none := by
    simpa [find?] using hnone
  simp [find?, append, hnarrow, Array.findIdx?_push, hidx, size]

/-! ## Members -/

/-- The slot leads to the member, an interface's or a class's. -/
def HoldsMember (pool : ConstantPool) (slot : Slot) (member : MemberRef)
    (ofInterface : Bool) : Prop :=
  ∃ owner named, pool.get slot =
      .ok (if ofInterface then .interfaceMethodRef owner named else .methodRef owner named) ∧
    pool.className owner = .ok member.owner ∧
      pool.nameAndType named = .ok (member.name, member.descriptor)

theorem HoldsMember.mono {member : MemberRef} {ofInterface : Bool}
    (h : pool.HoldsMember slot member ofInterface) (hg : pool.GrowsInto later) :
    later.HoldsMember slot member ofInterface := by
  obtain ⟨owner, named, hget, howner, hnamed⟩ := h
  exact ⟨owner, named, hg.get hget, hg.className howner, hg.nameAndType hnamed⟩

/-- Either kind of reference resolves to the member. -/
theorem HoldsMember.memberRef {member : MemberRef} {ofInterface : Bool}
    (h : pool.HoldsMember slot member ofInterface) : pool.memberRef slot = .ok member := by
  obtain ⟨owner, named, hget, howner, hnamed⟩ := h
  unfold ConstantPool.memberRef
  refine except_bind_eq_ok.mpr ⟨_, hget, ?_⟩
  cases ofInterface <;>
    exact except_bind_eq_ok.mpr ⟨_, howner, except_bind_eq_ok.mpr ⟨_, hnamed, rfl⟩⟩

end ConstantPool

/-! ## Outcomes of requests -/

namespace PoolM

open ConstantPool

variable {texts : String → Prop} {pool later : ConstantPool} {c : Constant} {slot : Slot}

/-- A sequence of requests grows the pool as its parts do, also when it stops midway. -/
theorem grown_bind {α β : Type} {x : PoolM α} {f : α → PoolM β} (hn : pool.Numbered)
    (hx : Grown texts pool (x pool).2)
    (hf : ∀ a later, x pool = (.ok a, later) → later.Numbered → Grown texts later (f a later).2) :
    Grown texts pool ((x >>= f) pool).2 := by
  refine bind_state (fun h h' => h.trans h') hx fun a later hrun => hf a later hrun ?_
  rw [hrun] at hx
  exact hx.numbered hn

/-- The request only grows the pool, and asked again of any later pool it adds nothing and gives
the same answer. -/
def Settles {α : Type} (r : PoolM α) : Prop :=
  ∀ pool x later, r pool = (.ok x, later) →
    pool.GrowsInto later ∧ ∀ after, later.GrowsInto after → r after = (.ok x, after)

/-- A request that asks for nothing adds nothing. -/
theorem settles_pure {α : Type} (x : α) : Settles (pure x : PoolM α) := by
  intro pool y later h
  cases h
  exact ⟨GrowsInto.refl _, fun after _ => rfl⟩

/-- Two requests one after the other settle if both do, whatever the first has answered. -/
theorem Settles.bind {α β : Type} {x : PoolM α} {f : α → PoolM β} (hx : Settles x)
    (hf : ∀ a, Settles (f a)) : Settles (x >>= f) := by
  intro pool b last h
  obtain ⟨a, later, hxa, hfb⟩ := bind_eq_ok.mp h
  obtain ⟨hgrow, hagain⟩ := hx pool a later hxa
  obtain ⟨hgrow', hagain'⟩ := hf a later b last hfb
  refine ⟨hgrow.trans hgrow', fun after hafter => ?_⟩
  -- any pool after the second request is one after the first
  rw [bind_of_ok (hagain after (hgrow'.trans hafter))]
  exact hagain' after hafter

/-! ## Interning a constant -/

/-- A constant that the pool holds is answered with its lowest slot. -/
theorem intern_of_find? (h : pool.find? c = some slot) : intern c pool = (.ok slot, pool) := by
  simp [intern, h]

/-- The outcomes of a push: the constant is appended where it fits. -/
theorem push_cases (c : Constant) (pool : ConstantPool) :
    (pool.size + c.width ≤ maxSize ∧ push c pool = (.ok (slotAt pool.size), pool.append c)) ∨
    (maxSize < pool.size + c.width ∧ push c pool = (.error .outOfSpace, pool)) := by
  by_cases hfull : maxSize < pool.size + c.width
  · exact .inr ⟨hfull, by simp [push, hfull]⟩
  · exact .inl ⟨Nat.le_of_not_lt hfull, by simp [push, hfull]⟩

/-- The outcomes of interning a narrow constant: it was there, it was added, or it did not fit. -/
theorem intern_cases (pool : ConstantPool) (hnarrow : c.isWide = false) :
    (∃ slot, pool.find? c = some slot ∧ intern c pool = (.ok slot, pool)) ∨
    (pool.find? c = none ∧ pool.size < maxSize ∧
      intern c pool = (.ok (slotAt pool.size), pool.append c)) ∨
    (pool.find? c = none ∧ maxSize ≤ pool.size ∧ intern c pool = (.error .outOfSpace, pool)) := by
  cases hfind : pool.find? c with
  | some slot => exact .inl ⟨slot, rfl, intern_of_find? hfind⟩
  | none =>
    have hpush : intern c pool = push c pool := by simp [intern, hfind]
    -- one slot is asked for, so there is room exactly below the limit
    have hwidth : c.width = 1 := by simp [Constant.width, hnarrow]
    rw [hpush]
    obtain ⟨hfits, heq⟩ | ⟨hfull, heq⟩ := push_cases c pool
    · rw [hwidth] at hfits
      exact .inr (.inl ⟨rfl, hfits, heq⟩)
    · rw [hwidth] at hfull
      exact .inr (.inr ⟨rfl, Nat.le_of_lt_succ hfull, heq⟩)

/-- The answer is the lowest slot of the constant. -/
theorem find?_of_intern (hnarrow : c.isWide = false) (h : intern c pool = (.ok slot, later)) :
    later.find? c = some slot := by
  obtain ⟨found, hfind, heq⟩ | ⟨hnone, -, heq⟩ | ⟨-, -, heq⟩ := intern_cases pool hnarrow
  · rw [heq] at h
    cases h
    exact hfind
  · rw [heq] at h
    cases h
    exact find?_append hnarrow hnone
  · rw [heq] at h
    cases h

/-- A constant that is interned takes the place of none that was there. -/
theorem growsInto_of_intern (hnarrow : c.isWide = false)
    (h : intern c pool = (.ok slot, later)) : pool.GrowsInto later := by
  obtain ⟨found, -, heq⟩ | ⟨-, -, heq⟩ | ⟨-, -, heq⟩ := intern_cases pool hnarrow
  · rw [heq] at h
    cases h
    exact GrowsInto.refl pool
  · rw [heq] at h
    cases h
    exact growsInto_append pool c
  · rw [heq] at h
    cases h

/-- A constant of one slot that was interned is found again, so that a second request changes
nothing. -/
theorem settles_intern (hnarrow : c.isWide = false) : Settles (intern c) := by
  intro pool slot later h
  refine ⟨growsInto_of_intern hnarrow h, fun after hafter => ?_⟩
  exact intern_of_find? (hafter.find? (find?_of_intern hnarrow h))

/-- A narrow constant that is refused found the pool full. -/
theorem intern_eq_error {e : PoolError} (hnarrow : c.isWide = false)
    (h : intern c pool = (.error e, later)) : e = .outOfSpace := by
  obtain ⟨found, -, heq⟩ | ⟨-, -, heq⟩ | ⟨-, -, heq⟩ := intern_cases pool hnarrow
  · cases heq.symm.trans h
  · cases heq.symm.trans h
  · cases heq.symm.trans h
    rfl

/-- The request is made of requests for narrow constants. -/
inductive Interns : {α : Type} → PoolM α → Prop
  | pure {α : Type} (x : α) : Interns (pure x : PoolM α)
  | intern {c : Constant} (hnarrow : c.isWide = false) : Interns (intern c)
  | bind {α β : Type} {x : PoolM α} {f : α → PoolM β} (hx : Interns x)
      (hf : ∀ a, Interns (f a)) : Interns (x >>= f)

section

variable {α : Type} {x : PoolM α}

/-- All that is made of narrow constants settles. -/
theorem Interns.settles (h : Interns x) : Settles x := by
  induction h with
  | pure a => exact settles_pure a
  | intern hnarrow => exact settles_intern hnarrow
  | bind _ _ ihx ihf => exact ihx.bind ihf

/-- A request that succeeds has grown the pool. -/
theorem Interns.growsInto (hx : Interns x) {a : α} (h : x pool = (.ok a, later)) :
    pool.GrowsInto later := (hx.settles pool a later h).1

/-- Asked again of a later pool, it adds nothing and gives the same answer. -/
theorem Interns.again (hx : Interns x) {a : α} {last : ConstantPool} (h : x pool = (.ok a, later))
    (hg : later.GrowsInto last) : x last = (.ok a, last) := (hx.settles pool a later h).2 last hg

/-- A request that fails found the pool full. -/
theorem Interns.eq_outOfSpace (hx : Interns x) {e : PoolError} (h : x pool = (.error e, later)) :
    e = .outOfSpace := by
  induction hx generalizing pool with
  | pure a => cases h
  | intern hnarrow => exact intern_eq_error hnarrow h
  | bind _ _ ihx ihf =>
    rcases bind_eq_error.mp h with hfirst | ⟨a, mid, -, hrest⟩
    · exact ihx hfirst
    · exact ihf a hrest

end

/-- Interning a harmless constant adds that constant or nothing. -/
theorem grown_intern (hc : Harmless texts pool c) : Grown texts pool (intern c pool).2 := by
  obtain ⟨found, -, heq⟩ | ⟨-, hfits, heq⟩ | ⟨-, -, heq⟩ := intern_cases pool hc.narrow
  · rw [heq]
    exact Grown.refl texts pool
  · rw [heq]
    exact grown_append hc hfits
  · rw [heq]
    exact Grown.refl texts pool

/-! ## The requests of a stub -/

/-- A request for a text is one constant. -/
theorem interns_addUtf8 (text : String) : Interns (addUtf8 text) := .intern rfl

/-- A request for a class is two constants, of which the second refers to the first. -/
theorem interns_addClass (name : String) : Interns (addClass name) :=
  (interns_addUtf8 name).bind fun _ => .intern rfl

/-- A request for a name with its type is three constants. -/
theorem interns_addNameAndType (name descriptor : String) :
    Interns (addNameAndType name descriptor) :=
  (interns_addUtf8 name).bind fun _ => (interns_addUtf8 descriptor).bind fun _ => .intern rfl

/-- A request for an allowed text adds only harmless constants. -/
theorem grown_addUtf8 {text : String} (ht : texts text) :
    Grown texts pool (addUtf8 text pool).2 := by
  refine grown_intern ⟨rfl, by simp, rfl, ?_, ?_⟩
  · intro r hr
    simp [Constant.references] at hr
  · intro t heq
    cases heq
    exact ht

/-- The answer to a request for a text holds the text. -/
theorem utf8_of_addUtf8 {text : String} (hn : later.Numbered)
    (h : addUtf8 text pool = (.ok slot, later)) : later.utf8 slot = .ok text :=
  utf8_eq_ok.mpr (get_of_find? hn (by simp) (find?_of_intern rfl h))

/-- A request for a class adds only harmless constants: the class refers to the text in front of it.
-/
theorem grown_addClass {name : String} (hn : pool.Numbered) (ht : texts name) :
    Grown texts pool (addClass name pool).2 := by
  refine grown_bind hn (grown_addUtf8 ht) fun n later hadd hlater => ?_
  refine grown_intern ⟨rfl, by simp, rfl, ?_, by simp⟩
  intro r hr
  simp only [Constant.references, List.mem_singleton] at hr
  subst hr
  exact ⟨_, utf8_eq_ok.mp (utf8_of_addUtf8 hlater hadd), rfl⟩

/-- The answer to a request for a class is found by way of the name. -/
theorem find?_of_addClass {name : String} (h : addClass name pool = (.ok slot, later)) :
    ∃ n, later.find? (.utf8 name) = some n ∧ later.find? (.classRef n) = some slot := by
  obtain ⟨n, mid, hadd, hintern⟩ := bind_eq_ok.mp h
  have hgrow := growsInto_of_intern rfl hintern
  exact ⟨n, hgrow.find? (find?_of_intern rfl hadd), find?_of_intern rfl hintern⟩

/-- The answer to a request for a class holds the class. -/
theorem className_of_addClass {name : String} (hn : later.Numbered)
    (h : addClass name pool = (.ok slot, later)) : later.className slot = .ok name := by
  obtain ⟨n, hname, hclass⟩ := find?_of_addClass h
  refine className_eq_ok.mpr ⟨n, get_of_find? hn (by simp) hclass, ?_⟩
  exact utf8_eq_ok.mpr (get_of_find? hn (by simp) hname)

theorem grown_addNameAndType {name descriptor : String} (hn : pool.Numbered) (ht : texts name)
    (ht' : texts descriptor) : Grown texts pool (addNameAndType name descriptor pool).2 := by
  refine grown_bind hn (grown_addUtf8 ht) fun n mid hname hmid => ?_
  refine grown_bind hmid (grown_addUtf8 ht') fun d later hdescriptor hlater => ?_
  refine grown_intern ⟨rfl, by simp, rfl, ?_, by simp⟩
  have hgrow := (interns_addUtf8 descriptor).growsInto hdescriptor
  intro r hr
  simp only [Constant.references, List.mem_cons, List.not_mem_nil, or_false] at hr
  rcases hr with rfl | rfl
  · exact ⟨_, utf8_eq_ok.mp (hgrow.utf8 (utf8_of_addUtf8 hmid hname)), rfl⟩
  · exact ⟨_, utf8_eq_ok.mp (utf8_of_addUtf8 hlater hdescriptor), rfl⟩

/-- The answer to a request for a name and type is found by way of both. -/
theorem find?_of_addNameAndType {name descriptor : String}
    (h : addNameAndType name descriptor pool = (.ok slot, later)) :
    ∃ n d, later.find? (.utf8 name) = some n ∧ later.find? (.utf8 descriptor) = some d ∧
      later.find? (.nameAndType n d) = some slot := by
  obtain ⟨n, mid, hname, h⟩ := bind_eq_ok.mp h
  obtain ⟨d, mid', hdescriptor, hintern⟩ := bind_eq_ok.mp h
  have hgrow := growsInto_of_intern rfl hdescriptor
  have hgrow' := growsInto_of_intern rfl hintern
  refine ⟨n, d, ?_, hgrow'.find? (find?_of_intern rfl hdescriptor), find?_of_intern rfl hintern⟩
  exact (hgrow.trans hgrow').find? (find?_of_intern rfl hname)

/-- The answer to a request for a name and type holds both. -/
theorem nameAndType_of_addNameAndType {name descriptor : String} (hn : later.Numbered)
    (h : addNameAndType name descriptor pool = (.ok slot, later)) :
    later.nameAndType slot = .ok (name, descriptor) := by
  obtain ⟨n, d, hname, hdescriptor, hnamed⟩ := find?_of_addNameAndType h
  refine nameAndType_eq_ok.mpr ⟨n, d, get_of_find? hn (by simp) hnamed, ?_, ?_⟩
  · exact utf8_eq_ok.mpr (get_of_find? hn (by simp) hname)
  · exact utf8_eq_ok.mpr (get_of_find? hn (by simp) hdescriptor)

/-- A class or a name and type, found where a member reference needs it. -/
theorem get_of_nameAndType {name descriptor : String}
    (h : pool.nameAndType slot = .ok (name, descriptor)) :
    ∃ found, pool.get slot = .ok found ∧ found.isNameAndType = true := by
  obtain ⟨n, d, hget, -⟩ := nameAndType_eq_ok.mp h
  exact ⟨_, hget, rfl⟩

/-- A class that has a name is a constant of that kind. -/
theorem get_of_className {name : String} (h : pool.className slot = .ok name) :
    ∃ found, pool.get slot = .ok found ∧ found.isClass = true := by
  obtain ⟨n, hget, -⟩ := className_eq_ok.mp h
  exact ⟨_, hget, rfl⟩

/-- The slot of a method that an interface or a class owns. -/
def addMember (member : MemberRef) (ofInterface : Bool) : PoolM Slot :=
  if ofInterface then addInterfaceMethodRef member.owner member.name member.descriptor
  else addMethodRef member.owner member.name member.descriptor

/-- Both kinds of request ask for the owner and for the name and type first. -/
theorem addMember_eq (member : MemberRef) (ofInterface : Bool) :
    addMember member ofInterface = (do
      let owner ← addClass member.owner
      let named ← addNameAndType member.name member.descriptor
      intern (if ofInterface then .interfaceMethodRef owner named else .methodRef owner named)) := by
  cases ofInterface <;> rfl

/-- A request for a member interns its owner, its name and type, and the reference, all of them
narrow. -/
theorem interns_addMember (member : MemberRef) (ofInterface : Bool) :
    Interns (addMember member ofInterface) := by
  rw [addMember_eq]
  refine (interns_addClass _).bind fun _ => (interns_addNameAndType _ _).bind fun _ => .intern ?_
  cases ofInterface <;> rfl

/-- A request for a member adds only harmless constants. -/
theorem grown_addMember {member : MemberRef} {ofInterface : Bool} (hn : pool.Numbered)
    (howner : texts member.owner) (hname : texts member.name)
    (hdescriptor : texts member.descriptor) :
    Grown texts pool (addMember member ofInterface pool).2 := by
  rw [addMember_eq]
  refine grown_bind hn (grown_addClass hn howner) fun o mid hclass hmid => ?_
  refine grown_bind hmid (grown_addNameAndType hmid hname hdescriptor) fun m later hnamed hlater =>
    ?_
  have hgrow := (interns_addNameAndType _ _).growsInto hnamed
  -- the kinds of reference are references to the same two constants
  have hreferences : ∀ r ∈ (if ofInterface then Constant.interfaceMethodRef o m
      else .methodRef o m).references, ∃ found, later.get r.1 = .ok found ∧ r.2 found = true := by
    intro r hr
    have hr : r = (o, Constant.isClass) ∨ r = (m, Constant.isNameAndType) := by
      cases ofInterface <;> simpa [Constant.references] using hr
    rcases hr with rfl | rfl
    · exact get_of_className (hgrow.className (className_of_addClass hmid hclass))
    · exact get_of_nameAndType (nameAndType_of_addNameAndType hlater hnamed)
  refine grown_intern ⟨?_, ?_, ?_, hreferences, ?_⟩ <;> cases ofInterface <;> simp [
    Constant.isWide, Constant.isDynamic]

/-- The answer to a request for a member holds the member. -/
theorem holdsMember_of_addMember {member : MemberRef} {ofInterface : Bool} (hn : later.Numbered)
    (h : addMember member ofInterface pool = (.ok slot, later)) :
    later.HoldsMember slot member ofInterface := by
  rw [addMember_eq] at h
  obtain ⟨o, mid, howner, h⟩ := bind_eq_ok.mp h
  obtain ⟨m, mid', hnamed, hintern⟩ := bind_eq_ok.mp h
  have hnarrow : (if ofInterface then Constant.interfaceMethodRef o m
      else .methodRef o m).isWide = false := by
    cases ofInterface <;> rfl
  have hgrow := growsInto_of_intern hnarrow hintern
  have hmid' : mid'.Numbered := Nat.le_trans hgrow.size_le hn
  have hgrow' := (interns_addNameAndType _ _).growsInto hnamed
  have hmid : mid.Numbered := Nat.le_trans hgrow'.size_le hmid'
  refine ⟨o, m, get_of_find? hn ?_ (find?_of_intern hnarrow hintern), ?_, ?_⟩
  · cases ofInterface <;> simp
  · exact hgrow.className (hgrow'.className (className_of_addClass hmid howner))
  · exact hgrow.nameAndType (nameAndType_of_addNameAndType hmid' hnamed)

/-- A text that an earlier pool held is answered with the slot that stood for it there. -/
theorem addUtf8_of_utf8 {text : String} (hg : pool.GrowsInto later)
    (h : pool.utf8 slot = .ok text) : addUtf8 text later = (.ok (pool.textSlot text), later) :=
  intern_of_find? (hg.find? (find?_textSlot h))

/-! ## Hints

A hint that still holds what it stood for is the answer, and nothing is added. -/

/-- A slot that has the text is the answer, and nothing is added. -/
theorem utf8At_of_utf8 {text : String} (h : pool.utf8 slot = .ok text) :
    utf8At (some slot) text pool = (.ok slot, pool) := by
  simp [utf8At, holdsUtf8_iff.mpr h]

theorem classAt_of_className {name : String} (h : pool.className slot = .ok name) :
    classAt (some slot) name pool = (.ok slot, pool) := by
  simp [classAt, holdsClass_iff.mpr h]

/-- Slots that have the classes are the answers, and nothing is added. -/
theorem classesOnto_of_classNames (given : Array Slot) {hints : List Slot} {names : List String}
    (h : List.Forall₂ (fun slot name => pool.className slot = .ok name) hints names) :
    classesOnto given hints names pool = (.ok (given ++ hints), pool) := by
  induction h generalizing given with
  | nil => simp [classesOnto]
  | @cons slot name hints names hname _ ih =>
    rw [classesOnto, List.head?_cons, bind_of_ok (classAt_of_className hname), List.tail_cons, ih]
    simp

/-- Classes whose hints all hold them keep their slots. -/
theorem classesAt_of_classNames {hints : List Slot} {names : List String}
    (h : List.Forall₂ (fun slot name => pool.className slot = .ok name) hints names) :
    classesAt hints names pool = (.ok hints.toArray, pool) := by
  rw [classesAt, classesOnto_of_classNames #[] h]
  simp

end PoolM

end JvmStub
