/-
`Calls.lean` -- pools under any sequence of calls.

A pool starts out as any constants whatever, duplicated or referring to nothing,
and is then called on in any order; some calls are refused for want of space, and
may have added constants before they were. What is shown of every pool that comes
about in this way is that its tables give the lowest slot of each constant and are
those that would be entered afresh, that it has not outgrown its limit, and that a
slot once given out holds what was asked for from then on.

The work is in the requests to a plain pool, where there is no table to keep. A
request extends the pool whatever comes of it (`Extends`), also where it is made
of several. `PoolCall.simulates` carries that over to a pool with tables, and what a
run of calls does follows from what one call does.
-/
import JvmStub.Proofs.Pool.Hints
import JvmStub.Proofs.Pool.Indexed

set_option autoImplicit false

namespace JvmStub

/-! ## The lowest slot of a constant -/

namespace ConstantPool

variable {pool later last : ConstantPool} {slot : Slot} {c : Constant}

/-- The slot is the lowest that holds the constant. -/
def IsLowest (pool : ConstantPool) (slot : Slot) (c : Constant) : Prop :=
  pool.get slot = .ok c ∧ ∀ other, pool.get other = .ok c → slot ≤ other

/-- A search finds the lowest slot, and finds nothing where no slot holds the constant. -/
theorem find?_eq_some_iff_isLowest (hn : pool.Numbered) (hu : c ≠ .unusable) :
    pool.find? c = some slot ↔ pool.IsLowest slot c := by
  constructor
  · intro h
    refine ⟨get_of_find? hn hu h, fun other hother => ?_⟩
    obtain ⟨found, hfound, hle⟩ := find?_le_of_get hother
    cases h.symm.trans hfound
    exact hle hn
  · rintro ⟨hget, hleast⟩
    obtain ⟨found, hfound, hle⟩ := find?_le_of_get hget
    have hsame : found = slot :=
      UInt16.le_antisymm (hle hn) (hleast found (get_of_find? hn hu hfound))
    rw [hfound, hsame]

/-! ## Extending a pool -/

/-- The later pool has more constants behind those of the earlier one, as far as they fit. -/
structure Extends (pool later : ConstantPool) : Prop where
  growsInto : pool.GrowsInto later
  bounded : pool.size ≤ maxSize → later.size ≤ maxSize

theorem Extends.refl (pool : ConstantPool) : Extends pool pool := ⟨.refl pool, id⟩

theorem Extends.trans (h : Extends pool later) (h' : Extends later last) : Extends pool last :=
  ⟨h.growsInto.trans h'.growsInto, fun hfits => h'.bounded (h.bounded hfits)⟩

end ConstantPool

open ConstantPool

namespace PoolM

variable {α : Type} {x : PoolM α} {pool later : ConstantPool} {slot : Slot} {c : Constant}
  {e : PoolError}

/-- Appending a constant extends a pool. -/
theorem extends_push (c : Constant) (pool : ConstantPool) : Extends pool (push c pool).2 := by
  obtain ⟨hfits, heq⟩ | ⟨-, heq⟩ := push_cases c pool
  · rw [heq]
    refine ⟨growsInto_append pool c, fun _ => ?_⟩
    rwa [size_append]
  · rw [heq]
    exact .refl pool

theorem extends_intern (c : Constant) (pool : ConstantPool) : Extends pool (intern c pool).2 := by
  unfold intern
  split
  · exact .refl pool
  · exact extends_push c pool

/-- Requests that are made of others extend the pool as these do, also where they stop midway. -/
theorem Interns.extends (hx : Interns x) (pool : ConstantPool) : Extends pool (x pool).2 := by
  induction hx generalizing pool with
  | pure a => exact .refl pool
  | intern _ => exact extends_intern _ pool
  | bind _ _ ihx ihf => exact bind_state .trans (ihx pool) fun a later _ => ihf a later

/-- A request that is refused leaves a full pool. -/
theorem Interns.full (hx : Interns x) (h : x pool = (.error e, later)) : maxSize ≤ later.size := by
  induction hx generalizing pool with
  | pure a => cases h
  | @intern c hnarrow =>
    obtain ⟨found, -, heq⟩ | ⟨-, -, heq⟩ | ⟨-, hfull, heq⟩ := intern_cases pool hnarrow
    · cases heq.symm.trans h
    · cases heq.symm.trans h
    · cases heq.symm.trans h
      exact hfull
  | bind _ _ ihx ihf =>
    rcases bind_eq_error.mp h with hfirst | ⟨a, mid, -, hrest⟩
    · exact ihx hfirst
    · exact ihf a hrest

/-! ## What the requests ask for -/

/-- A hint for a text is taken where it holds the text, and is no matter otherwise. -/
theorem utf8At_cases (hint : Option Slot) (text : String) (pool : ConstantPool) :
    (∃ slot, utf8At hint text pool = (.ok slot, pool)) ∨
      utf8At hint text pool = addUtf8 text pool := by
  cases hint with
  | none => exact .inr rfl
  | some slot =>
    unfold utf8At
    by_cases hholds : pool.holdsUtf8 slot text = true
    · exact .inl ⟨slot, if_pos hholds⟩
    · exact .inr (if_neg hholds)

/-- A hint for a class is taken where it holds the class, and is no matter otherwise. -/
theorem classAt_cases (hint : Option Slot) (name : String) (pool : ConstantPool) :
    (∃ slot, classAt hint name pool = (.ok slot, pool)) ∨
      classAt hint name pool = addClass name pool := by
  cases hint with
  | none => exact .inr rfl
  | some slot =>
    unfold classAt
    by_cases hholds : pool.holdsClass slot name = true
    · exact .inl ⟨slot, if_pos hholds⟩
    · exact .inr (if_neg hholds)

/-- A request for a string interns its text, and then a constant of its own that refers to the text.
-/
theorem interns_addString (text : String) : Interns (addString text) :=
  (interns_addUtf8 text).bind fun _ => .intern rfl

/-- The answer to a request for a string constant leads to the text. -/
theorem get_of_addString {text : String} (hn : later.Numbered)
    (h : addString text pool = (.ok slot, later)) :
    ∃ t, later.get slot = .ok (.string t) ∧ later.utf8 t = .ok text := by
  obtain ⟨t, mid, hadd, hintern⟩ := bind_eq_ok.mp h
  have hgrow := growsInto_of_intern rfl hintern
  have hmid : mid.Numbered := Nat.le_trans hgrow.size_le hn
  exact ⟨t, get_of_find? hn (by simp) (find?_of_intern rfl hintern),
    hgrow.utf8 (utf8_of_addUtf8 hmid hadd)⟩

/-- The answer to a push is the slot of the constant, with the second slot of a wide one behind. -/
theorem get_of_push (hu : c ≠ .unusable) (hn : later.Numbered)
    (h : push c pool = (.ok slot, later)) : later.get slot = .ok c ∧
      (c.isWide = true → later.constants.toList[slot.toNat]? = some .unusable) := by
  obtain ⟨hfits, heq⟩ | ⟨-, heq⟩ := push_cases c pool
  · cases heq.symm.trans h
    have hlt : pool.size < 65535 := by
      unfold maxSize at hfits
      omega
    have hsize : pool.constants.toList.length = pool.size := Array.length_toList
    constructor
    · refine get_slotAt hlt ?_ hu
      unfold append
      split <;> simp [← hsize]
    · intro hwide
      rw [toNat_slotAt hlt]
      simp [append, hwide, ← hsize]
  · cases heq.symm.trans h

end PoolM

/-! ## One call -/

namespace PoolCall

open PoolM

variable {call : PoolCall} {pool later : ConstantPool} {slot : Slot}

/-- The slot holds what the call asks for. -/
def HeldAt (pool : ConstantPool) (slot : Slot) : PoolCall → Prop
  | utf8 text | utf8At _ text => pool.utf8 slot = .ok text
  | classRef name | classAt _ name => pool.className slot = .ok name
  | string text => ∃ t, pool.get slot = .ok (.string t) ∧ pool.utf8 t = .ok text
  | nameAndType name descriptor => pool.nameAndType slot = .ok (name, descriptor)
  | methodRef owner name descriptor =>
    pool.HoldsMember slot ⟨owner, name, descriptor⟩ false ∧
      pool.memberRef slot = .ok ⟨owner, name, descriptor⟩
  | interfaceMethodRef owner name descriptor =>
    pool.HoldsMember slot ⟨owner, name, descriptor⟩ true ∧
      pool.memberRef slot = .ok ⟨owner, name, descriptor⟩
  | integer value => pool.get slot = .ok (.integer value)
  | long value => pool.get slot = .ok (.long value) ∧
      pool.constants.toList[slot.toNat]? = some .unusable

/-- A call for a constant that is not added twice, without a hint. -/
def isInterning : PoolCall → Bool
  | integer _ | long _ | utf8At _ _ | classAt _ _ => false
  | _ => true

theorem HeldAt.mono (h : call.HeldAt pool slot) (hg : pool.GrowsInto later) :
    call.HeldAt later slot := by
  cases call with
  | utf8 text => exact hg.utf8 h
  | classRef name => exact hg.className h
  | string text =>
    obtain ⟨t, hget, htext⟩ := h
    exact ⟨t, hg.get hget, hg.utf8 htext⟩
  | nameAndType name descriptor => exact hg.nameAndType h
  | methodRef owner name descriptor => exact ⟨h.1.mono hg, (h.1.mono hg).memberRef⟩
  | interfaceMethodRef owner name descriptor => exact ⟨h.1.mono hg, (h.1.mono hg).memberRef⟩
  | integer value => exact hg.get h
  | long value => exact ⟨hg.get h.1, hg.getElem? h.2⟩
  | utf8At hint text => exact hg.utf8 h
  | classAt hint name => exact hg.className h

/-- A call that appends no number and goes by no hint is made of interned constants. -/
theorem interns_request (h : call.isInterning = true) : Interns call.request := by
  cases call with
  | utf8 text => exact interns_addUtf8 text
  | classRef name => exact interns_addClass name
  | string text => exact interns_addString text
  | nameAndType name descriptor => exact interns_addNameAndType name descriptor
  | methodRef owner name descriptor => exact interns_addMember ⟨owner, name, descriptor⟩ false
  | interfaceMethodRef owner name descriptor =>
    exact interns_addMember ⟨owner, name, descriptor⟩ true
  | integer _ | long _ | utf8At _ _ | classAt _ _ => cases h

/-- Any call extends the pool, granted or refused. -/
theorem extends_request (call : PoolCall) (pool : ConstantPool) :
    Extends pool (call.request pool).2 := by
  cases call with
  | integer value => exact extends_push _ pool
  | long value => exact extends_push _ pool
  | utf8At hint text =>
    obtain ⟨slot, heq⟩ | heq := utf8At_cases hint text pool
    · rw [request, heq]
      exact .refl pool
    · rw [request, heq]
      exact (interns_addUtf8 text).extends pool
  | classAt hint name =>
    obtain ⟨slot, heq⟩ | heq := classAt_cases hint name pool
    · rw [request, heq]
      exact .refl pool
    · rw [request, heq]
      exact (interns_addClass name).extends pool
  | _ => exact (interns_request rfl).extends pool

/-- A call that is refused has found no room: a long lacks one slot at least, the others find the
pool full. -/
theorem request_eq_error {e : PoolError} (h : call.request pool = (.error e, later)) :
    e = .outOfSpace ∧ maxSize ≤ later.size + 1 := by
  have hinterns : ∀ {x : PoolM Slot}, Interns x → x pool = (.error e, later) →
      e = .outOfSpace ∧ maxSize ≤ later.size + 1 := fun hx hrun =>
    ⟨hx.eq_outOfSpace hrun, Nat.le_succ_of_le (hx.full hrun)⟩
  have hpush : ∀ {c : Constant}, push c pool = (.error e, later) →
      e = .outOfSpace ∧ maxSize ≤ later.size + 1 := by
    intro c hrun
    obtain ⟨-, heq⟩ | ⟨hfull, heq⟩ := push_cases c pool
    · cases heq.symm.trans hrun
    · cases heq.symm.trans hrun
      have hwidth : c.width ≤ 2 := by
        unfold Constant.width
        split <;> omega
      exact ⟨rfl, by omega⟩
  cases call with
  | integer value => exact hpush h
  | long value => exact hpush h
  | utf8At hint text =>
    obtain ⟨slot, heq⟩ | heq := utf8At_cases hint text pool
    · cases heq.symm.trans h
    · exact hinterns (interns_addUtf8 text) (heq.symm.trans h)
  | classAt hint name =>
    obtain ⟨slot, heq⟩ | heq := classAt_cases hint name pool
    · cases heq.symm.trans h
    · exact hinterns (interns_addClass name) (heq.symm.trans h)
  | _ => exact hinterns (interns_request rfl) h

/-- The answer to a call holds what was asked for. -/
theorem heldAt_of_request (hn : later.Numbered) (h : call.request pool = (.ok slot, later)) :
    call.HeldAt later slot := by
  cases call with
  | utf8 text => exact utf8_of_addUtf8 hn h
  | classRef name => exact className_of_addClass hn h
  | string text => exact get_of_addString hn h
  | nameAndType name descriptor => exact nameAndType_of_addNameAndType hn h
  | methodRef owner name descriptor =>
    have hmember : later.HoldsMember slot ⟨owner, name, descriptor⟩ false :=
      holdsMember_of_addMember hn h
    exact ⟨hmember, hmember.memberRef⟩
  | interfaceMethodRef owner name descriptor =>
    have hmember : later.HoldsMember slot ⟨owner, name, descriptor⟩ true :=
      holdsMember_of_addMember hn h
    exact ⟨hmember, hmember.memberRef⟩
  | integer value => exact (get_of_push (by simp) hn h).1
  | long value =>
    obtain ⟨hget, hbehind⟩ := get_of_push (by simp) hn h
    exact ⟨hget, hbehind rfl⟩
  | utf8At hint text => exact utf8_of_utf8At hn h
  | classAt hint name => exact className_of_classAt hn h

end PoolCall

/-! ## Any sequence of calls -/

namespace IndexedPool

/-- The tables say exactly what the slots say. -/
structure Exact (p : IndexedPool) : Prop where
  texts : ∀ text slot, p.texts.find? text = some slot ↔ p.pool.IsLowest slot (.utf8 text)
  classes : ∀ name slot, p.classes.find? name = some slot ↔ p.pool.IsLowest slot (.classRef name)
  nameAndTypes : ∀ name descriptor slot, p.nameAndTypes.find? (name, descriptor) = some slot ↔
    p.pool.IsLowest slot (.nameAndType name descriptor)
  methodRefs : ∀ owner named slot, p.methodRefs.find? (owner, named) = some slot ↔
    p.pool.IsLowest slot (.methodRef owner named)
  interfaceMethodRefs : ∀ owner named slot,
    p.interfaceMethodRefs.find? (owner, named) = some slot ↔
      p.pool.IsLowest slot (.interfaceMethodRef owner named)
  rebuilt : p = ofPool p.pool

/-- The tables that a pool is given at the start are those of its constants. -/
theorem exact_ofPool {pool : ConstantPool} (hn : pool.Numbered) : (ofPool pool).Exact := by
  have hlookup : ∀ c slot, c ≠ .unusable →
      ((ofPool pool).find? c = some slot ↔ (ofPool pool).pool.IsLowest slot c) := by
    intro c slot hu
    rw [find?_ofPool, ofPool_pool]
    exact find?_eq_some_iff_isLowest hn hu
  exact {
    texts := fun text slot => hlookup (.utf8 text) slot (by simp)
    classes := fun name slot => hlookup (.classRef name) slot (by simp)
    nameAndTypes := fun name descriptor slot =>
      hlookup (.nameAndType name descriptor) slot (by simp)
    methodRefs := fun owner named slot => hlookup (.methodRef owner named) slot (by simp)
    interfaceMethodRefs := fun owner named slot =>
      hlookup (.interfaceMethodRef owner named) slot (by simp)
    rebuilt := by rw [ofPool_pool] }

/-- A run of calls leaves the tables of the pool that it leaves, which extends the one before. -/
theorem after_ofPool (pool : ConstantPool) (calls : List PoolCall) :
    ∃ later, (ofPool pool).after calls = ofPool later ∧ Extends pool later := by
  induction calls generalizing pool with
  | nil => exact ⟨pool, rfl, .refl pool⟩
  | cons call calls ih =>
    obtain ⟨later, hlater, hextends⟩ := ih (call.request pool).2
    refine ⟨later, ?_, (call.extends_request pool).trans hextends⟩
    rw [after, List.foldl_cons, call.simulates pool]
    exact hlater

/-- A slot that a call was answered with holds what was asked for after any further calls, and is
the answer to the same call when it is repeated. -/
theorem heldAt_after_calls {call : PoolCall} {pool later : ConstantPool} {slot : Slot}
    (hn : later.Numbered) (h : call.request pool = (.ok slot, later)) (more : List PoolCall) :
    let p := (ofPool later).after more
    call.HeldAt p.pool slot ∧ (call.isInterning = true → call.perform p = (.ok slot, p)) := by
  obtain ⟨last, hlast, hextends⟩ := after_ofPool later more
  dsimp only
  rw [hlast, ofPool_pool]
  refine ⟨(PoolCall.heldAt_of_request hn h).mono hextends.growsInto, fun hinterning => ?_⟩
  rw [call.simulates last, (PoolCall.interns_request hinterning).again h hextends.growsInto]

/-- Whatever calls are made on whatever pool that is not too large: the constants that were there
stay in front, the limit is kept, so that the count that is written does not wrap, and the tables
are exact. From there on, a call fails only for want of room; the slot that a call is answered with
holds what was asked for after any further calls; and the call for a text, a class, a name and
type, a method or a string is answered alike when it is repeated, without adding anything. The
tables show in none of the answers. -/
theorem exact_after_calls (start : ConstantPool) (hroom : start.size ≤ maxSize)
    (calls : List PoolCall) :
    let p := (ofPool start).after calls
    start.GrowsInto p.pool ∧ p.pool.size ≤ maxSize ∧
      (UInt16.ofNat (p.pool.size + 1)).toNat = p.pool.size + 1 ∧ p.Exact ∧
      (∀ more, p.pool.GrowsInto (p.after more).pool) ∧
      ∀ call : PoolCall,
        ((call.perform p).1, (call.perform p).2.pool) = call.request p.pool ∧
        (∀ e, (call.perform p).1 = .error e →
          e = .outOfSpace ∧ maxSize ≤ (call.perform p).2.pool.size + 1) ∧
        ∀ slot, (call.perform p).1 = .ok slot → ∀ more,
          let later := (call.perform p).2.after more
          call.HeldAt later.pool slot ∧
            (call.isInterning = true → call.perform later = (.ok slot, later)) := by
  -- after any calls there is a plain pool behind the tables, and all is said about this pool
  obtain ⟨pool, hp, hextends⟩ := after_ofPool start calls
  have hsize := hextends.bounded hroom
  have hnumbered : ∀ {later : ConstantPool}, later.size ≤ maxSize → later.Numbered :=
    fun hle => Nat.le_succ_of_le hle
  dsimp only
  rw [hp, ofPool_pool]
  refine ⟨hextends.growsInto, hsize, toNat_slotAt (Nat.lt_succ_of_le hsize),
    exact_ofPool (hnumbered hsize), ?_, ?_⟩
  · intro more
    obtain ⟨later, hlater, hgrown⟩ := after_ofPool pool more
    rw [hlater, ofPool_pool]
    exact hgrown.growsInto
  · intro call
    rw [call.simulates pool]
    have hcall := call.extends_request pool
    cases hrun : call.request pool with
    | mk result mid =>
      rw [hrun] at hcall
      refine ⟨by rw [ofPool_pool], ?_, ?_⟩
      · rintro e rfl
        rw [ofPool_pool]
        exact PoolCall.request_eq_error hrun
      · rintro slot rfl
        exact heldAt_after_calls (hnumbered (hcall.bounded hsize)) hrun

/-- A text that is there twice, a class whose name is nowhere, a name and type that refers to that
class, and a long without its second slot. -/
def loosePool : ConstantPool :=
  ⟨#[.utf8 "A", .utf8 "A", .classRef 9, .nameAndType 3 3, .long 5]⟩

/-- On a pool that nothing holds together, a method takes the lower copy of the text, a long its
second slot, and a hint the higher copy; the call for the method is answered alike afterwards. -/
theorem exact_after_calls_on_loosePool :
    loosePool.size ≤ maxSize ∧
      (((ofPool loosePool).after [.methodRef "A" "A" "()V", .long 7, .utf8At (some 2) "A"]).pool =
        ⟨#[.utf8 "A", .utf8 "A", .classRef 9, .nameAndType 3 3, .long 5, .classRef 1, .utf8 "()V",
          .nameAndType 1 7, .methodRef 6 8, .long 7, .unusable]⟩) ∧
      ((ofPool loosePool).after
        [.methodRef "A" "A" "()V", .long 7, .utf8At (some 2) "A"]).Exact ∧
      (PoolCall.methodRef "A" "A" "()V").perform
          ((ofPool loosePool).after [.methodRef "A" "A" "()V", .long 7, .utf8At (some 2) "A"]) =
        (.ok 9, (ofPool loosePool).after
          [.methodRef "A" "A" "()V", .long 7, .utf8At (some 2) "A"]) := by
  have hroom : loosePool.size ≤ maxSize := by decide
  obtain ⟨-, -, -, hexact, -, -⟩ :=
    exact_after_calls loosePool hroom [.methodRef "A" "A" "()V", .long 7, .utf8At (some 2) "A"]
  obtain ⟨-, -, -, -, -, hcalls⟩ := exact_after_calls loosePool hroom []
  have hfirst : ((PoolCall.methodRef "A" "A" "()V").perform ((ofPool loosePool).after [])).1 =
      .ok 9 := by decide +kernel
  have hagain := ((hcalls (.methodRef "A" "A" "()V")).2.2 9 hfirst
    [.long 7, .utf8At (some 2) "A"]).2 rfl
  exact ⟨hroom, by decide +kernel, hexact, hagain⟩

end IndexedPool

end JvmStub
