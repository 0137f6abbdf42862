/-
`Indexed.lean` -- the tables of a pool say what its slots say.

The tables of an indexed pool are entered in two ways: all at once from the slots
of a pool that is there, and one entry at a time as constants are appended. The
first is what they are held against. `find?_ofPool` says that tables entered all at
once answer like a search through the slots, and `ofPool_append` that entering the
appended constant gives the tables that would be entered afresh. A key keeps the
slot that it was entered with first, which is why both come to the lowest slot.

From this, a request to an indexed pool is a request to the pool in it: `Simulates`
says so of one request, and is closed under everything that requests are made of.
Nothing here asks how large the pool is or whether its references hold.
-/
import JvmStub.Pool.Indexed
import JvmStub.Proofs.Steps

set_option autoImplicit false

namespace JvmStub

/-! ## One table -/

namespace SlotTable

variable {κ : Type} [BEq κ]

@[simp] theorem find?_empty (key : κ) : (empty : SlotTable κ).find? key = none := rfl

/-- A slot is entered for a key that had none, and for no other. -/
@[simp] theorem find?_enter [LawfulBEq κ] (table : SlotTable κ) (key asked : κ) (slot : Slot) :
    (table.enter key slot).find? asked =
      (table.find? asked).or (if key == asked then some slot else none) := by
  unfold enter
  split
  · next found hfound =>
    -- the key is there, so where it is the one asked for there is an answer already
    by_cases hkey : key = asked
    · subst hkey
      rw [hfound, Option.some_or]
    · simp [hkey]
  · next hnone =>
    by_cases hkey : key = asked
    · subst hkey
      rw [hnone]
      simp [find?]
    · have hasked : (asked == key) = false := beq_eq_false_iff_ne.mpr (Ne.symm hkey)
      simp [find?, List.lookup_cons, hasked, hkey]

end SlotTable

/-- There is a table for constants of this kind. -/
def Constant.isTabled : Constant → Bool
  | .utf8 _ | .classRef _ | .nameAndType _ _ | .methodRef _ _ | .interfaceMethodRef _ _ => true
  | _ => false

/-! ## All tables of a pool -/

namespace IndexedPool

open ConstantPool (slotAt)

variable {p : IndexedPool} {pool : ConstantPool} {c asked : Constant}

@[simp] theorem remember_pool (p : IndexedPool) (slot : Slot) (c : Constant) :
    (p.remember slot c).pool = p.pool := by
  cases c <;> rfl

/-- What the tables remember does not depend on the pool they are kept with. -/
theorem remember_withPool (p : IndexedPool) (pool : ConstantPool) (slot : Slot) (c : Constant) :
    { p with pool := pool }.remember slot c = { p.remember slot c with pool := pool } := by
  cases c <;> rfl

/-- A constant is entered in the table for its kind, behind what stands there. -/
theorem find?_remember (ht : asked.isTabled = true) (p : IndexedPool) (slot : Slot)
    (c : Constant) : (p.remember slot c).find? asked =
      (p.find? asked).or (if c == asked then some slot else none) := by
  cases asked <;> cases ht <;> cases c <;> simp [remember, find?]

/-- Constants are entered one behind the other, so the first that is asked for is found. -/
theorem find?_rememberAll (ht : asked.isTabled = true) (constants : List Constant)
    (p : IndexedPool) (n : Nat) :
    (p.rememberAll (constants.zipIdx n)).find? asked =
      (p.find? asked).or ((constants.findIdx? (· == asked)).map fun i => slotAt (i + n)) := by
  induction constants generalizing p n with
  | nil => simp [rememberAll]
  | cons c constants ih =>
    rw [List.zipIdx_cons, rememberAll, ih, find?_remember ht, List.findIdx?_cons,
      Option.or_assoc]
    by_cases hc : (c == asked) = true
    · simp [hc]
    · -- positions behind the first count from one more
      simp [hc, Option.map_map, Function.comp_def, Nat.add_right_comm, Nat.add_assoc]

theorem rememberAll_append (p : IndexedPool) (entries more : List (Constant × Nat)) :
    p.rememberAll (entries ++ more) = (p.rememberAll entries).rememberAll more := by
  induction entries generalizing p with
  | nil => rfl
  | cons entry entries ih => exact ih _

/-- What is entered does not depend on the slots of the pool. -/
theorem rememberAll_withPool (p : IndexedPool) (pool : ConstantPool)
    (entries : List (Constant × Nat)) : { p with pool := pool }.rememberAll entries =
      { p.rememberAll entries with pool := pool } := by
  induction entries generalizing p with
  | nil => rfl
  | cons entry entries ih => rw [rememberAll, remember_withPool, ih, rememberAll]

/-- Remembering constants does not touch the pool. -/
theorem rememberAll_pool (p : IndexedPool) (entries : List (Constant × Nat)) :
    (p.rememberAll entries).pool = p.pool := by
  induction entries generalizing p with
  | nil => rfl
  | cons entry entries ih => rw [rememberAll, ih, remember_pool]

@[simp] theorem ofPool_pool (pool : ConstantPool) : (ofPool pool).pool = pool :=
  rememberAll_pool _ _

/-- The tables answer like a search through the slots. -/
@[simp] theorem find?_ofPool (pool : ConstantPool) (c : Constant) :
    (ofPool pool).find? c = pool.find? c := by
  by_cases ht : c.isTabled = true
  · have hbare : (bare pool).find? c = none := by
      cases c <;> cases ht <;> rfl
    rw [ofPool, find?_rememberAll ht, hbare, Option.none_or, ConstantPool.find?,
      ← List.findIdx?_toArray, Array.toArray_toList]
    rfl
  · -- there is no table, and the slots are searched
    have hsearch : (ofPool pool).find? c = (ofPool pool).pool.find? c := by
      cases c <;> first | rfl | exact absurd rfl ht
    rw [hsearch, ofPool_pool]

/-- Entering an appended constant gives the tables that would be entered afresh. -/
theorem ofPool_append (pool : ConstantPool) (c : Constant) :
    ofPool (pool.append c) = (ofPool pool).append c := by
  -- entering looks at the constants alone, so it can be done with any slots beside them
  have hbefore : (bare (pool.append c)).rememberAll pool.constants.toList.zipIdx =
      { ofPool pool with pool := pool.append c } := rememberAll_withPool (bare pool) _ _
  have hlast : (ofPool pool).append c =
      { ofPool pool with pool := pool.append c }.remember (slotAt pool.size) c := by
    rw [append, ofPool_pool]
  rw [hlast, ← hbefore, ofPool]
  -- the second slot of a wide constant is entered nowhere
  by_cases hwide : c.isWide = true
  · have hconstants : (pool.append c).constants.toList =
        pool.constants.toList ++ [c, .unusable] := by
      simp [ConstantPool.append, hwide]
    rw [hconstants, List.zipIdx_append, rememberAll_append, Array.length_toList, Nat.zero_add]
    rfl
  · have hconstants : (pool.append c).constants.toList = pool.constants.toList ++ [c] := by
      simp [ConstantPool.append, hwide]
    rw [hconstants, List.zipIdx_append, rememberAll_append, Array.length_toList, Nat.zero_add]
    rfl

end IndexedPool

/-! ## Requests -/

namespace IndexedPoolM

open IndexedPool (ofPool)

/-- A request to a pool with its tables is the request to the pool, with the tables of the pool
that it leaves. -/
def Simulates {α : Type} (x : IndexedPoolM α) (r : PoolM α) : Prop :=
  ∀ pool, x (ofPool pool) = ((r pool).1, ofPool (r pool).2)

section

variable {α β : Type} {x : IndexedPoolM α} {r : PoolM α}

/-- Two requests one after the other are simulated if both are. -/
theorem Simulates.bind {f : α → IndexedPoolM β} {g : α → PoolM β} (hx : Simulates x r)
    (hf : ∀ a, Simulates (f a) (g a)) : Simulates (x >>= f) (r >>= g) := by
  intro pool
  have hfirst := hx pool
  cases hr : r pool with
  | mk result later =>
    rw [hr] at hfirst
    cases result with
    | error e => rw [bind_of_error hfirst, bind_of_error hr]
    | ok a => rw [bind_of_ok hfirst, bind_of_ok hr, hf a later]

end

/-- A constant that is appended is entered as well, so the tables are those of the later pool. -/
theorem simulates_push (c : Constant) : Simulates (push c) (PoolM.push c) := by
  intro pool
  unfold push PoolM.push
  rw [IndexedPool.ofPool_pool]
  split
  · rfl
  · rw [IndexedPool.ofPool_append]

/-- Looking into the tables finds what looking through the pool would find. -/
theorem simulates_intern (c : Constant) : Simulates (intern c) (PoolM.intern c) := by
  intro pool
  unfold intern PoolM.intern
  rw [IndexedPool.find?_ofPool]
  cases pool.find? c with
  | some slot => rfl
  | none => exact simulates_push c pool

theorem simulates_addUtf8 (text : String) : Simulates (addUtf8 text) (PoolM.addUtf8 text) :=
  simulates_intern _

theorem simulates_addClass (name : String) : Simulates (addClass name) (PoolM.addClass name) :=
  (simulates_addUtf8 name).bind fun _ => simulates_intern _

theorem simulates_addNameAndType (name descriptor : String) :
    Simulates (addNameAndType name descriptor) (PoolM.addNameAndType name descriptor) :=
  (simulates_addUtf8 name).bind fun _ =>
    (simulates_addUtf8 descriptor).bind fun _ => simulates_intern _

/-- A hint is looked up in the pool, not in the tables. -/
theorem simulates_utf8At (hint : Option Slot) (text : String) :
    Simulates (utf8At hint text) (PoolM.utf8At hint text) := by
  intro pool
  unfold utf8At PoolM.utf8At
  cases hint with
  | none => exact simulates_addUtf8 text pool
  | some slot =>
    dsimp only
    rw [IndexedPool.ofPool_pool]
    split
    · rfl
    · exact simulates_addUtf8 text pool

theorem simulates_classAt (hint : Option Slot) (name : String) :
    Simulates (classAt hint name) (PoolM.classAt hint name) := by
  intro pool
  unfold classAt PoolM.classAt
  cases hint with
  | none => exact simulates_addClass name pool
  | some slot =>
    dsimp only
    rw [IndexedPool.ofPool_pool]
    split
    · rfl
    · exact simulates_addClass name pool

end IndexedPoolM

/-- Every call asks of an indexed pool what it asks of the pool in it. -/
theorem PoolCall.simulates (call : PoolCall) :
    IndexedPoolM.Simulates call.perform call.request := by
  cases call with
  | utf8 text => exact IndexedPoolM.simulates_addUtf8 text
  | classRef name => exact IndexedPoolM.simulates_addClass name
  | string text =>
    exact (IndexedPoolM.simulates_addUtf8 text).bind fun _ => IndexedPoolM.simulates_intern _
  | nameAndType name descriptor => exact IndexedPoolM.simulates_addNameAndType name descriptor
  | methodRef owner name descriptor =>
    exact (IndexedPoolM.simulates_addClass owner).bind fun _ =>
      (IndexedPoolM.simulates_addNameAndType name descriptor).bind fun _ =>
        IndexedPoolM.simulates_intern _
  | interfaceMethodRef owner name descriptor =>
    exact (IndexedPoolM.simulates_addClass owner).bind fun _ =>
      (IndexedPoolM.simulates_addNameAndType name descriptor).bind fun _ =>
        IndexedPoolM.simulates_intern _
  | integer value => exact IndexedPoolM.simulates_push _
  | long value => exact IndexedPoolM.simulates_push _
  | utf8At hint text => exact IndexedPoolM.simulates_utf8At hint text
  | classAt hint name => exact IndexedPoolM.simulates_classAt hint name

end JvmStub
