/-
`StraightLine.lean` -- the bodies that pass the check.

What an instruction takes from the stack and puts on it is fixed by its opcode, except
for a call, where the method that is called decides. From these two numbers alone the
depth of the stack behind any part of a body is known, and with it what it means for a
body to run straight through: its calls can be looked up, no instruction finds too
little on the stack or leaves too much there, and the last instruction and no other ends
it, in a way that fits the result of the method.

This says nothing about the order in which the check looks for mistakes, and it speaks
of all instructions at once. `straightLine_cons` takes the first instruction off, with
the depth as it is behind it, and that is the step that the check takes as well.
-/
import JvmStub.Proofs.Check.Splitting
import JvmStub.Proofs.ClassFile.Reading
import JvmStub.Proofs.Steps

set_option autoImplicit false

namespace JvmStub

/-! ## What instructions do to the stack -/

namespace Opcode

/-- The instructions that call a method. -/
def isInvocation : Opcode → Bool
  | invokevirtual | invokespecial | invokestatic | invokeinterface => true
  | _ => false

/-- The units that an instruction that is no call takes from the stack. -/
def taken : Opcode → Nat
  | pop | dup | checkcast | instanceof | ireturn | freturn | areturn | athrow => 1
  | pop2 | lreturn | dreturn => 2
  | _ => 0

/-- The units that an instruction that is no call puts on the stack. -/
def given : Opcode → Nat
  | nop | pop | pop2 | ireturn | lreturn | freturn | dreturn | areturn | vreturn | athrow => 0
  | lconst0 | lconst1 | dconst0 | dconst1 | dup => 2
  | _ => 1

end Opcode

namespace PlacedInstruction

variable {pool : ConstantPool} {i : PlacedInstruction}

/-- The slot that the first two operands name. -/
def slot (i : PlacedInstruction) : Slot := UInt16.ofNat (Bytes.number (i.operands.take 2))

/-- The slot of an instruction is its first two operand bytes. -/
theorem slot_u2 (pc : Nat) (op : Opcode) (slot : Slot) (rest : Bytes) :
    PlacedInstruction.slot ⟨pc, op, Bytes.u2 slot ++ rest⟩ = slot := by
  have hlen : (Bytes.u2 slot).length = 2 := Bytes.length_bigEndian _ _
  have hlt := slot.toNat_lt
  have hcut : slot.toNat % 256 ^ 2 = slot.toNat := by omega
  rw [PlacedInstruction.slot, List.take_left' hlen, Bytes.u2, Bytes.number_bigEndian, hcut,
    UInt16.ofNat_toNat]

/-- The types of the method that an instruction calls, where they can be looked up. -/
def callee? (pool : ConstantPool) (i : PlacedInstruction) : Option MethodDescriptor :=
  (pool.memberRef i.slot).toOption.bind fun member =>
    (MethodDescriptor.parse member.descriptor).toOption

/-- The units that an instruction takes from the stack: for a call, those of the parameters, as
they are counted in sixteen bits, and one for the instance if the method is not static. -/
def taken (pool : ConstantPool) (i : PlacedInstruction) : Nat :=
  if i.opcode.isInvocation then
    match i.callee? pool with
    | some callee => callee.parameterSlotCount.toNat + if i.opcode = .invokestatic then 0 else 1
    | none => 0
  else i.opcode.taken

/-- The units that an instruction puts on the stack: for a call, those of the result. -/
def given (pool : ConstantPool) (i : PlacedInstruction) : Nat :=
  if i.opcode.isInvocation then
    match i.callee? pool with
    | some callee => callee.result.category.stackSize
    | none => 0
  else i.opcode.given

/-- If the instruction is a call, its operand leads to a method whose types can be read. -/
def Resolves (pool : ConstantPool) (i : PlacedInstruction) : Prop :=
  i.opcode.isInvocation = true → ∃ member callee,
    pool.memberRef i.slot = .ok member ∧ MethodDescriptor.parse member.descriptor = .ok callee

/-- A call whose parameters can be counted takes as many units as the arguments have. -/
theorem taken_of_callee {callee : MethodDescriptor} (hcall : i.opcode.isInvocation = true)
    (hcallee : i.callee? pool = some callee) (hslots : callee.parameterSlots ≤ 65535) :
    i.taken pool = callee.argumentSlots (i.opcode = .invokestatic) := by
  rw [taken, if_pos hcall, hcallee]
  simp [MethodDescriptor.argumentSlots, MethodDescriptor.toNat_parameterSlotCount hslots]

/-- The callee is found over the pool, and its type is read. -/
theorem callee?_eq_some {callee : MethodDescriptor} : i.callee? pool = some callee ↔
    ∃ member, pool.memberRef i.slot = .ok member ∧
      MethodDescriptor.parse member.descriptor = .ok callee := by
  unfold callee?
  rw [Option.bind_eq_some_iff]
  cases hmember : pool.memberRef i.slot with
  | error e => simp [Except.toOption]
  | ok member =>
    cases hparse : MethodDescriptor.parse member.descriptor with
    | error e => simp [Except.toOption, hparse]
    | ok parsed => simp [Except.toOption, hparse]

end PlacedInstruction

namespace Check

variable {pool : ConstantPool} {result : Category} {maxStack : UInt16} {i : PlacedInstruction}
  {is rest : List PlacedInstruction} {popped pushed : Nat}

/-- The effect of an instruction that is no call is fixed by its opcode. -/
theorem stackEffect_of_plain (h : i.opcode.isInvocation = false) :
    stackEffect pool i = .ok (i.opcode.taken, i.opcode.given) := by
  obtain ⟨pc, op, operands⟩ := i
  cases op <;> first | rfl | cases h

/-- The effect of a call is that of the method. -/
theorem stackEffect_of_invocation (h : i.opcode.isInvocation = true) :
    stackEffect pool i = invocationEffect pool i := by
  obtain ⟨pc, op, operands⟩ := i
  cases op <;> first | rfl | cases h

/-- A call takes its arguments, with the object unless it is static, and leaves its result. -/
theorem invocationEffect_eq_ok : invocationEffect pool i = .ok (popped, pushed) ↔
    ∃ callee, i.callee? pool = some callee ∧
      popped = callee.parameterSlotCount.toNat + (if i.opcode = .invokestatic then 0 else 1) ∧
      pushed = callee.result.category.stackSize := by
  unfold invocationEffect
  simp only [except_bind_eq_ok, mapError_eq_ok, parsedDescriptor]
  constructor
  · rintro ⟨member, hmember, callee, hparse, h⟩
    cases h
    exact ⟨callee, PlacedInstruction.callee?_eq_some.mpr ⟨member, hmember, hparse⟩, rfl, rfl⟩
  · rintro ⟨callee, hcallee, rfl, rfl⟩
    obtain ⟨member, hmember, hparse⟩ := PlacedInstruction.callee?_eq_some.mp hcallee
    exact ⟨member, hmember, callee, hparse, rfl⟩

/-- The check knows the effect of an instruction exactly where its call can be looked up, and then
it is what the instruction takes and gives. -/
theorem stackEffect_eq_ok : stackEffect pool i = .ok (popped, pushed) ↔
    i.Resolves pool ∧ popped = i.taken pool ∧ pushed = i.given pool := by
  unfold PlacedInstruction.Resolves PlacedInstruction.taken PlacedInstruction.given
  cases hcall : i.opcode.isInvocation with
  | false =>
    rw [stackEffect_of_plain hcall, Except.ok.injEq, Prod.mk.injEq]
    simp [eq_comm]
  | true =>
    rw [stackEffect_of_invocation hcall, invocationEffect_eq_ok]
    constructor
    · rintro ⟨callee, hcallee, rfl, rfl⟩
      obtain ⟨member, hfound⟩ := PlacedInstruction.callee?_eq_some.mp hcallee
      rw [hcallee]
      exact ⟨fun _ => ⟨member, callee, hfound⟩, rfl, rfl⟩
    · rintro ⟨hresolves, rfl, rfl⟩
      obtain ⟨member, callee, hfound⟩ := hresolves rfl
      have hcallee := PlacedInstruction.callee?_eq_some.mpr ⟨member, hfound⟩
      rw [hcallee]
      exact ⟨callee, rfl, rfl, rfl⟩

/-! ## Running straight through -/

/-- The depth of the stack behind instructions that begin at some depth. It is a whole number, so
that a stack that would be less than empty is seen. -/
def depthBehind (pool : ConstantPool) (start : Int) (is : List PlacedInstruction) : Int :=
  is.foldl (fun depth i => depth - i.taken pool + i.given pool) start

/-- The last instruction and no other is a terminator, and it throws or returns a result of the
category. -/
def EndsOnce (result : Category) (is : List PlacedInstruction) : Prop :=
  ∃ before last, is = before ++ [last] ∧ (∀ i ∈ before, i.opcode.isTerminator = false) ∧
    last.opcode.isTerminator = true ∧ (last.opcode = .athrow ∨ last.opcode = result.returnOpcode)

/-- Instructions that run straight through, from some depth of the stack to the end of a method
with this category of result. -/
structure StraightLine (pool : ConstantPool) (result : Category) (maxStack : UInt16) (start : Int)
    (is : List PlacedInstruction) : Prop where
  /-- Every call leads to a method whose types can be read. -/
  resolves : ∀ i ∈ is, i.Resolves pool
  /-- What an instruction takes is there when it runs. -/
  enough : ∀ before i after, is = before ++ i :: after →
    (i.taken pool : Int) ≤ depthBehind pool start before
  /-- Behind every instruction the stack is within its bound. -/
  bounded : ∀ before i after, is = before ++ i :: after →
    depthBehind pool start (before ++ [i]) ≤ maxStack.toNat
  ends : EndsOnce result is

/-- What holds at every instruction of a list holds at its first one and, behind that, at every
instruction of the rest. -/
theorem forall_split_cons {P : List PlacedInstruction → PlacedInstruction → Prop} :
    (∀ before j after, i :: rest = before ++ j :: after → P before j) ↔
      P [] i ∧ ∀ before j after, rest = before ++ j :: after → P (i :: before) j := by
  constructor
  · intro h
    refine ⟨h [] i rest rfl, fun before j after hsplit => h (i :: before) j after ?_⟩
    rw [hsplit, List.cons_append]
  · rintro ⟨hfirst, hrest⟩ before j after hsplit
    rcases List.cons_eq_append_iff.mp hsplit with ⟨rfl, h⟩ | ⟨before', rfl, h⟩
    · cases h
      exact hfirst
    · exact hrest before' j after h

theorem not_endsOnce_nil : ¬ EndsOnce result [] := by
  rintro ⟨before, last, hsplit, -⟩
  exact List.append_ne_nil_of_right_ne_nil before (List.cons_ne_nil last []) hsplit.symm

/-- An instruction that ends the body is the only one behind those that go on. -/
theorem endsOnce_cons_of_terminator (h : i.opcode.isTerminator = true) :
    EndsOnce result (i :: rest) ↔
      rest = [] ∧ (i.opcode = .athrow ∨ i.opcode = result.returnOpcode) := by
  constructor
  · rintro ⟨before, last, hsplit, hgo, -, hfits⟩
    rcases List.cons_eq_append_iff.mp hsplit with ⟨rfl, hlast⟩ | ⟨before', rfl, -⟩
    · cases hlast
      exact ⟨rfl, hfits⟩
    · have hgoes := hgo i List.mem_cons_self
      rw [h] at hgoes
      cases hgoes
  · rintro ⟨rfl, hfits⟩
    exact ⟨[], i, rfl, List.forall_mem_nil _, h, hfits⟩

/-- Behind an instruction that goes on, the rest ends the body. -/
theorem endsOnce_cons_of_goes_on (h : i.opcode.isTerminator = false) :
    EndsOnce result (i :: rest) ↔ EndsOnce result rest := by
  constructor
  · rintro ⟨before, last, hsplit, hgo, hlast⟩
    rcases List.cons_eq_append_iff.mp hsplit with ⟨rfl, hsingle⟩ | ⟨before', rfl, hrest⟩
    · cases hsingle
      rw [h] at hlast
      cases hlast.1
    · exact ⟨before', last, hrest, (List.forall_mem_cons.mp hgo).2, hlast⟩
  · rintro ⟨before, last, rfl, hgo, hlast⟩
    exact ⟨i :: before, last, rfl, List.forall_mem_cons.mpr ⟨h, hgo⟩, hlast⟩

/-- The step: what is asked of the first instruction, and of the rest from the depth behind it. -/
theorem straightLine_cons {start : Int} : StraightLine pool result maxStack start (i :: rest) ↔
    (i.Resolves pool ∧ (i.taken pool : Int) ≤ start ∧
      start - i.taken pool + i.given pool ≤ maxStack.toNat) ∧
    if i.opcode.isTerminator then rest = [] ∧ (i.opcode = .athrow ∨ i.opcode = result.returnOpcode)
    else StraightLine pool result maxStack (start - i.taken pool + i.given pool) rest := by
  constructor
  · intro h
    have hresolves := List.forall_mem_cons.mp h.resolves
    have henough := forall_split_cons.mp h.enough
    have hbounded := forall_split_cons.mp h.bounded
    refine ⟨⟨hresolves.1, henough.1, hbounded.1⟩, ?_⟩
    split
    · next hends => exact (endsOnce_cons_of_terminator hends).mp h.ends
    · next hgoes =>
      have hgoes : i.opcode.isTerminator = false := Bool.not_eq_true _ ▸ hgoes
      exact ⟨hresolves.2, henough.2, hbounded.2, (endsOnce_cons_of_goes_on hgoes).mp h.ends⟩
  · rintro ⟨⟨hresolves, henough, hbounded⟩, hrest⟩
    split at hrest
    · next hends =>
      obtain ⟨rfl, hfits⟩ := hrest
      -- nothing stands behind the last instruction, so there are no other ways to split the list
      have hnone : ∀ before (j : PlacedInstruction) after, [] ≠ before ++ j :: after :=
        fun before j after h =>
          List.append_ne_nil_of_right_ne_nil before (List.cons_ne_nil j after) h.symm
      exact ⟨List.forall_mem_singleton.mpr hresolves,
        forall_split_cons.mpr ⟨henough, fun before j after h => absurd h (hnone before j after)⟩,
        forall_split_cons.mpr ⟨hbounded, fun before j after h => absurd h (hnone before j after)⟩,
        (endsOnce_cons_of_terminator hends).mpr ⟨rfl, hfits⟩⟩
    · next hgoes =>
      have hgoes : i.opcode.isTerminator = false := Bool.not_eq_true _ ▸ hgoes
      exact ⟨List.forall_mem_cons.mpr ⟨hresolves, hrest.resolves⟩,
        forall_split_cons.mpr ⟨henough, hrest.enough⟩,
        forall_split_cons.mpr ⟨hbounded, hrest.bounded⟩,
        (endsOnce_cons_of_goes_on hgoes).mpr hrest.ends⟩

/-! ## The check -/

/-- An instruction passes exactly where its call can be looked up and it keeps within the stack. -/
theorem depthAfter_eq_ok {depth after : Nat} : depthAfter pool maxStack depth i = .ok after ↔
    (i.Resolves pool ∧ i.taken pool ≤ depth ∧ after ≤ maxStack.toNat) ∧
      after = depth - i.taken pool + i.given pool := by
  unfold depthAfter
  rw [except_bind_eq_ok]
  constructor
  · rintro ⟨⟨popped, pushed⟩, heffect, h⟩
    obtain ⟨hresolves, rfl, rfl⟩ := stackEffect_eq_ok.mp heffect
    dsimp only at h
    split at h
    · cases h
    · next hpop =>
      split at h
      · cases h
      · next hpush =>
        cases h
        exact ⟨⟨hresolves, Nat.not_lt.mp hpop, Nat.not_lt.mp hpush⟩, rfl⟩
  · rintro ⟨⟨hresolves, hpop, hpush⟩, rfl⟩
    refine ⟨(i.taken pool, i.given pool), stackEffect_eq_ok.mpr ⟨hresolves, rfl, rfl⟩, ?_⟩
    simp only [Nat.not_lt.mpr hpop, Nat.not_lt.mpr hpush, if_false]
    rfl

/-- The last instruction throws, or returns what the method returns. -/
theorem resultMatches_eq_ok {last : Opcode} :
    resultMatches result last = .ok () ↔ last = .athrow ∨ last = result.returnOpcode := by
  unfold resultMatches
  split
  · next h => exact ⟨fun _ => h, fun _ => rfl⟩
  · next h => exact ⟨nofun, fun hfits => absurd hfits h⟩

/-- Following instructions finds no fault exactly where they run straight through. -/
theorem followed_eq_ok {depth : Nat} : followed pool result maxStack depth is = .ok () ↔
    StraightLine pool result maxStack depth is := by
  induction is generalizing depth with
  | nil =>
    rw [followed]
    exact ⟨nofun, fun h => absurd h.ends not_endsOnce_nil⟩
  | cons i rest ih =>
    have hrest : ∀ after : Nat, (if i.opcode.isTerminator then
        if rest.isEmpty then resultMatches result i.opcode else .error (.terminatorNotLast i.pc)
        else followed pool result maxStack after rest) = .ok () ↔
      if i.opcode.isTerminator then
        rest = [] ∧ (i.opcode = .athrow ∨ i.opcode = result.returnOpcode)
      else StraightLine pool result maxStack after rest := by
      intro after
      split
      · split
        · next hempty =>
          rw [resultMatches_eq_ok]
          exact (and_iff_right (List.isEmpty_iff.mp hempty)).symm
        · next hmore => exact ⟨nofun, fun h => absurd (List.isEmpty_iff.mpr h.1) hmore⟩
      · exact ih
    rw [followed, except_bind_eq_ok, straightLine_cons]
    simp only [depthAfter_eq_ok, hrest]
    -- what is taken is there, so the depth behind is the same number with and without a sign
    constructor
    · rintro ⟨after, ⟨⟨hresolves, hpop, hpush⟩, hafter⟩, h⟩
      have hdepth : (after : Int) = depth - i.taken pool + i.given pool := by omega
      rw [← hdepth]
      exact ⟨⟨hresolves, by omega, by omega⟩, h⟩
    · rintro ⟨⟨hresolves, hpop, hpush⟩, h⟩
      have hdepth : ((depth - i.taken pool + i.given pool : Nat) : Int) =
          depth - i.taken pool + i.given pool := by omega
      rw [← hdepth] at h
      exact ⟨_, ⟨⟨hresolves, by omega, by omega⟩, rfl⟩, h⟩

/-- A body that catches nothing and can be taken apart is followed from an empty stack. -/
theorem body_of_placed {code : Code} {byte : UInt8} {bytes : Bytes}
    (hhandlers : code.handlers = #[]) (hbytes : code.bytecode = byte :: bytes)
    (hplaced : placed? code.bytecode = .ok (some is)) :
    body pool result code = followed pool result code.maxStack 0 is := by
  unfold body
  rw [hplaced, hhandlers, hbytes]
  rfl

/-- Nothing is said against a body that cannot be taken apart for an unnamed opcode. -/
theorem body_of_unnamed {code : Code} (hplaced : placed? code.bytecode = .ok none) :
    body pool result code = .ok () := by
  have hnonempty : code.bytecode.isEmpty = false := by
    cases hcode : code.bytecode with
    | nil =>
      rw [hcode, placed?, placedOnto_nil] at hplaced
      cases hplaced
    | cons byte bytes => rfl
  unfold body
  rw [hplaced, hnonempty]
  cases code.handlers.isEmpty <;> rfl

end Check

end JvmStub
