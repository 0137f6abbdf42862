/-
`Bodies.lean` -- the check of a stub's body.

Bytecode that is written out instruction by instruction is taken apart into the
same instructions, and following a stub's instructions keeps the stack between
empty and the depth that the body declares. So nothing is ever said against the
body of a stub, and a method that has its stub can only be at fault in what it
had before: its modifiers, or the descriptor of a method without a body.
-/
import JvmStub.Check.Class
import JvmStub.Proofs.Check.StraightLine
import JvmStub.Proofs.Stub.Bodies

set_option autoImplicit false

namespace JvmStub.Check

open ConstantPool

variable {pool : ConstantPool} {exceptionClass : String} {code : Code}

/-! ## Taking bytecode apart -/

/-- The bytecode that throws is taken apart into its four instructions. -/
theorem placed?_throwing (thrown constructor : Slot) :
    placed? (throwingBytecode thrown constructor) =
      .ok (some [⟨0, .new, Bytes.u2 thrown⟩, ⟨3, .dup, []⟩,
        ⟨4, .invokespecial, Bytes.u2 constructor⟩, ⟨7, .athrow, []⟩]) := by
  have hwidth : ∀ slot : Slot, (Bytes.u2 slot).length = 2 := fun _ => Bytes.length_bigEndian _ _
  have hconsecutive : Consecutive 0 [⟨0, .new, Bytes.u2 thrown⟩, ⟨3, .dup, []⟩,
      ⟨4, .invokespecial, Bytes.u2 constructor⟩, ⟨7, .athrow, []⟩] :=
    .cons (hwidth thrown) (.cons rfl (.cons (hwidth constructor) (.cons rfl .nil)))
  refine placed?_eq_some.mpr ⟨hconsecutive, ?_⟩
  simp [throwingBytecode, bytesOf, PlacedInstruction.bytes]

/-- A single opcode without operands is one instruction. -/
theorem placed?_single {op : Opcode} (h : op.operandCount = 0) :
    placed? [op.code] = .ok (some [⟨0, op, []⟩]) :=
  placed?_eq_some.mpr ⟨.cons h.symm .nil, rfl⟩

theorem placed?_pair {op last : Opcode} (h : op.operandCount = 0) (h' : last.operandCount = 0) :
    placed? [op.code, last.code] = .ok (some [⟨0, op, []⟩, ⟨1, last, []⟩]) := by
  have hrest : Consecutive (0 + 1 + op.operandCount) [⟨1, last, []⟩] := by
    rw [h]
    exact .cons h'.symm .nil
  exact placed?_eq_some.mpr ⟨.cons h.symm hrest, rfl⟩

/-! ## Following a stub -/

/-- The constructor of the thrown class takes and gives nothing. -/
theorem parse_noArguments :
    MethodDescriptor.parse noArgumentsDescriptor = .ok ⟨[], .void⟩ := by decide +kernel

/-- Calling a constructor without arguments takes the instance and puts nothing back. -/
theorem stackEffect_constructor {constructor : Slot} {owner name : String} (pc : Nat)
    (h : pool.memberRef constructor = .ok ⟨owner, name, noArgumentsDescriptor⟩) :
    stackEffect pool ⟨pc, .invokespecial, Bytes.u2 constructor⟩ = .ok (1, 0) := by
  have hslot := PlacedInstruction.slot_u2 pc .invokespecial constructor []
  rw [List.append_nil] at hslot
  have hcallee := PlacedInstruction.callee?_eq_some.mpr
    ⟨_, hslot.symm ▸ h, parse_noArguments⟩
  exact (stackEffect_of_invocation rfl).trans
    (invocationEffect_eq_ok.mpr ⟨_, hcallee, rfl, rfl⟩)

section

variable {result : Category} {maxStack : UInt16} {depth popped pushed : Nat}
  {i : PlacedInstruction} {rest : List PlacedInstruction}

/-- An instruction that finds what it takes and has room for what it leaves changes the depth by
both. -/
theorem depthAfter_of_effect (h : stackEffect pool i = .ok (popped, pushed))
    (hpop : popped ≤ depth) (hpush : depth - popped + pushed ≤ maxStack.toNat) :
    depthAfter pool maxStack depth i = .ok (depth - popped + pushed) := by
  obtain ⟨hresolves, rfl, rfl⟩ := stackEffect_eq_ok.mp h
  exact depthAfter_eq_ok.mpr ⟨⟨hresolves, hpop, hpush⟩, rfl⟩

/-- An instruction that keeps within the stack and goes on. -/
theorem followed_step (h : stackEffect pool i = .ok (popped, pushed)) (hpop : popped ≤ depth)
    (hpush : depth - popped + pushed ≤ maxStack.toNat) (hgoes : i.opcode.isTerminator = false) :
    followed pool result maxStack depth (i :: rest) =
      followed pool result maxStack (depth - popped + pushed) rest := by
  rw [followed, depthAfter_of_effect h hpop hpush]
  simp only [bind, Except.bind, hgoes, Bool.false_eq_true, if_false]

/-- An instruction that keeps within the stack and ends the body. -/
theorem followed_last (h : stackEffect pool i = .ok (popped, pushed)) (hpop : popped ≤ depth)
    (hpush : depth - popped + pushed ≤ maxStack.toNat) (hends : i.opcode.isTerminator = true) :
    followed pool result maxStack depth [i] = resultMatches result i.opcode := by
  rw [followed, depthAfter_of_effect h hpop hpush]
  simp only [bind, Except.bind, hends, List.isEmpty_nil, if_true]

end

/-- Nothing is said against a body that throws. -/
theorem body_of_throws {result : Category} (hhandlers : code.handlers = #[])
    (h : code.Throws exceptionClass pool) : body pool result code = .ok () := by
  obtain ⟨hstack, thrown, constructor, hbytes, -, hconstructor⟩ := h
  have hplaced := placed?_throwing thrown constructor
  rw [← hbytes] at hplaced
  have hnew : stackEffect pool ⟨0, .new, Bytes.u2 thrown⟩ = .ok (0, 1) := rfl
  have hdup : stackEffect pool ⟨3, .dup, []⟩ = .ok (1, 2) := rfl
  have hcall := stackEffect_constructor 4 hconstructor
  have hthrow : stackEffect pool ⟨7, .athrow, []⟩ = .ok (1, 0) := rfl
  rw [body_of_placed hhandlers hbytes hplaced, hstack]
  -- the depth of the stack: 0, then 1 with the instance, 2 with its copy, 1 again
  rw [followed_step hnew (by decide) (by decide) rfl,
    followed_step hdup (by decide) (by decide) rfl,
    followed_step hcall (by decide) (by decide) rfl,
    followed_last hthrow (by decide) (by decide) rfl]
  exact if_pos (.inl rfl)

section

variable {category : Category} {zero : Opcode}

/-- The return of a category takes what a value of it takes. -/
theorem stackEffect_returnOpcode (category : Category) (pc : Nat) :
    stackEffect pool ⟨pc, category.returnOpcode, []⟩ = .ok (category.stackSize, 0) := by
  cases category <;> rfl

/-- The zero of a category puts there what a value of it takes. -/
theorem stackEffect_zero (h : category.zero? = some zero) (pc : Nat) :
    stackEffect pool ⟨pc, zero, []⟩ = .ok (0, category.stackSize) := by
  cases category <;> cases h <;> rfl

/-- An instruction that pushes a zero has no operands and goes on. -/
theorem zero_plain (h : category.zero? = some zero) :
    zero.operandCount = 0 ∧ zero.isTerminator = false := by
  cases category <;> cases h <;> exact ⟨rfl, rfl⟩

/-- An instruction that returns has no operands and ends the method. -/
theorem returnOpcode_plain (category : Category) :
    category.returnOpcode.operandCount = 0 ∧ category.returnOpcode.isTerminator = true := by
  cases category <;> exact ⟨rfl, rfl⟩

/-- Where there is no zero to push, nothing is returned. -/
theorem stackSize_of_no_zero (h : category.zero? = none) : category.stackSize = 0 := by
  cases category <;> cases h
  rfl

end

/-- Nothing is said against a body that returns the zero of its method's result. -/
theorem body_of_returnsZero {result : Category} (hhandlers : code.handlers = #[])
    (h : code.ReturnsZero result) : body pool result code = .ok () := by
  obtain ⟨hstack, hbytes⟩ := h
  obtain ⟨hcount, hends⟩ := returnOpcode_plain result
  unfold zeroBytecode at hbytes
  -- no result: the return alone; any other: its zero, then the return
  cases hzero : result.zero? with
  | none =>
    rw [hzero] at hbytes
    have hempty := stackSize_of_no_zero hzero
    have hplaced := placed?_single hcount
    have hcode : code.bytecode = [result.returnOpcode.code] := hbytes
    rw [← hcode] at hplaced
    rw [body_of_placed hhandlers hcode hplaced,
      followed_last (stackEffect_returnOpcode result 0) (by omega) (by omega) hends]
    exact if_pos (.inr rfl)
  | some zero =>
    rw [hzero] at hbytes
    obtain ⟨hcount', hgoes⟩ := zero_plain hzero
    have hplaced := placed?_pair hcount' hcount
    have hcode : code.bytecode = [zero.code, result.returnOpcode.code] := hbytes
    rw [← hcode] at hplaced
    rw [body_of_placed hhandlers hcode hplaced,
      followed_step (stackEffect_zero hzero 0) (by omega) (by omega) hgoes,
      followed_last (stackEffect_returnOpcode result 1) (by omega) (by omega) hends]
    exact if_pos (.inr rfl)

/-- Nothing is said against a stub. -/
theorem body_of_isStub {name : String} {descriptor : MethodDescriptor} {static : Bool}
    (h : code.IsStub exceptionClass pool name descriptor static) :
    body pool descriptor.result.category code = .ok () := by
  have hinstructions := h.instructions
  by_cases hname : name = constructorName
  · rw [if_pos hname] at hinstructions
    exact body_of_throws h.handlers hinstructions
  · rw [if_neg hname] at hinstructions
    exact body_of_returnsZero h.handlers hinstructions

/-! ## Methods that have their stubs -/

/-- A method that is as stubbing leaves it is only at fault in its modifiers, or in its descriptor
where it has no body. -/
theorem method_eq_error {cf : ClassFile} {m : Member} {name text : String} {fault : MethodFault}
    (hname : cf.pool.utf8 m.nameSlot = .ok name) (htext : cf.pool.utf8 m.descriptorSlot = .ok text)
    (hbodiless : m.access.isBodiless = true → m.codeAttributes cf.pool = [])
    (hstub : m.access.isBodiless = false → m.HasStub exceptionClass cf.pool)
    (h : method cf m = .error fault) :
    (m.access.areValidFor cf = false ∧ fault = .invalidAccess m.access) ∨
      (m.access.isBodiless = true ∧ ∃ e, MethodDescriptor.parse text = .error e ∧
        fault = .invalidDescriptor e) := by
  unfold method at h
  cases haccess : m.access.areValidFor cf with
  | false =>
    rw [haccess] at h
    cases h
    exact .inl ⟨rfl, rfl⟩
  | true =>
    right
    simp only [haccess, textAt, hname, htext, parsedDescriptor, Except.mapError, Bool.not_true,
      Bool.false_eq_true, if_false, bind, Except.bind] at h
    cases hbody : m.access.isBodiless with
    | true =>
      cases hparse : MethodDescriptor.parse text with
      | error e =>
        rw [hparse] at h
        cases h
        exact ⟨rfl, e, rfl, rfl⟩
      | ok descriptor =>
        have hnone : onlyCode? cf.pool m = .ok none := by rw [onlyCode?, hbodiless hbody]
        rw [hparse, hbody, hnone] at h
        cases h
    | false =>
      -- with its stub, the method passes, so there is no fault to explain
      obtain ⟨a, others, code, name', text', descriptor, -, hcode, hdecode, -, htext', hparse,
        hisStub⟩ := hstub hbody
      cases htext.symm.trans htext'
      have hone : onlyCode? cf.pool m = .ok (some a) := by rw [onlyCode?, hcode]
      have hlocals : ¬ code.maxLocals < descriptor.argumentSlotCount m.access.isStatic := by
        rw [hisStub.maxLocals_eq]
        exact UInt16.lt_irrefl _
      rw [hparse, hbody, hone] at h
      simp only [hdecode, if_neg hlocals, body_of_isStub hisStub] at h
      cases h

/-- A method that passes has modifiers that can stand together and a descriptor that can be read. -/
theorem valid_of_method {cf : ClassFile} {m : Member} (h : method cf m = .ok ()) :
    m.access.areValidFor cf = true ∧ ∃ text descriptor,
      cf.pool.utf8 m.descriptorSlot = .ok text ∧ MethodDescriptor.parse text = .ok descriptor := by
  unfold method at h
  cases haccess : m.access.areValidFor cf with
  | false =>
    rw [haccess] at h
    cases h
  | true =>
    rw [haccess] at h
    obtain ⟨name, hname, h⟩ := except_bind_eq_ok.mp h
    obtain ⟨text, htext, h⟩ := except_bind_eq_ok.mp h
    obtain ⟨descriptor, hparse, h⟩ := except_bind_eq_ok.mp h
    exact ⟨rfl, text, descriptor, mapError_eq_ok.mp htext, mapError_eq_ok.mp hparse⟩

end JvmStub.Check
