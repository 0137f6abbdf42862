/-
`Words.lean` -- the check of a body in machine words.

The check follows the stack in numbers without a bound. Here it is once more with the
operations that a machine has: sums that must fit a word, a difference that must not go
below nothing, and places in a list that must exist. Any of them can fail, and then
there is no result at all, which is not the same as a fault that is found.

None of them fails. An instruction that was taken apart has its operands, a body that is
not empty has a last instruction, and the depth of the stack is at most what sixteen
bits hold before each instruction, because nothing deeper passes. The only number that
is not bounded by the check is that of the units of the parameters of a called method.
The check counts them in sixteen bits and wraps; here a sum that does not fit is no
result, and so there is a hypothesis that the true sum fits.
-/
import JvmStub.Proofs.Check.StraightLine
import Mathlib.Data.Nat.PSub

set_option autoImplicit false

namespace JvmStub.Check

/-! ## Operations that may fail -/

/-- A check in words: nothing when an operation in it fails. -/
abbrev WordM := ExceptT MethodFault Option

/-- A step that does without words. -/
def WordM.plain {α : Type} (x : Except MethodFault α) : WordM α := ExceptT.mk (some x)

/-- A number in a word of some bits. -/
def word (bits n : Nat) : Option Nat := if n < 2 ^ bits then some n else none

/-- The units of the parameters, added up in sixteen bits. -/
def parameterWord (descriptor : MethodDescriptor) : Option Nat :=
  descriptor.parameters.foldlM (fun slots type => word 16 (slots + type.slotSize)) 0

/-- The slot that the first two operands name, read operand by operand. -/
def slotWord (i : PlacedInstruction) : Option Slot := do
  let high ← i.operands[0]?
  let low ← i.operands[1]?
  return UInt16.ofNat (high.toNat * 256 + low.toNat)

/-- The units that an invocation takes from the stack and puts on it. -/
def invocationEffectInWords (pool : ConstantPool) (i : PlacedInstruction) : WordM (Nat × Nat) := do
  let slot ← slotWord i
  let invoked ← WordM.plain ((pool.memberRef slot).mapError (slotFault slot))
  let descriptor ← WordM.plain (parsedDescriptor invoked.descriptor)
  let parameters ← parameterWord descriptor
  let popped ← word 32 (parameters + if i.opcode = .invokestatic then 0 else 1)
  return (popped, descriptor.result.category.stackSize)

/-- The units that an instruction takes from the stack and puts on it. -/
def stackEffectInWords (pool : ConstantPool) (i : PlacedInstruction) : WordM (Nat × Nat) :=
  if i.opcode.isInvocation then invocationEffectInWords pool i
  else WordM.plain (stackEffect pool i)

/-- The depth of the stack behind an instruction. -/
def depthAfterInWords (pool : ConstantPool) (maxStack : UInt16) (depth : Nat)
    (i : PlacedInstruction) : WordM Nat := do
  let (popped, pushed) ← stackEffectInWords pool i
  if depth < popped then throw (.stackUnderflow i.pc)
  let depth ← word 32 (depth - popped + pushed)
  if maxStack.toNat < depth then throw (.stackOverflow i.pc depth maxStack)
  return depth

/-- Checks an instruction at some position for ending the body, where the last one is known. -/
def endsAt (result : Category) (last position : Nat) (i : PlacedInstruction) :
    Except MethodFault Unit :=
  if i.opcode.isTerminator then
    if position = last then resultMatches result i.opcode else .error (.terminatorNotLast i.pc)
  else .ok ()

/-- Follows the instructions of `all` from one position on, and looks at the last one again. -/
def followedInWords (pool : ConstantPool) (result : Category) (maxStack : UInt16)
    (all : List PlacedInstruction) (last : Nat) :
    (position depth : Nat) → List PlacedInstruction → WordM Unit
  | _, _, [] => do
    let i ← liftM all[last]?
    if i.opcode.isTerminator then return else throw .fallsOffEnd
  | position, depth, i :: rest => do
    let depth ← depthAfterInWords pool maxStack depth i
    WordM.plain (endsAt result last position i)
    followedInWords pool result maxStack all last (position + 1) depth rest

/-- Checks the body of a method that gives back `result`. -/
def bodyInWords (pool : ConstantPool) (result : Category) (code : Code) : WordM Unit := do
  if code.bytecode.isEmpty then throw .emptyCode
  if !code.handlers.isEmpty then return
  match ← WordM.plain (placed? code.bytecode) with
  | none => return
  | some instructions =>
    let last ← instructions.length.ppred
    followedInWords pool result code.maxStack instructions last 0 0 instructions

/-! ## No operation fails -/

section

variable {α β : Type}

/-- Steps that come out as steps without words do so in sequence. -/
theorem run_bind {x : WordM α} {y : Except MethodFault α} {f : α → WordM β}
    {g : α → Except MethodFault β} (hx : x.run = some y)
    (hf : ∀ a, y = .ok a → (f a).run = some (g a)) : (x >>= f).run = some (y >>= g) := by
  cases y with
  | error e =>
    change (x.run.bind _) = _
    rw [hx]
    rfl
  | ok a =>
    change (x.run.bind _) = _
    rw [hx]
    exact hf a rfl

/-- An operation that has a result hands it on. -/
theorem run_lift_bind {x : Option α} {a : α} {f : α → WordM β} (hx : x = some a) :
    ((liftM x : WordM α) >>= f).run = (f a).run := by
  rw [hx]
  rfl

/-- A step without arithmetic cannot fail. -/
theorem run_plain (x : Except MethodFault α) : (WordM.plain x).run = some x := rfl

theorem plain_ok_bind (a : α) (f : α → WordM β) : (WordM.plain (.ok a) >>= f) = f a := rfl

end

/-- A number that fits its word is the word. -/
theorem word_of_lt {bits n : Nat} (h : n < 2 ^ bits) : word bits n = some n := if_pos h

variable {pool : ConstantPool} {result : Category} {maxStack : UInt16} {i : PlacedInstruction}
  {rest : List PlacedInstruction}

/-- Adding up never goes down, so a sum on the way is at most the sum of all. -/
theorem le_foldl_slotSize (types : List FieldType) (start : Nat) :
    start ≤ types.foldl (fun slots type => slots + type.slotSize) start := by
  induction types generalizing start with
  | nil => exact Nat.le_refl _
  | cons type types ih => exact Nat.le_trans (Nat.le_add_right ..) (ih _)

/-- Slots are added up in words. If the sum fits then so do all sums on the way to it, since they
only grow. -/
theorem foldlM_word {types : List FieldType} {start : Nat}
    (h : types.foldl (fun slots type => slots + type.slotSize) start ≤ 65535) :
    types.foldlM (fun slots type => word 16 (slots + type.slotSize)) start =
      some (types.foldl (fun slots type => slots + type.slotSize) start) := by
  induction types generalizing start with
  | nil => rfl
  | cons type types ih =>
    have hle := le_foldl_slotSize types (start + type.slotSize)
    have hfits : start + type.slotSize < 2 ^ 16 :=
      Nat.lt_of_le_of_lt (Nat.le_trans hle h) (by decide)
    rw [List.foldlM_cons, word_of_lt hfits]
    exact ih h

/-- So the slots of the parameters of a callee are their sum, if the sum fits. -/
theorem parameterWord_eq {descriptor : MethodDescriptor} (h : descriptor.parameterSlots ≤ 65535) :
    parameterWord descriptor = some descriptor.parameterSlots :=
  foldlM_word h

theorem slotWord_eq (h : 2 ≤ i.operands.length) : slotWord i = some i.slot := by
  obtain ⟨pc, op, operands⟩ := i
  match operands, h with
  | high :: low :: operands, _ =>
    simp [slotWord, PlacedInstruction.slot, Bytes.number]

/-- Every call has the two operands that name its method. -/
theorem two_le_operandCount {op : Opcode} (h : op.isInvocation = true) : 2 ≤ op.operandCount := by
  cases op <;> first | decide | cases h

/-- No instruction puts more than two units on the stack. -/
theorem given_le_two (pool : ConstantPool) (i : PlacedInstruction) : i.given pool ≤ 2 := by
  have hresult : ∀ category : Category, category.stackSize ≤ 2 := by
    rintro (_ | _ | _ | _ | _ | _) <;> decide
  unfold PlacedInstruction.given
  split
  · split
    · exact hresult _
    · exact Nat.zero_le 2
  · cases i.opcode <;> decide

/-- An instruction that has its operands and calls nothing with too many parameters. -/
structure FitsWords (pool : ConstantPool) (i : PlacedInstruction) : Prop where
  width : i.operands.length = i.opcode.operandCount
  parameters : i.opcode.isInvocation = true → ∀ callee, i.callee? pool = some callee →
    callee.parameterSlots ≤ 65535

/-- What an instruction takes and leaves is found without failing. -/
theorem stackEffectInWords_eq (h : FitsWords pool i) :
    (stackEffectInWords pool i).run = some (stackEffect pool i) := by
  unfold stackEffectInWords
  split
  · next hcall =>
    have hslot := slotWord_eq (h.width ▸ two_le_operandCount hcall)
    rw [stackEffect_of_invocation hcall]
    unfold invocationEffectInWords invocationEffect
    rw [run_lift_bind hslot]
    refine run_bind (run_plain _) fun invoked hinvoked => ?_
    refine run_bind (run_plain _) fun descriptor hdescriptor => ?_
    have hcallee := PlacedInstruction.callee?_eq_some.mpr
      ⟨invoked, mapError_eq_ok.mp hinvoked, mapError_eq_ok.mp hdescriptor⟩
    have hbound := h.parameters hcall descriptor hcallee
    have hfits : descriptor.parameterSlots + (if i.opcode = .invokestatic then 0 else 1) <
        2 ^ 32 := by
      split <;> omega
    rw [run_lift_bind (parameterWord_eq hbound), run_lift_bind (word_of_lt hfits),
      MethodDescriptor.toNat_parameterSlotCount hbound]
    rfl
  · rfl

/-- The depth fits a word because it did not pass sixteen bits before. -/
theorem depthAfterInWords_eq {depth : Nat} (h : FitsWords pool i) (hdepth : depth ≤ 65535) :
    (depthAfterInWords pool maxStack depth i).run = some (depthAfter pool maxStack depth i) := by
  unfold depthAfterInWords depthAfter
  refine run_bind (stackEffectInWords_eq h) fun effect heffect => ?_
  obtain ⟨popped, pushed⟩ := effect
  obtain ⟨-, hpopped, hpushed⟩ := stackEffect_eq_ok.mp heffect
  have htwo := given_le_two pool i
  have hfits : depth - popped + pushed < 2 ^ 32 := by omega
  dsimp only
  split
  · rfl
  · rw [run_lift_bind (word_of_lt hfits)]
    split <;> rfl

/-- An instruction that goes on may stand anywhere. -/
theorem endsAt_of_goes_on (h : i.opcode.isTerminator = false) (last position : Nat) :
    endsAt result last position i = .ok () := by
  simp [endsAt, h]

/-- An instruction that does not go on has to be the last, and to return what the method returns. -/
theorem endsAt_of_terminator (h : i.opcode.isTerminator = true) (last position : Nat) :
    endsAt result last position i =
      if position = last then resultMatches result i.opcode
      else .error (.terminatorNotLast i.pc) := by
  simp [endsAt, h]

/-- From the place where an instruction stands on, with the length of the rest known, following in
words comes out as following does: what was followed before is only there to be counted. -/
theorem followedInWords_eq (before : List PlacedInstruction) {depth : Nat}
    (hfits : ∀ j ∈ i :: rest, FitsWords pool j) (hdepth : depth ≤ 65535) :
    (followedInWords pool result maxStack (before ++ i :: rest) (before.length + rest.length)
      before.length depth (i :: rest)).run =
        some (followed pool result maxStack depth (i :: rest)) := by
  induction rest generalizing before depth i with
  | nil =>
    have hlast : (before ++ [i])[before.length + ([] : List PlacedInstruction).length]? =
        some i := by
      simp
    rw [followedInWords, followed]
    refine run_bind (depthAfterInWords_eq (List.forall_mem_singleton.mp hfits) hdepth)
      fun after hafter => ?_
    cases hend : i.opcode.isTerminator with
    | true =>
      have hposition : before.length = before.length + ([] : List PlacedInstruction).length := rfl
      rw [endsAt_of_terminator hend, if_pos hposition, if_pos rfl, if_pos List.isEmpty_nil]
      refine Eq.trans (run_bind (run_plain _) fun _ _ => ?_) (congrArg some (bind_pure _))
      rw [followedInWords, run_lift_bind hlast, if_pos hend]
      rfl
    | false =>
      rw [endsAt_of_goes_on hend, plain_ok_bind, followedInWords, run_lift_bind hlast, hend]
      rfl
  | cons j rest ih =>
    obtain ⟨hfit, hfitsRest⟩ := List.forall_mem_cons.mp hfits
    rw [followedInWords, followed]
    refine run_bind (depthAfterInWords_eq hfit hdepth) fun after hafter => ?_
    cases hend : i.opcode.isTerminator with
    | true =>
      have hposition : before.length ≠ before.length + (j :: rest).length :=
        Nat.ne_of_lt (Nat.lt_add_of_pos_right (Nat.succ_pos _))
      rw [endsAt_of_terminator hend, if_neg hposition]
      rfl
    | false =>
      -- nothing deeper than the bound of the body passes, and the bound has sixteen bits
      have hbound := (depthAfter_eq_ok.mp hafter).1.2.2
      have hstack := maxStack.toNat_lt
      have hafter : after ≤ 65535 := by omega
      have hall : before ++ i :: j :: rest = (before ++ [i]) ++ j :: rest := by simp
      have hplace : before.length + (j :: rest).length = (before ++ [i]).length + rest.length := by
        simp only [List.length_append, List.length_cons, List.length_nil]
        omega
      have hrest := ih (before ++ [i]) hfitsRest hafter
      rw [endsAt_of_goes_on hend, plain_ok_bind, hall, hplace]
      rw [List.length_append] at hrest ⊢
      exact hrest

/-- No operation of the check fails, and it finds in words what it finds in numbers. -/
theorem bodyInWords_eq {code : Code} (hfits : ∀ is, placed? code.bytecode = .ok (some is) →
    ∀ i ∈ is, FitsWords pool i) :
    (bodyInWords pool result code).run = some (body pool result code) := by
  unfold bodyInWords body
  dsimp only
  split
  · rfl
  · next hnonempty =>
    split
    · rfl
    · refine run_bind (run_plain _) fun placed hplaced => ?_
      match placed with
      | none => rfl
      | some [] =>
        obtain ⟨-, hbytes⟩ := placed?_eq_some.mp hplaced
        exact absurd (List.isEmpty_iff.mpr hbytes) hnonempty
      | some (i :: is) =>
        -- the last instruction is looked up by its number, which exists since there is one
        have hlast : (i :: is).length.ppred = some is.length := rfl
        refine Eq.trans (run_lift_bind hlast) ?_
        have hplace : is.length = ([] : List PlacedInstruction).length + is.length :=
          (Nat.zero_add _).symm
        rw [hplace]
        exact followedInWords_eq [] (hfits _ hplaced) (Nat.zero_le 65535)

/-- The check of a body is exact. A body that catches nothing and that complete instructions spell
passes exactly where they run straight through. A body with an unnamed opcode behind complete
instructions passes. And where the methods that are called have parameters of at most 65535 units,
a call takes as many units as its arguments have, and no operation of the check fails. -/
theorem body_exact (pool : ConstantPool) (descriptor : MethodDescriptor) (code : Code) :
    (∀ is, code.bytecode ≠ [] → code.handlers = #[] → Consecutive 0 is →
      code.bytecode = bytesOf is →
      (body pool descriptor.result.category code = .ok () ↔
        StraightLine pool descriptor.result.category code.maxStack 0 is)) ∧
    (∀ is byte rest, Consecutive 0 is → code.bytecode = bytesOf is ++ byte :: rest →
      Opcode.ofCode? byte = none → body pool descriptor.result.category code = .ok ()) ∧
    ((∀ is, Consecutive 0 is → code.bytecode = bytesOf is →
      ∀ i ∈ is, i.opcode.isInvocation = true → ∀ callee, i.callee? pool = some callee →
        callee.parameterSlots ≤ 65535) →
      (∀ is, Consecutive 0 is → code.bytecode = bytesOf is →
        ∀ i ∈ is, i.opcode.isInvocation = true → ∀ callee, i.callee? pool = some callee →
          i.taken pool = callee.argumentSlots (i.opcode = .invokestatic)) ∧
      (bodyInWords pool descriptor.result.category code).run =
        some (body pool descriptor.result.category code)) := by
  refine ⟨?_, ?_, ?_⟩
  · intro is hnonempty hhandlers hconsecutive hbytes
    have hplaced := placed?_eq_some.mpr ⟨hconsecutive, hbytes⟩
    obtain ⟨byte, bytes, hcons⟩ := List.exists_cons_of_ne_nil hnonempty
    rw [body_of_placed hhandlers hcons hplaced, followed_eq_ok]
    rfl
  · intro is byte rest hconsecutive hbytes hbyte
    exact body_of_unnamed (placed?_of_unnamed hconsecutive hbyte hbytes)
  · intro hslots
    refine ⟨fun is his hbytes i hi hcall callee hcallee =>
      PlacedInstruction.taken_of_callee hcall hcallee (hslots is his hbytes i hi hcall callee hcallee),
      bodyInWords_eq fun is hplaced i hi => ?_⟩
    obtain ⟨hconsecutive, hbytes⟩ := placed?_eq_some.mp hplaced
    exact ⟨hconsecutive.width i hi, hslots is hconsecutive hbytes i hi⟩

/-- A pool with a method of three units of parameters, in slot 6. -/
def pickPool : ConstantPool :=
  ⟨#[.utf8 "Widget", .classRef 1, .utf8 "pick", .utf8 "(IJ)I", .nameAndType 3 4, .methodRef 2 5]⟩

/-- The method is called with zeros and its result is returned. -/
def pickInstructions : List PlacedInstruction :=
  [⟨0, .iconst0, []⟩, ⟨1, .lconst0, []⟩, ⟨2, .invokestatic, [0, 6]⟩, ⟨5, .ireturn, []⟩]

/-- A body with a call that takes the whole stack, and one that loads a local variable. -/
theorem body_exact_pick :
    Consecutive 0 pickInstructions ∧
    StraightLine pickPool .int 3 0 pickInstructions ∧
    (bodyInWords pickPool .int ⟨3, 0, bytesOf pickInstructions, #[], #[]⟩).run = some (.ok ()) ∧
    body pickPool .int ⟨1, 2, [0x03, 0x1B, 0xAC], #[], #[]⟩ = .ok () := by
  have hconsecutive : Consecutive 0 pickInstructions :=
    .cons rfl (.cons rfl (.cons rfl (.cons rfl .nil)))
  have hplaced := placed?_eq_some.mpr ⟨hconsecutive, rfl⟩
  -- the bytecode has one reading only, and the callee in it takes nothing
  have hslots : ∀ is, Consecutive 0 is → bytesOf pickInstructions = bytesOf is →
      ∀ i ∈ is, i.opcode.isInvocation = true → ∀ callee, i.callee? pickPool = some callee →
        callee.parameterSlots ≤ 65535 := by
    intro is his hbytes i hi _ callee hcallee
    have hall : ∀ j ∈ pickInstructions,
        (j.callee? pickPool).all (fun callee => callee.parameterSlots ≤ 65535) = true := by
      decide +kernel
    have his := hplaced.symm.trans (placed?_eq_some.mpr ⟨his, hbytes⟩)
    cases his
    have hone := hall i hi
    rw [hcallee] at hone
    exact of_decide_eq_true hone
  have hbody : body pickPool .int ⟨3, 0, bytesOf pickInstructions, #[], #[]⟩ = .ok () := by
    decide +kernel
  obtain ⟨hexact, -, hwords⟩ := body_exact pickPool ⟨[], .value ⟨0, .int⟩⟩
    ⟨3, 0, bytesOf pickInstructions, #[], #[]⟩
  obtain ⟨-, hunnamed, -⟩ := body_exact pickPool ⟨[], .value ⟨0, .int⟩⟩
    ⟨1, 2, [0x03, 0x1B, 0xAC], #[], #[]⟩
  refine ⟨hconsecutive, (hexact _ (by decide) rfl hconsecutive rfl).mp hbody,
    (hwords hslots).2.trans (congrArg some hbody),
    hunnamed [⟨0, .iconst0, []⟩] 0x1B [0xAC] (.cons rfl .nil) rfl (by decide)⟩

end JvmStub.Check
