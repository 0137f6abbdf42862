/-
`Disassembly.lean` -- a body that is told instruction by instruction and taken apart again.

How many bytes an instruction has is said twice: where it is written, by what it names,
and where bytecode is taken apart, by its opcode. The two agree for instructions that
are `Named`: those of this library, each with an opcode for what it names. One
instruction is enough to see this, because the bytes of a body are those of its
instructions one after the other; `exists_placed` puts them in their places.

What is read in such a place leads to the names that were told. Their slots are those of
the pool that the class had then, and the pool only grows, so they lead to the same
names however much the class is told afterwards.
-/
import JvmStub.Proofs.Assembly.Bytecode
import JvmStub.Proofs.Assembly.Headers
import JvmStub.Proofs.Check.StraightLine

set_option autoImplicit false

namespace JvmStub

open ConstantPool Check

variable {pool later : ConstantPool}

/-! ## One instruction -/

namespace Instruction

/-- The opcode is one of this library, and one that takes what the instruction names. -/
def Named : Instruction → Prop
  | .simple opcode => ∃ op : Opcode, op.code = opcode ∧ op.operandCount = 0
  | .onClass opcode _ => ∃ op ∈ [Opcode.new, .checkcast, .instanceof], op.code = opcode
  | .onMethod opcode .. => ∃ op : Opcode, op.code = opcode ∧ op.isInvocation = true

/-- The instruction is the one that was found in a place: it has the same opcode, its operands lead
to the same names, and behind the slot of an interface call there are the units of its arguments and
its receiver, cut to a byte, and a zero. -/
def FoundAs (pool : ConstantPool) : Instruction → PlacedInstruction → Prop
  | .simple opcode, p => p.opcode.code = opcode ∧ p.operands = []
  | .onClass opcode className, p =>
    p.opcode.code = opcode ∧ pool.className p.slot = .ok className
  | .onMethod opcode owner name descriptor _, p =>
    p.opcode.code = opcode ∧ pool.memberRef p.slot = .ok ⟨owner, name, descriptor⟩ ∧
      (p.opcode = .invokeinterface → ∃ parsed, MethodDescriptor.parse descriptor = .ok parsed ∧
        p.operands.drop 2 = [UInt8.ofNat (parsed.parameterSlots + 1), 0])

/-- What is left of the units in a byte does not depend on whether they were cut to sixteen bits
before. -/
theorem toUInt8_parameterSlotCount (descriptor : MethodDescriptor) :
    (descriptor.parameterSlotCount + 1).toUInt8 = UInt8.ofNat (descriptor.parameterSlots + 1) := by
  rw [MethodDescriptor.parameterSlotCount_eq, UInt16.toUInt8_add, UInt16.toUInt8_ofNat',
    UInt8.ofNat_add]
  rfl

/-- The bytes of an instruction are its opcode and as many operands as belong to that. -/
theorem exists_found {i : Instruction} {bytes : Bytes} (h : i.SpelledBy pool bytes)
    (hnamed : i.Named) : ∃ (op : Opcode) (operands : Bytes), bytes = op.code :: operands ∧
      operands.length = op.operandCount ∧ ∀ pc, i.FoundAs pool ⟨pc, op, operands⟩ := by
  have hwidth : ∀ slot : Slot, (Bytes.u2 slot).length = 2 := fun _ => Bytes.length_bigEndian _ _
  cases h with
  | simple opcode =>
    obtain ⟨op, rfl, hcount⟩ := hnamed
    exact ⟨op, [], rfl, hcount.symm, fun _ => ⟨rfl, rfl⟩⟩
  | @onClass opcode className slot hslot =>
    obtain ⟨op, hop, rfl⟩ := hnamed
    have hcount : op.operandCount = 2 := by
      have hall : ∀ op ∈ [Opcode.new, .checkcast, .instanceof], op.operandCount = 2 := by decide
      exact hall op hop
    refine ⟨op, Bytes.u2 slot ++ [], by rw [List.append_nil], ?_, fun pc => ⟨rfl, ?_⟩⟩
    · rw [List.append_nil, hwidth, hcount]
    · rw [PlacedInstruction.slot_u2]
      exact hslot
  | @onMethod opcode owner name descriptor ofInterface slot behind hslot htail =>
    obtain ⟨op, rfl, hcall⟩ := hnamed
    have hmember : ∀ pc rest,
        pool.memberRef (PlacedInstruction.slot ⟨pc, op, Bytes.u2 slot ++ rest⟩) =
          .ok ⟨owner, name, descriptor⟩ := by
      intro pc rest
      rw [PlacedInstruction.slot_u2]
      exact hslot.memberRef
    -- only an interface call has bytes behind its slot: a count of one byte, and a zero
    by_cases hinterface : op = .invokeinterface
    · subst hinterface
      rw [Instruction.tail, if_pos rfl] at htail
      cases hparse : MethodDescriptor.parse descriptor with
      | error e =>
        rw [hparse] at htail
        cases htail
      | ok parsed =>
        rw [hparse] at htail
        cases htail
        refine ⟨.invokeinterface, _, rfl, rfl, fun pc => ⟨rfl, hmember pc _, fun _ =>
          ⟨parsed, hparse, ?_⟩⟩⟩
        rw [← toUInt8_parameterSlotCount]
        exact List.drop_left' (hwidth slot)
    · have hcode : op.code ≠ Opcode.invokeinterface.code := by
        intro h
        have hsame := congrArg Opcode.ofCode? h
        rw [Opcode.ofCode?_code, Opcode.ofCode?_code] at hsame
        exact hinterface (Option.some.inj hsame)
      have hcount : op.operandCount = 2 := by
        cases op <;> first | rfl | exact absurd rfl hinterface | cases hcall
      rw [Instruction.tail, if_neg hcode] at htail
      cases htail
      refine ⟨op, Bytes.u2 slot ++ [], rfl, ?_, fun pc => ⟨rfl, hmember pc [], fun h =>
        absurd h hinterface⟩⟩
      rw [List.append_nil, hwidth, hcount]

end Instruction

/-! ## All instructions of a body -/

/-- The bytes of instructions are those of instructions in their places, from anywhere on. -/
theorem exists_placed {is : List Instruction} {bytes : Bytes} (h : Bytecode pool is bytes)
    (hnamed : ∀ i ∈ is, i.Named) (pc : Nat) : ∃ placed, Consecutive pc placed ∧
      bytes = bytesOf placed ∧ List.Forall₂ (Instruction.FoundAs pool) is placed := by
  obtain ⟨chunks, hchunks, rfl⟩ := h
  induction hchunks generalizing pc with
  | nil => exact ⟨[], .nil, rfl, .nil⟩
  | @cons i chunk is chunks hi _ ih =>
    obtain ⟨hfirst, hrest⟩ := List.forall_mem_cons.mp hnamed
    obtain ⟨op, operands, rfl, hwidth, hfound⟩ := Instruction.exists_found hi hfirst
    obtain ⟨placed, hconsecutive, hbytes, hplaced⟩ := ih hrest (pc + 1 + op.operandCount)
    refine ⟨⟨pc, op, operands⟩ :: placed, .cons hwidth hconsecutive, ?_, .cons (hfound pc) hplaced⟩
    rw [List.flatten_cons, hbytes]
    rfl

/-- Where nothing but instructions was accepted, what they have left are their bytes. -/
theorem bytecode_of_instructions {is : List Instruction} {bytes : Bytes}
    (h : LeftBy pool (is.map fun i => (.instruction i, .ok ())) bytes) :
    Bytecode pool is bytes := by
  obtain ⟨chunks, hchunks, rfl⟩ := h
  refine ⟨chunks, (List.forall₂_map_left_iff.mp hchunks).imp fun i chunk hleaves => ?_, rfl⟩
  cases hleaves with
  | spelled hspelled => exact hspelled

/-! ## What the class is told afterwards -/

/-- A class that may have been told more: its pool has grown, and its methods are in their
places. -/
structure ClassAssembly.Continues (a a' : ClassAssembly) : Prop where
  grown : Grown (fun _ => True) a.classFile.pool a'.classFile.pool
  methods : a.classFile.methods.toList <+: a'.classFile.methods.toList

variable {a a₁ a' : ClassAssembly}

theorem continues_of_answer (hn : a.classFile.pool.Numbered) {e : ClassEvent} {answer : Answer}
    (hrun : ClassAssembly.sink.answer e a = (answer, a')) : a.Continues a' := by
  by_cases he : ∀ new, e ≠ .header new
  · have hframe := memberFrame_of_answer hn he hrun
    exact ⟨hframe.grown, hframe.methods⟩
  · obtain ⟨new, rfl⟩ := not_forall_not.mp he
    have hframe : ClassAssembly.HeaderFrame (fun _ => True) a (ClassAssembly.header new a).2 :=
      ClassAssembly.headerFrame_header hn fun _ _ => trivial
    cases hheader : ClassAssembly.header new a with
    | mk result a₁ =>
      cases hrun.symm.trans (answer_of_header hheader)
      rw [hheader] at hframe
      exact ⟨hframe.grown, hframe.methods ▸ List.prefix_rfl⟩

theorem continues_of_answers (hn : a.classFile.pool.Numbered) {events : List ClassEvent}
    {answers : Array Answer} (hrun : ClassAssembly.sink.answers events a = (answers, a')) :
    a.Continues a' := by
  induction events using List.reverseRecOn generalizing answers a' with
  | nil =>
    cases hrun
    exact ⟨Grown.refl _ _, List.prefix_rfl⟩
  | append_singleton events e ih =>
    cases hbefore : ClassAssembly.sink.answers events a with
    | mk before mid =>
      cases hanswer : ClassAssembly.sink.answer e mid with
      | mk answer a'' =>
        cases (answers_snoc hbefore hanswer).symm.trans hrun
        have hmid := ih hbefore
        have hlast := continues_of_answer (hmid.grown.numbered hn) hanswer
        exact ⟨hmid.grown.trans hlast.grown, hmid.methods.trans hlast.methods⟩

/-! ## The body in the class -/

/-- The rest behind the last of some entries is known from the list. -/
theorem tail_eq_of_notMem {α : Type} {y : α} {before before' rest rest' : List α}
    (hrest : y ∉ rest) (hrest' : y ∉ rest') (h : before ++ y :: rest = before' ++ y :: rest') :
    rest = rest' := by
  rcases List.append_eq_append_iff.mp h with ⟨mid, -, hmid⟩ | ⟨mid, -, hmid⟩
  · rcases List.cons_eq_append_iff.mp hmid with ⟨-, hsame⟩ | ⟨mid', -, rfl⟩
    · exact (List.cons.inj hsame).2.symm
    · exact absurd (List.mem_append_right _ List.mem_cons_self) hrest
  · rcases List.cons_eq_append_iff.mp hmid with ⟨-, hsame⟩ | ⟨mid', -, rfl⟩
    · exact (List.cons.inj hsame).2
    · exact absurd (List.mem_append_right _ List.mem_cons_self) hrest'

/-- A body that was told instruction by instruction, with nothing refused from its start to its end,
is in the class when the method's end has been accepted as well, and whatever the class is told
afterwards. It is taken apart into as many instructions as were told, and each is the one that was
told. -/
theorem placed_of_answers (hn : a.classFile.pool.Numbered) {decl : MethodDecl}
    {sent : List MethodEvent} {answers : Array (Except Error Unit)}
    {before after : List (MethodEvent × Except Error Unit)} {is : List Instruction}
    {maxStack maxLocals : UInt16} {events : List ClassEvent} {more : Array Answer}
    (hrun : ClassAssembly.sink.answer (.method decl sent) a = (.method (.ok answers), a₁))
    (hsent : sent.zip answers.toList = before ++ (.beginBody, .ok ()) ::
      is.map (fun i => (.instruction i, .ok ())) ++ (.endBody maxStack maxLocals, .ok ()) :: after)
    (hend : .finish ∈ acceptedOf sent answers.toList) (hnamed : ∀ i ∈ is, i.Named)
    (hmore : ClassAssembly.sink.answers events a₁ = (more, a')) :
    ∃ member bytes placed,
      a'.classFile.methods[a.classFile.methods.size]? = some member ∧
      member.Has a'.classFile.pool decl (some ⟨maxStack, maxLocals, bytes, #[], #[]⟩)
        ((acceptedOf sent answers.toList).filterMap MethodEvent.attribute?) ∧
      placed? bytes = .ok (some placed) ∧
      List.Forall₂ (Instruction.FoundAs a'.classFile.pool) is placed := by
  have hnumbered := (continues_of_answer hn hrun).grown.numbered hn
  have hcontinues := continues_of_answers hnumbered hmore
  have hbody : (.endBody maxStack maxLocals, .ok ()) ∈ sent.zip answers.toList := by
    rw [hsent]
    simp
  obtain ⟨member, bytes, before', inside, after', hmethods, hhas, hsplit, hlast, hnone, hleft⟩ :=
    closed_of_answer hn hrun hend hbody
  have hinside : inside = is.map fun i => (.instruction i, .ok ()) := by
    -- only one end of a body was accepted, and the body begins at the last start before it
    have hother : (.endBody maxStack maxLocals, .ok ()) ∉ before' ++ inside ++ after' := by
      intro hmem
      cases hnone _ hmem
    simp only [List.mem_append, not_or] at hother
    obtain ⟨⟨hbefore, hwithin⟩, hafter⟩ := hother
    have hfront : (.endBody maxStack maxLocals, .ok ()) ∉
        before' ++ (.beginBody, .ok ()) :: inside := by
      simp [hbefore, hwithin]
    have hstart : (.beginBody, .ok ()) ∉
        is.map fun i => (MethodEvent.instruction i, (.ok () : Except Error Unit)) := by
      simp
    obtain ⟨hsame, -, -⟩ :=
      (List.append_cons_inj_of_notMem hfront hafter).mp (hsplit.symm.trans hsent)
    exact tail_eq_of_notMem hlast hstart hsame
  subst hinside
  have hbytecode := (bytecode_of_instructions hleft).mono hcontinues.grown.growsInto
  obtain ⟨placed, hconsecutive, hbytes, hplaced⟩ := exists_placed hbytecode hnamed 0
  obtain ⟨added, hadded⟩ := hcontinues.methods
  refine ⟨member, bytes, placed, ?_, hhas.mono hcontinues.grown.growsInto,
    placed?_eq_some.mpr ⟨hconsecutive, hbytes⟩, hplaced⟩
  rw [← Array.getElem?_toList, ← hadded, hmethods, Array.toList_push]
  simp

/-- Instructions that name a class and a method of an interface. -/
def callInstructions : List Instruction :=
  [.onClass Opcode.new.code "B", .simple Opcode.dup.code,
    .onMethod Opcode.invokeinterface.code "I" "m" "(J)V" true, .simple Opcode.vreturn.code]

/-- The events of a method with these instructions. -/
def callBody : List MethodEvent :=
  [.beginBody] ++ callInstructions.map .instruction ++ [.endBody 4 1, .finish]

/-- All of them are accepted. -/
def callAnswers : Array (Except Error Unit) := Array.replicate 7 (.ok ())

/-- The method when it has been sent them, -/
def callMethod : MethodAssembly :=
  { runMethod with
    body := .complete ⟨4, 1, [187, 0, 6, 89, 185, 0, 12, 3, 0, 177], #[], #[]⟩, ended := true }

/-- and the class that has it. -/
def callAssembly : ClassAssembly :=
  (plainAssembly.withPool
    ⟨#[.utf8 "A", .classRef 1, .utf8 "run", .utf8 "()V", .utf8 "B", .classRef 5, .utf8 "I",
      .classRef 7, .utf8 "m", .utf8 "(J)V", .nameAndType 9 10, .interfaceMethodRef 8 11,
      .utf8 "Code"]⟩).withMethod
    ⟨1, 3, 4, #[⟨13, Code.encode ⟨4, 1, [187, 0, 6, 89, 185, 0, 12, 3, 0, 177], #[], #[]⟩⟩]⟩

/-- Also when another header has come, which names another class, the instructions are found. -/
theorem placed_of_answers_callBody :
    plainAssembly.classFile.pool.Numbered ∧
      ClassAssembly.sink.answer (.method runDecl callBody) plainAssembly =
        (.method (.ok callAnswers), callAssembly) ∧
      (∀ i ∈ callInstructions, i.Named) ∧
      ∃ member bytes placed later,
        (ClassAssembly.sink.answers [.header { plainHeader with name := "C" }] callAssembly).2 =
          later ∧
        later.classFile.methods[0]? = some member ∧
        member.Has later.classFile.pool runDecl (some ⟨4, 1, bytes, #[], #[]⟩) [] ∧
        placed? bytes = .ok (some placed) ∧
        List.Forall₂ (Instruction.FoundAs later.classFile.pool) callInstructions placed := by
  have hnumbered : plainAssembly.classFile.pool.Numbered := by
    simp [Numbered, plainAssembly, size]
  have hrun : @id (Array (Except Error Unit) × MethodAssembly × ClassAssembly)
      (ClassAssembly.sink.answersInMethod callBody runMethod runAssembly) =
        (callAnswers, (callMethod, callAssembly)) := by decide +kernel
  have hinside : ClassAssembly.sink.answersInMethod callBody runMethod runAssembly =
      (callAnswers, (callMethod, callAssembly)) := hrun
  have hanswer := answer_of_method_ok begin_runDecl hinside
  have hnamed : ∀ i ∈ callInstructions, i.Named := by
    intro i hi
    simp only [callInstructions, List.mem_cons, List.not_mem_nil, or_false] at hi
    rcases hi with rfl | rfl | rfl | rfl
    · exact ⟨.new, by decide, rfl⟩
    · exact ⟨.dup, rfl, rfl⟩
    · exact ⟨.invokeinterface, rfl, rfl⟩
    · exact ⟨.vreturn, rfl, rfl⟩
  have hsent : callBody.zip callAnswers.toList =
      [] ++ (.beginBody, .ok ()) :: callInstructions.map (fun i => (.instruction i, .ok ())) ++
        (.endBody 4 1, .ok ()) :: [(.finish, .ok ())] := rfl
  have hmore : ClassAssembly.sink.answers [.header { plainHeader with name := "C" }] callAssembly =
      (_, _) := rfl
  obtain ⟨member, bytes, placed, hmember, hhas, hplaced, hfound⟩ :=
    placed_of_answers hnumbered hanswer hsent (by decide) hnamed hmore
  exact ⟨hnumbered, hanswer, hnamed, member, bytes, placed, _, rfl, hmember, hhas, hplaced, hfound⟩

end JvmStub
