/-
`Splitting.lean` -- bytecode and the instructions that it is taken apart into.

Instructions that follow one another, each with all its operands, spell exactly one
string of bytes, and taking that string apart gives exactly them. The work is one step,
`placedOnto_code`: an instruction in front is taken off and the rest is left as it was,
whatever follows. With it, what happens to a string depends only on what stands behind
its last complete instruction: nothing, or a byte that is no opcode of this library.

The other way round, instructions that were found do follow one another and do spell
the string, so no two ways to take a string apart are possible.
-/
import JvmStub.Check.Code

set_option autoImplicit false

namespace JvmStub

/-- The bytes of an instruction: its opcode and its operands. -/
def PlacedInstruction.bytes (i : PlacedInstruction) : Bytes := i.opcode.code :: i.operands

namespace Check

/-- Instructions that follow one another from `pc` on, each with all its operands. -/
inductive Consecutive : Nat → List PlacedInstruction → Prop
  | nil {pc : Nat} : Consecutive pc []
  | cons {pc : Nat} {op : Opcode} {operands : Bytes} {is : List PlacedInstruction}
      (width : operands.length = op.operandCount)
      (rest : Consecutive (pc + 1 + op.operandCount) is) :
      Consecutive pc (⟨pc, op, operands⟩ :: is)

/-- The bytes of instructions, one after the other. -/
def bytesOf (is : List PlacedInstruction) : Bytes := is.flatMap PlacedInstruction.bytes

variable {placed is : List PlacedInstruction} {pc : Nat} {bytes rest : Bytes}

/-- Every instruction among consecutive ones has all its operands. -/
theorem Consecutive.width (h : Consecutive pc is) :
    ∀ i ∈ is, i.operands.length = i.opcode.operandCount := by
  induction h with
  | nil => exact List.forall_mem_nil _
  | cons hwidth _ ih => exact List.forall_mem_cons.mpr ⟨hwidth, ih⟩

/-! ## Off the front -/

/-- An instruction in front, with all its operands, is taken off. -/
theorem placedOnto_code {op : Opcode} {operands : Bytes}
    (hlen : operands.length = op.operandCount) :
    placedOnto placed pc (op.code :: (operands ++ rest)) =
      placedOnto (⟨pc, op, operands⟩ :: placed) (pc + 1 + op.operandCount) rest := by
  have htake : (operands ++ rest).take op.operandCount = operands := by
    rw [← hlen, List.take_left]
  have hdrop : (operands ++ rest).drop op.operandCount = rest := by
    rw [← hlen, List.drop_left]
  rw [placedOnto, Opcode.ofCode?_code]
  simp only [htake, hdrop, hlen, Nat.lt_irrefl, if_false]

theorem placedOnto_nil (placed : List PlacedInstruction) (pc : Nat) :
    placedOnto placed pc [] = .ok (some placed.reverse) := by
  rw [placedOnto]

/-- A byte in front that is no opcode of this library ends it. -/
theorem placedOnto_unnamed {byte : UInt8} (h : Opcode.ofCode? byte = none) :
    placedOnto placed pc (byte :: rest) = .ok none := by
  rw [placedOnto, h]

/-- Consecutive instructions in front are taken off, whatever stands behind them. -/
theorem placedOnto_bytesOf (h : Consecutive pc is) :
    placedOnto placed pc (bytesOf is ++ rest) =
      placedOnto (is.reverse ++ placed) (pc + (bytesOf is).length) rest := by
  induction h generalizing placed with
  | nil => rfl
  | @cons pc op operands is hwidth _ ih =>
    have hbytes : bytesOf (⟨pc, op, operands⟩ :: is) ++ rest =
        op.code :: (operands ++ (bytesOf is ++ rest)) := by
      simp [bytesOf, PlacedInstruction.bytes]
    have hlength : (bytesOf (⟨pc, op, operands⟩ :: is)).length =
        1 + op.operandCount + (bytesOf is).length := by
      simp only [bytesOf, PlacedInstruction.bytes, List.flatMap_cons, List.length_append,
        List.length_cons, hwidth]
      omega
    rw [hbytes, placedOnto_code hwidth, ih, hlength, List.reverse_cons, List.append_assoc,
      ← Nat.add_assoc, ← Nat.add_assoc, List.singleton_append]

/-! ## Whole strings -/

/-- What was found behind the instructions before it is consecutive and spells the bytes. -/
theorem consecutive_of_placedOnto {found : List PlacedInstruction}
    (h : placedOnto placed pc bytes = .ok (some found)) :
    ∃ is, found = placed.reverse ++ is ∧ Consecutive pc is ∧ bytes = bytesOf is := by
  fun_induction placedOnto placed pc bytes with
  | case1 placed pc =>
    cases h
    exact ⟨[], (List.append_nil _).symm, .nil, rfl⟩
  | case2 placed pc byte rest hbyte => cases h
  | case3 placed pc byte rest op hbyte operands hshort => cases h
  | case4 placed pc byte rest op hbyte operands hlong ih =>
    obtain ⟨is, hfound, his, hrest⟩ := ih h
    have hcut : operands.length ≤ op.operandCount := List.length_take_le _ _
    have hwidth : operands.length = op.operandCount := Nat.le_antisymm hcut (Nat.not_lt.mp hlong)
    refine ⟨⟨pc, op, operands⟩ :: is, ?_, .cons hwidth his, ?_⟩
    · rw [hfound, List.reverse_cons, List.append_assoc, List.singleton_append]
    · have hsplit : rest = operands ++ bytesOf is := by
        rw [← hrest, List.take_append_drop]
      rw [← Opcode.code_of_ofCode? hbyte, hsplit]
      rfl

/-- The instructions of a body are the consecutive ones that spell it. -/
theorem placed?_eq_some :
    placed? bytes = .ok (some is) ↔ Consecutive 0 is ∧ bytes = bytesOf is := by
  constructor
  · intro h
    obtain ⟨is', rfl, hconsecutive, hbytes⟩ := consecutive_of_placedOnto h
    exact ⟨hconsecutive, hbytes⟩
  · rintro ⟨hconsecutive, rfl⟩
    have hall : placedOnto [] 0 (bytesOf is ++ []) = .ok (some (is.reverse ++ []).reverse) := by
      rw [placedOnto_bytesOf hconsecutive, placedOnto_nil]
    rw [List.append_nil, List.append_nil, List.reverse_reverse] at hall
    exact hall

/-- A body with an unnamed byte behind complete instructions is not taken apart. -/
theorem placed?_of_unnamed {byte : UInt8} (hconsecutive : Consecutive 0 is)
    (h : Opcode.ofCode? byte = none) (hbytes : bytes = bytesOf is ++ byte :: rest) :
    placed? bytes = .ok none := by
  rw [hbytes, placed?, placedOnto_bytesOf hconsecutive, placedOnto_unnamed h]

end Check

end JvmStub
