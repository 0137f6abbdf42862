/-
`Bodies.lean` -- what a body told instruction by instruction leaves behind.

Writing an instruction asks the pool for the slots of its names and appends a few
bytes. `Instruction.request` is that request by itself, without the method around
it, and `Instruction.tail` is what follows the slot: only an interface call has
such bytes, the size of its arguments. The lemmas here reduce the events of a body
to the requests of its instructions, so that everything known about requests
applies to bodies, also to one that the pool has no room for.
-/
import JvmStub.Assembly.Method
import JvmStub.Proofs.Assembly.Pieces
import JvmStub.Stub.Stage

set_option autoImplicit false

namespace JvmStub

open PoolM ClassAssembly

/-! ## Requests of instructions -/

/-- What an instruction asks of the pool, and the bytes that it comes to. -/
def Instruction.request : Instruction → PoolM Bytes
  | .simple opcode => return [opcode]
  | .onClass opcode className => return opcode :: Bytes.u2 (← addClass className)
  | .onMethod opcode owner name descriptor ofInterface => do
    let slot ←
      (if ofInterface then addInterfaceMethodRef owner name descriptor
       else addMethodRef owner name descriptor)
    return opcode :: Bytes.u2 slot

/-- The bytes behind the slot of an instruction. An interface call is followed by the units that
its arguments and its receiver take, and a zero. -/
def Instruction.tail : Instruction → Except DescriptorError Bytes
  | .simple _ | .onClass .. => .ok []
  | .onMethod opcode _ _ descriptor _ =>
    if opcode = Opcode.invokeinterface.code then
      (fun parsed => [(parsed.parameterSlotCount + 1).toUInt8, 0]) <$>
        MethodDescriptor.parse descriptor
    else .ok []

/-- The bytes of several instructions. -/
def requestAll : List Instruction → PoolM Bytes
  | [] => return []
  | i :: rest => do
    let bytes ← i.request
    return bytes ++ (← requestAll rest)

variable {pool later : ConstantPool} {bytes : Bytes}

/-- Nothing follows the slot of an instruction that is no interface call. -/
theorem tail_of_plain {i : Instruction} (hplain : i.opcode ≠ Opcode.invokeinterface.code) :
    i.tail = .ok [] := by
  cases i with
  | simple opcode => rfl
  | onClass opcode className => rfl
  | onMethod opcode owner name descriptor ofInterface => exact if_neg hplain

/-- The bytes of several instructions are those of the first and those of the rest. -/
theorem requestAll_cons_eq_ok {i : Instruction} {is : List Instruction} :
    requestAll (i :: is) pool = (.ok bytes, later) ↔ ∃ first mid rest,
      i.request pool = (.ok first, mid) ∧ requestAll is mid = (.ok rest, later) ∧
        bytes = first ++ rest := by
  rw [requestAll, bind_eq_ok]
  constructor
  · rintro ⟨first, mid, hfirst, h⟩
    obtain ⟨rest, last, hrest, h⟩ := bind_eq_ok.mp h
    cases h
    exact ⟨first, mid, rest, hfirst, hrest, rfl⟩
  · rintro ⟨first, mid, rest, hfirst, hrest, rfl⟩
    exact ⟨first, mid, hfirst, bind_eq_ok.mpr ⟨rest, later, hrest, rfl⟩⟩

/-- An instruction interns narrow constants only, or none. -/
theorem interns_request (i : Instruction) : Interns i.request := by
  cases i with
  | simple opcode => exact .pure _
  | onClass opcode className => exact (interns_addClass className).bind fun _ => .pure _
  | onMethod opcode owner name descriptor ofInterface =>
    exact (interns_addMember ⟨owner, name, descriptor⟩ ofInterface).bind fun _ => .pure _

theorem interns_requestAll (is : List Instruction) : Interns (requestAll is) := by
  induction is with
  | nil => exact .pure _
  | cons i is ih => exact (interns_request i).bind fun _ => ih.bind fun _ => .pure _

/-- An instruction comes to three bytes at most. -/
theorem length_of_request {i : Instruction} (h : i.request pool = (.ok bytes, later)) :
    bytes.length ≤ 3 := by
  cases i with
  | simple opcode =>
    cases h
    simp
  | onClass opcode className =>
    obtain ⟨slot, mid, -, h⟩ := bind_eq_ok.mp h
    cases h
    simp [Bytes.u2]
  | onMethod opcode owner name descriptor ofInterface =>
    obtain ⟨slot, mid, -, h⟩ := bind_eq_ok.mp h
    cases h
    simp [Bytes.u2]

/-- No instruction is longer than three bytes. -/
theorem length_of_requestAll {is : List Instruction}
    (h : requestAll is pool = (.ok bytes, later)) : bytes.length ≤ 3 * is.length := by
  induction is generalizing pool bytes with
  | nil =>
    cases h
    simp
  | cons i is ih =>
    obtain ⟨first, mid, rest, hfirst, hrest, rfl⟩ := requestAll_cons_eq_ok.mp h
    have hlen := length_of_request hfirst
    have hlen' := ih hrest
    rw [List.length_append, List.length_cons]
    omega

/-! ## Events of a body -/

namespace MethodAssembly

variable {m : MethodAssembly} {c : ClassAssembly} {after : MethodAssembly × ClassAssembly}

/-- A request that is granted inside a method grows the pool of the class and gives its answer. -/
theorem growing_of_ok {α : Type} {request : PoolM α} {x : α}
    (h : request c.classFile.pool = (.ok x, pool)) :
    growing request (m, c) = (.ok x, (m, c.withPool pool)) := by
  rw [growing, onClass, ClassAssembly.growing_of_ok h]

/-- A request that is refused inside a method may still have grown the pool of the class. -/
theorem growing_of_error {α : Type} {request : PoolM α} {e : PoolError}
    (h : request c.classFile.pool = (.error e, pool)) :
    growing request (m, c) = (.error (.write (.pool e)), (m, c.withPool pool)) := by
  rw [growing, onClass, ClassAssembly.growing_of_error h]

theorem growing_eq_ok {α : Type} {request : PoolM α} {x : α} :
    growing request (m, c) = (.ok x, after) ↔
      ∃ pool, request c.classFile.pool = (.ok x, pool) ∧ after = (m, c.withPool pool) := by
  constructor
  · intro h
    cases hrun : request c.classFile.pool with
    | mk result pool =>
      cases result with
      | error e =>
        rw [growing_of_error hrun] at h
        cases h
      | ok y =>
        rw [growing_of_ok hrun] at h
        cases h
        exact ⟨pool, rfl, rfl⟩
  · rintro ⟨pool, hrequest, rfl⟩
    exact growing_of_ok hrequest

/-- A method that has not ended takes any event. -/
theorem checkOpen_run (hopen : m.ended = false) (event : EventName) :
    checkOpen event (m, c) = (.ok (), (m, c)) := by
  unfold checkOpen
  rw [bind_of_ok (get_run (m, c))]
  simp only [hopen, Bool.false_eq_true, if_false, pure_run]

theorem update_run (change : MethodAssembly → MethodAssembly) :
    update change (m, c) = (.ok (), (change m, c)) := rfl

/-- The method with an open body. -/
def withOpened (m : MethodAssembly) (bytecode : Array UInt8) : MethodAssembly :=
  { m with body := .opened bytecode }

/-- The method with a complete body. -/
def withBody (m : MethodAssembly) (code : Code) : MethodAssembly :=
  { m with body := .complete code }

/-- Bytes go behind those of the open body. -/
theorem append_withOpened (bytecode : Array UInt8) (bytes : Bytes) :
    (m.withOpened bytecode).append bytes = m.withOpened (bytecode ++ bytes) := rfl

theorem withOpened_append (bytecode : Array UInt8) (bytes bytes' : Bytes) :
    m.withOpened (bytecode ++ bytes ++ bytes') = m.withOpened (bytecode ++ (bytes ++ bytes')) :=
  congrArg m.withOpened (Array.ext' (by simp))

@[simp] theorem append_nil (m : MethodAssembly) : m.append [] = m := by
  unfold append
  split <;> simp

/-- An instruction whose names do not fit into the pool leaves the method as it was. -/
theorem write_of_error {i : Instruction} {e : PoolError}
    (h : i.request c.classFile.pool = (.error e, pool)) :
    write i (m, c) = (.error (.write (.pool e)), (m, c.withPool pool)) := by
  cases i with
  | simple opcode => cases h
  | onClass opcode className =>
    rcases bind_eq_error.mp h with h | ⟨slot, mid, -, h⟩
    · exact bind_of_error (growing_of_error h)
    · cases h
  | onMethod opcode owner name descriptor ofInterface =>
    rcases bind_eq_error.mp h with h | ⟨slot, mid, -, h⟩
    · exact bind_of_error (growing_of_error h)
    · cases h

/-- An instruction whose names fit is written, and then what follows its slot. -/
theorem write_of_request {i : Instruction} {bytes tail : Bytes}
    (h : i.request c.classFile.pool = (.ok bytes, pool)) (htail : i.tail = .ok tail) :
    write i (m, c) = (.ok (), ((m.append bytes).append tail, c.withPool pool)) := by
  cases i with
  | simple opcode =>
    cases h
    cases htail
    rw [append_nil]
    rfl
  | onClass opcode className =>
    obtain ⟨slot, mid, hslot, h⟩ := bind_eq_ok.mp h
    cases h
    cases htail
    rw [append_nil]
    exact bind_of_ok (growing_of_ok hslot)
  | onMethod opcode owner name descriptor ofInterface =>
    obtain ⟨slot, mid, hslot, h⟩ := bind_eq_ok.mp h
    cases h
    refine (bind_of_ok (growing_of_ok hslot)).trans ?_
    by_cases hcall : opcode = Opcode.invokeinterface.code
    · simp only [Instruction.tail, if_pos hcall] at htail ⊢
      cases hparse : MethodDescriptor.parse descriptor with
      | error e =>
        rw [hparse] at htail
        cases htail
      | ok parsed =>
        rw [hparse] at htail
        cases htail
        rfl
    · simp only [Instruction.tail, if_neg hcall] at htail ⊢
      cases htail
      rw [append_nil]
      rfl

/-- An interface call whose descriptor cannot be read is refused when its slot has been written. -/
theorem write_of_tail_error {i : Instruction} {bytes : Bytes} {e : DescriptorError}
    (h : i.request c.classFile.pool = (.ok bytes, pool)) (htail : i.tail = .error e) :
    write i (m, c) = (.error (.descriptor e), (m.append bytes, c.withPool pool)) := by
  cases i with
  | simple opcode => cases htail
  | onClass opcode className => cases htail
  | onMethod opcode owner name descriptor ofInterface =>
    obtain ⟨slot, mid, hslot, h⟩ := bind_eq_ok.mp h
    cases h
    refine (bind_of_ok (growing_of_ok hslot)).trans ?_
    -- only an interface call has something behind its slot that can be refused
    by_cases hcall : opcode = Opcode.invokeinterface.code
    · simp only [Instruction.tail, if_pos hcall] at htail ⊢
      cases hparse : MethodDescriptor.parse descriptor with
      | error e =>
        rw [hparse] at htail
        cases htail
        rfl
      | ok parsed =>
        rw [hparse] at htail
        cases htail
    · simp only [Instruction.tail, if_neg hcall] at htail
      cases htail

/-- Writing an instruction that is no interface call appends the bytes of its request. -/
theorem write_eq_ok {i : Instruction} (hplain : i.opcode ≠ Opcode.invokeinterface.code) :
    write i (m, c) = (.ok (), after) ↔ ∃ bytes pool,
      i.request c.classFile.pool = (.ok bytes, pool) ∧
        after = (m.append bytes, c.withPool pool) := by
  have htail : i.tail = .ok [] := tail_of_plain hplain
  constructor
  · intro h
    cases hrequest : i.request c.classFile.pool with
    | mk result pool =>
      cases result with
      | error e =>
        rw [write_of_error hrequest] at h
        cases h
      | ok bytes =>
        rw [write_of_request hrequest htail, append_nil] at h
        cases h
        exact ⟨bytes, pool, rfl, rfl⟩
  · rintro ⟨bytes, pool, hrequest, rfl⟩
    rw [write_of_request hrequest htail, append_nil]

/-- An instruction that comes to an open body is written. -/
theorem instruction_of_opened {i : Instruction} {bytecode : Array UInt8} (hopen : m.ended = false) :
    receive (.instruction i) (m.withOpened bytecode, c) = write i (m.withOpened bytecode, c) := by
  change instruction i (m.withOpened bytecode, c) = _
  unfold instruction
  rw [bind_of_ok (checkOpen_run (m := m.withOpened bytecode) hopen _), bind_of_ok (get_run _)]
  rfl

/-- Instructions told one after the other append the bytes of their requests. -/
theorem instructions_eq_ok {is : List Instruction} {bytecode : Array UInt8}
    (hplain : ∀ i ∈ is, i.opcode ≠ Opcode.invokeinterface.code) (hopen : m.ended = false) :
    forM (is.map MethodEvent.instruction) receive (m.withOpened bytecode, c) = (.ok (), after) ↔
      ∃ bytes pool, requestAll is c.classFile.pool = (.ok bytes, pool) ∧
        after = (m.withOpened (bytecode ++ bytes), c.withPool pool) := by
  -- the bytecode and the pool grow with each instruction, so the induction is over all of them
  induction is generalizing c bytecode with
  | nil =>
    constructor
    · intro h
      cases h
      exact ⟨[], c.classFile.pool, rfl, by simp⟩
    · rintro ⟨bytes, pool, hrequest, rfl⟩
      cases hrequest
      simp [List.forM_nil]
  | cons i is ih =>
    obtain ⟨hi, his⟩ := List.forall_mem_cons.mp hplain
    rw [List.map_cons, List.forM_cons, bind_eq_ok]
    constructor
    · rintro ⟨⟨⟩, mid, hfirst, hrest⟩
      rw [instruction_of_opened hopen] at hfirst
      obtain ⟨bytes, pool, hrequest, rfl⟩ := (write_eq_ok hi).mp hfirst
      rw [append_withOpened] at hrest
      obtain ⟨bytes', pool', hrequest', rfl⟩ := (ih his).mp hrest
      refine ⟨bytes ++ bytes', pool', ?_, by rw [withOpened_append, withPool_withPool]⟩
      exact requestAll_cons_eq_ok.mpr ⟨bytes, pool, bytes', hrequest, hrequest', rfl⟩
    · rintro ⟨bytes, pool, hrequest, rfl⟩
      obtain ⟨first, mid, rest, hfirst, hrest, rfl⟩ := requestAll_cons_eq_ok.mp hrequest
      refine ⟨⟨⟩, (m.withOpened (bytecode ++ first), c.withPool mid), ?_, ?_⟩
      · rw [instruction_of_opened hopen]
        exact (write_eq_ok hi).mpr ⟨first, mid, hfirst, rfl⟩
      · exact (ih his).mpr ⟨rest, pool, hrest, by rw [withOpened_append, withPool_withPool]⟩

/-- Instructions told one after the other stop at the first whose names do not fit into the pool. -/
theorem instructions_of_error {is : List Instruction} {e : PoolError} (bytecode : Array UInt8)
    (hplain : ∀ i ∈ is, i.opcode ≠ Opcode.invokeinterface.code) (hopen : m.ended = false)
    (h : requestAll is c.classFile.pool = (.error e, pool)) :
    ∃ m', forM (is.map MethodEvent.instruction) receive (m.withOpened bytecode, c) =
      (.error (.write (.pool e)), (m', c.withPool pool)) := by
  induction is generalizing c bytecode with
  | nil => cases h
  | cons i is ih =>
    obtain ⟨hi, his⟩ := List.forall_mem_cons.mp hplain
    rw [List.map_cons, List.forM_cons]
    -- the first instruction is refused, or it is written and a later one is refused
    rcases bind_eq_error.mp h with hfirst | ⟨bytes, mid, hfirst, h⟩
    · refine ⟨m.withOpened bytecode, bind_of_error ?_⟩
      rw [instruction_of_opened hopen]
      exact write_of_error hfirst
    · have hrest : requestAll is mid = (.error e, pool) := by
        rcases bind_eq_error.mp h with hrest | ⟨bytes', mid', -, h⟩
        · exact hrest
        · cases h
      have hwritten : receive (.instruction i) (m.withOpened bytecode, c) =
          (.ok (), (m.withOpened (bytecode ++ bytes), c.withPool mid)) := by
        rw [instruction_of_opened hopen]
        exact (write_eq_ok hi).mpr ⟨bytes, mid, hfirst, rfl⟩
      rw [bind_of_ok hwritten]
      exact ih (c := c.withPool mid) _ his hrest

/-- A method without a body takes one. -/
theorem checkNoBody_of_absent (h : m.body = .absent) : checkNoBody (m, c) = (.ok (), (m, c)) := by
  unfold checkNoBody
  rw [bind_of_ok (get_run (m, c))]
  simp only [h, pure_run]

/-- A method without a body takes the start of one. -/
theorem beginBody_run (hopen : m.ended = false) (habsent : m.body = .absent) :
    receive .beginBody (m, c) = (.ok (), (m.withOpened #[], c)) := by
  change beginBody (m, c) = _
  unfold beginBody
  rw [bind_of_ok (checkOpen_run hopen _), bind_of_ok (checkNoBody_of_absent habsent)]
  rfl

/-- A body that is not too long can be closed. -/
theorem endBody_run {bytes : Bytes} (hopen : m.ended = false) (hlen : bytes.length ≤ maxCodeLength)
    (maxStack maxLocals : UInt16) :
    receive (.endBody maxStack maxLocals) (m.withOpened ((#[] : Array UInt8) ++ bytes), c) =
      (.ok (), (m.withBody ⟨maxStack, maxLocals, bytes, #[], #[]⟩, c)) := by
  have hshort : ¬ maxCodeLength < ((#[] : Array UInt8) ++ bytes).size := by
    simpa using hlen
  change endBody maxStack maxLocals _ = _
  unfold endBody
  rw [bind_of_ok (checkOpen_run (m := m.withOpened _) hopen _), bind_of_ok (get_run _)]
  simp only [withOpened, if_neg hshort, update_run]
  simp [withBody]

end MethodAssembly

/-! ## The body of a stub -/

/-- The body that the bytes of a stub's instructions come to. -/
def StubBody.code (body : StubBody) (bytes : Bytes) : Code :=
  ⟨body.maxStack, body.maxLocals, bytes, #[], #[]⟩

/-- A body whose instructions are written as they stand and cannot be too long. -/
structure StubBody.Plain (body : StubBody) : Prop where
  plain : ∀ i ∈ body.instructions, i.opcode ≠ Opcode.invokeinterface.code
  short : body.instructions.length ≤ 4

/-- The events of a body complete it with the bytes of its instructions. -/
theorem MethodAssembly.body_eq_ok {body : StubBody} {m : MethodAssembly} {c : ClassAssembly}
    {after : MethodAssembly × ClassAssembly} (hbody : body.Plain) (hopen : m.ended = false)
    (habsent : m.body = .absent) :
    forM body.events receive (m, c) = (.ok (), after) ↔
      ∃ bytes pool, requestAll body.instructions c.classFile.pool = (.ok bytes, pool) ∧
        after = (m.withBody (body.code bytes), c.withPool pool) := by
  have hend : ∀ {bytes : Bytes} {pool : ConstantPool},
      requestAll body.instructions c.classFile.pool = (.ok bytes, pool) →
        receive (.endBody body.maxStack body.maxLocals)
            (m.withOpened ((#[] : Array UInt8) ++ bytes), c.withPool pool) =
          (.ok (), (m.withBody (body.code bytes), c.withPool pool)) := by
    intro bytes pool hrequest
    have hlen := length_of_requestAll hrequest
    have hfew := hbody.short
    exact endBody_run hopen (by unfold maxCodeLength; omega) _ _
  rw [StubBody.events, List.append_assoc, List.singleton_append, List.forM_cons,
    bind_of_ok (beginBody_run hopen habsent), List.forM_append, bind_eq_ok]
  constructor
  · rintro ⟨⟨⟩, mid, his, hlast⟩
    obtain ⟨bytes, pool, hrequest, rfl⟩ := (instructions_eq_ok hbody.plain hopen).mp his
    rw [List.forM_cons, bind_of_ok (hend hrequest)] at hlast
    cases hlast
    exact ⟨bytes, pool, hrequest, rfl⟩
  · rintro ⟨bytes, pool, hrequest, rfl⟩
    refine ⟨⟨⟩, _, (instructions_eq_ok hbody.plain hopen).mpr ⟨bytes, pool, hrequest, rfl⟩, ?_⟩
    rw [List.forM_cons, bind_of_ok (hend hrequest), List.forM_nil]
    rfl

/-- The events of a body stop where the names of its instructions do not fit into the pool. -/
theorem MethodAssembly.body_of_error {body : StubBody} {m : MethodAssembly} {c : ClassAssembly}
    {e : PoolError} (hbody : body.Plain) (hopen : m.ended = false) (habsent : m.body = .absent)
    (h : requestAll body.instructions c.classFile.pool = (.error e, pool)) :
    ∃ m', forM body.events receive (m, c) =
      (.error (.write (.pool e)), (m', c.withPool pool)) := by
  obtain ⟨m', hrun⟩ := instructions_of_error #[] hbody.plain hopen h
  refine ⟨m', ?_⟩
  rw [StubBody.events, List.append_assoc, List.singleton_append, List.forM_cons,
    bind_of_ok (beginBody_run hopen habsent), List.forM_append]
  exact bind_of_error hrun

end JvmStub
