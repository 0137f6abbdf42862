/-
`Bytecode.lean` -- the bytes of a body that is told instruction by instruction.

An instruction that is accepted puts all its bytes into the open body, and one whose
names the pool has no room for puts none. In between is one case. An interface call is
written in two parts, and the second one needs the descriptor: where that cannot be
read the call is refused, and its opcode and its slot stay behind. `Leaves` is this
account of one event and its answer.

The step lemma is `BuiltBy.step`: the bytes of an open body are what the events since
its start have left, one after the other. `bytecode_of_answer` reads the body of the
method that the class gets off it. The body is the concatenation of the accepted
instructions exactly if no call was cut short; at the end of the file is a method of
which one was.
-/
import JvmStub.Proofs.Assembly.KeptBodies

set_option autoImplicit false

namespace JvmStub

open ConstantPool PoolM

/-! ## What an event leaves in an open body -/

/-- The event ends a body and was accepted. -/
def ClosesBody : MethodEvent × Except Error Unit → Bool
  | (.endBody .., .ok ()) => true
  | _ => false

/-- The event is an interface call that was refused when its first part had been written. -/
def CutShort : MethodEvent × Except Error Unit → Bool
  | (.instruction _, .error (.descriptor _)) => true
  | _ => false

/-- The instructions that were accepted, in their order. -/
def acceptedInstructions (told : List (MethodEvent × Except Error Unit)) : List Instruction :=
  told.filterMap fun
    | (.instruction i, .ok ()) => some i
    | _ => none

variable {pool later : ConstantPool} {told : List (MethodEvent × Except Error Unit)}

/-- The bytes that an event leaves in the open body of a method, once it has been answered. -/
inductive Leaves (pool : ConstantPool) : MethodEvent × Except Error Unit → Bytes → Prop
  | spelled {i : Instruction} {bytes : Bytes} (h : i.SpelledBy pool bytes) :
      Leaves pool (.instruction i, .ok ()) bytes
  | begun {owner name descriptor : String} {ofInterface : Bool} {slot : Slot} {e : DescriptorError}
      (hslot : pool.HoldsMember slot ⟨owner, name, descriptor⟩ ofInterface)
      (hparse : MethodDescriptor.parse descriptor = .error e) :
      Leaves pool (.instruction (.onMethod Opcode.invokeinterface.code owner name descriptor
        ofInterface), .error (.descriptor e)) (Opcode.invokeinterface.code :: Bytes.u2 slot)
  | passed (a : Attribute) : Leaves pool (.attribute a, .ok ()) []
  | refused {e : MethodEvent} {error : Error} (hwhole : CutShort (e, .error error) = false) :
      Leaves pool (e, .error error) []

/-- What an event leaves in a body spells what it spelled when the pool has grown. -/
theorem Leaves.mono {p : MethodEvent × Except Error Unit} {bytes : Bytes} (h : Leaves pool p bytes)
    (hg : pool.GrowsInto later) : Leaves later p bytes := by
  cases h with
  | spelled h => exact .spelled (h.mono hg)
  | begun hslot hparse => exact .begun (hslot.mono hg) hparse
  | passed a => exact .passed a
  | refused hwhole => exact .refused hwhole

/-- An event that leaves bytes in a body does not close it. -/
theorem Leaves.not_closesBody {p : MethodEvent × Except Error Unit} {bytes : Bytes}
    (h : Leaves pool p bytes) : ClosesBody p = false := by
  cases h with
  | spelled h => rfl
  | begun hslot hparse => rfl
  | passed a => rfl
  | @refused e error hwhole => cases e <;> rfl

theorem Leaves.ne_beginBody {p : MethodEvent × Except Error Unit} {bytes : Bytes}
    (h : Leaves pool p bytes) : p ≠ (.beginBody, .ok ()) := by
  rintro rfl
  cases h

/-- The bytes are what the events have left, one after the other. -/
def LeftBy (pool : ConstantPool) (told : List (MethodEvent × Except Error Unit))
    (bytes : Bytes) : Prop :=
  ∃ chunks, List.Forall₂ (Leaves pool) told chunks ∧ bytes = chunks.flatten

theorem LeftBy.mono {bytes : Bytes} (h : LeftBy pool told bytes) (hg : pool.GrowsInto later) :
    LeftBy later told bytes := by
  obtain ⟨chunks, hchunks, rfl⟩ := h
  exact ⟨chunks, hchunks.imp fun _ _ hp => hp.mono hg, rfl⟩

/-- One event more leaves its bytes behind those of the others. -/
theorem LeftBy.snoc {p : MethodEvent × Except Error Unit} {bytes chunk : Bytes}
    (h : LeftBy pool told bytes) (hp : Leaves pool p chunk) :
    LeftBy pool (told ++ [p]) (bytes ++ chunk) := by
  obtain ⟨chunks, hchunks, rfl⟩ := h
  exact ⟨chunks ++ [chunk], List.rel_append hchunks (.cons hp .nil), by simp⟩

/-! ## Bytes of the accepted instructions

Wherever an instruction stands in a pool, it takes the same number of bytes. So the bytes that were
left can be counted, and a call that was cut short shows as three bytes too many. -/

/-- How long an instruction is does not depend on its slots. -/
theorem Instruction.SpelledBy.length_eq {i : Instruction} {bytes bytes' : Bytes}
    (h : i.SpelledBy pool bytes) (h' : i.SpelledBy pool bytes') : bytes.length = bytes'.length := by
  cases h with
  | simple opcode =>
    cases h'
    rfl
  | onClass hslot =>
    cases h'
    rfl
  | onMethod hslot htail =>
    cases h' with
    | onMethod hslot' htail' =>
      cases htail.symm.trans htail'
      rfl

/-- How long the bytecode is does not depend on its slots. -/
theorem Bytecode.length_eq {is : List Instruction} {bytes bytes' : Bytes}
    (h : Bytecode pool is bytes) (h' : Bytecode pool is bytes') : bytes.length = bytes'.length := by
  obtain ⟨chunks, hchunks, rfl⟩ := h
  obtain ⟨chunks', hchunks', rfl⟩ := h'
  induction hchunks generalizing chunks' with
  | nil =>
    cases hchunks'
    rfl
  | cons hi _ ih =>
    cases hchunks' with
    | cons hi' hrest' =>
      rw [List.flatten_cons, List.flatten_cons, List.length_append, List.length_append,
        hi.length_eq hi', ih _ hrest']

/-- What was left are the accepted instructions, and three bytes for each call cut short. -/
theorem exists_bytecode_of_leftBy {bytes : Bytes} (h : LeftBy pool told bytes) :
    ∃ kept, Bytecode pool (acceptedInstructions told) kept ∧
      bytes.length = kept.length + 3 * told.countP CutShort ∧
      (told.countP CutShort = 0 → bytes = kept) := by
  obtain ⟨chunks, hchunks, rfl⟩ := h
  -- a call that was cut short adds three bytes and no instruction; all others keep both in step
  induction hchunks with
  | nil => exact ⟨[], ⟨[], .nil, rfl⟩, rfl, fun _ => rfl⟩
  | @cons p chunk told chunks hp _ ih =>
    obtain ⟨kept, ⟨kepts, hkepts, rfl⟩, hlen, hsame⟩ := ih
    cases hp with
    | @spelled i bytes hi =>
      refine ⟨chunk ++ kepts.flatten, ⟨chunk :: kepts, .cons hi hkepts, rfl⟩, ?_, ?_⟩
      · rw [List.flatten_cons, List.length_append, List.length_append, hlen,
          List.countP_cons_of_neg Bool.false_ne_true]
        omega
      · intro hnone
        rw [List.countP_cons_of_neg Bool.false_ne_true] at hnone
        rw [List.flatten_cons, hsame hnone]
    | @begun _ _ _ _ slot _ hslot hparse =>
      refine ⟨kepts.flatten, ⟨kepts, hkepts, rfl⟩, ?_, ?_⟩
      · have hfirst : (Opcode.invokeinterface.code :: Bytes.u2 slot).length = 3 := rfl
        rw [List.flatten_cons, List.length_append, hlen, List.countP_cons_of_pos rfl]
        omega
      · intro hnone
        rw [List.countP_cons_of_pos rfl] at hnone
        cases hnone
    | passed a =>
      refine ⟨kepts.flatten, ⟨kepts, hkepts, rfl⟩, ?_, ?_⟩
      · rw [List.flatten_cons, List.nil_append, List.countP_cons_of_neg Bool.false_ne_true, hlen]
      · rw [List.flatten_cons, List.nil_append, List.countP_cons_of_neg Bool.false_ne_true]
        exact hsame
    | @refused e error hwhole =>
      have hcount : ((e, .error error) :: told).countP CutShort = told.countP CutShort :=
        List.countP_cons_of_neg (by rw [hwhole]; exact Bool.false_ne_true)
      have hnone : acceptedInstructions ((e, .error error) :: told) =
          acceptedInstructions told := by
        cases e <;> rfl
      rw [List.flatten_cons, List.nil_append, hcount, hnone]
      exact ⟨kepts.flatten, ⟨kepts, hkepts, rfl⟩, hlen, hsame⟩

/-- What was left is the concatenation of the accepted instructions exactly if no call was cut
short. -/
theorem bytecode_iff_of_leftBy {bytes : Bytes} (h : LeftBy pool told bytes) :
    Bytecode pool (acceptedInstructions told) bytes ↔ ∀ p ∈ told, CutShort p = false := by
  obtain ⟨kept, hkept, hlen, hsame⟩ := exists_bytecode_of_leftBy h
  have hcount : told.countP CutShort = 0 ↔ ∀ p ∈ told, CutShort p = false := by
    simp [List.countP_eq_zero]
  rw [← hcount]
  constructor
  · intro hbytes
    have hlen' := hbytes.length_eq hkept
    omega
  · intro hnone
    rw [hsame hnone]
    exact hkept

/-! ## One event -/

/-- How the body of a method has come about. -/
inductive BuiltBy (pool : ConstantPool) (told : List (MethodEvent × Except Error Unit)) :
    BodyState → Prop
  | absent (hnone : ∀ p ∈ told, ClosesBody p = false) : BuiltBy pool told .absent
  | whole (code : Code) (hnone : ∀ p ∈ told, ClosesBody p = false) :
      BuiltBy pool told (.complete code)
  | opened {before inside : List (MethodEvent × Except Error Unit)} {bytecode : Array UInt8}
      (hsplit : told = before ++ (.beginBody, .ok ()) :: inside)
      (hnone : ∀ p ∈ told, ClosesBody p = false) (hlast : (.beginBody, .ok ()) ∉ inside)
      (hleft : LeftBy pool inside bytecode.toList) : BuiltBy pool told (.opened bytecode)
  | closed {before inside after : List (MethodEvent × Except Error Unit)}
      {maxStack maxLocals : UInt16} {bytes : Bytes}
      (hsplit : told = before ++ (.beginBody, .ok ()) :: inside ++
        (.endBody maxStack maxLocals, .ok ()) :: after)
      (hnone : ∀ p ∈ before ++ inside ++ after, ClosesBody p = false)
      (hlast : (.beginBody, .ok ()) ∉ inside) (hleft : LeftBy pool inside bytes) :
      BuiltBy pool told (.complete ⟨maxStack, maxLocals, bytes, #[], #[]⟩)

/-- What an event makes of an open body. -/
inductive FromOpened (pool : ConstantPool) (bytecode : Array UInt8) :
    MethodEvent × Except Error Unit → BodyState → Prop
  | opened {p : MethodEvent × Except Error Unit} {chunk : Bytes} (hleaves : Leaves pool p chunk) :
      FromOpened pool bytecode p (.opened (bytecode ++ chunk))
  | closed (maxStack maxLocals : UInt16) :
      FromOpened pool bytecode (.endBody maxStack maxLocals, .ok ())
        (.complete ⟨maxStack, maxLocals, bytecode.toList, #[], #[]⟩)
  | lost {p : MethodEvent × Except Error Unit} (hnot : ClosesBody p = false) :
      FromOpened pool bytecode p .absent

/-- An event that leaves nothing leaves an open body as it is. -/
theorem FromOpened.unchanged {bytecode : Array UInt8} {p : MethodEvent × Except Error Unit}
    (h : Leaves pool p []) : FromOpened pool bytecode p (.opened bytecode) := by
  have hsame : bytecode ++ ([] : Bytes) = bytecode := Array.ext' (by simp)
  rw [← hsame]
  exact .opened h

/-- What an event makes of a body that is not open. -/
inductive FromUnopened : BodyState → MethodEvent × Except Error Unit → BodyState → Prop
  | unchanged {body : BodyState} {p : MethodEvent × Except Error Unit}
      (hnot : ClosesBody p = false) : FromUnopened body p body
  | opened : FromUnopened .absent (.beginBody, .ok ()) (.opened #[])
  | given {p : MethodEvent × Except Error Unit} (hnot : ClosesBody p = false) (code : Code) :
      FromUnopened .absent p (.complete code)

/-- The answer to the request of a call that was cut short is its first part. -/
theorem leaves_of_tail_error {i : Instruction} {bytes : Bytes} {e : DescriptorError}
    (hn : later.Numbered) (h : i.request pool = (.ok bytes, later)) (htail : i.tail = .error e) :
    Leaves later (.instruction i, .error (.descriptor e)) bytes := by
  cases i with
  | simple opcode => cases htail
  | onClass opcode className => cases htail
  | onMethod opcode owner name descriptor ofInterface =>
    rw [request_onMethod] at h
    obtain ⟨slot, mid, hslot, h⟩ := bind_eq_ok.mp h
    cases h
    by_cases hcall : opcode = Opcode.invokeinterface.code
    · rw [Instruction.tail, if_pos hcall] at htail
      subst hcall
      cases hparse : MethodDescriptor.parse descriptor with
      | ok parsed =>
        rw [hparse] at htail
        cases htail
      | error e' =>
        rw [hparse] at htail
        cases htail
        exact .begun (holdsMember_of_addMember hn hslot) hparse
    · rw [Instruction.tail, if_neg hcall] at htail
      cases htail

namespace MethodAssembly

variable {m m' : MethodAssembly} {c c' : ClassAssembly} {e : MethodEvent}
  {answer : Except Error Unit}

/-- What an instruction makes of an open body. -/
theorem fromOpened_of_instruction {i : Instruction} {bytecode : Array UInt8}
    (hopen : m.ended = false) (hopened : m.body = .opened bytecode)
    (hn : c.classFile.pool.Numbered)
    (hrun : receive (.instruction i) (m, c) = (answer, (m', c'))) :
    FromOpened c'.classFile.pool bytecode (.instruction i, answer) m'.body := by
  have happend : ∀ bytes, m.append bytes = m.withOpened (bytecode ++ bytes) := fun bytes => by
    rw [← withOpened_of_body hopened]
    rfl
  have hwrite : receive (.instruction i) (m, c) = write i (m, c) := by
    rw [← withOpened_of_body hopened]
    exact instruction_of_opened hopen
  have hgrown : Grown (fun _ => True) c.classFile.pool (i.request c.classFile.pool).2 :=
    grown_request_of_texts hn fun _ _ => trivial
  rw [hwrite] at hrun
  -- the slot may be refused, and behind it the count of an interface call: then three bytes stay
  cases hrequest : i.request c.classFile.pool with
  | mk result pool =>
    rw [hrequest] at hgrown
    have hlater : pool.Numbered := hgrown.numbered hn
    cases result with
    | error e =>
      rw [write_of_error hrequest] at hrun
      cases hrun
      rw [hopened]
      exact .unchanged (.refused rfl)
    | ok bytes =>
      cases htail : i.tail with
      | ok tail =>
        rw [write_of_request hrequest htail, happend, append_withOpened, withOpened_append] at hrun
        cases hrun
        exact .opened (.spelled (spelledBy_of_request hlater hrequest htail))
      | error e =>
        rw [write_of_tail_error hrequest htail, happend] at hrun
        cases hrun
        exact .opened (leaves_of_tail_error hlater hrequest htail)

/-- What any event makes of an open body. -/
theorem fromOpened_of_receive {bytecode : Array UInt8} (hopened : m.body = .opened bytecode)
    (hn : c.classFile.pool.Numbered) (hrun : receive e (m, c) = (answer, (m', c'))) :
    FromOpened c'.classFile.pool bytecode (e, answer) m'.body := by
  cases hended : m.ended with
  | true =>
    rw [receive_of_ended hended] at hrun
    cases hrun
    rw [hopened]
    exact .unchanged (.refused (by cases e <;> rfl))
  | false =>
    -- an instruction is the one event whose refusal can leave bytes, so it is looked at by itself
    by_cases hinstruction : ∃ i, e = .instruction i
    · obtain ⟨i, rfl⟩ := hinstruction
      exact fromOpened_of_instruction hended hopened hn hrun
    · have houtcome : Outcome (fun _ => True) m c e (receive e (m, c)) :=
        outcome_receive hn (fun _ _ => trivial) trivial
      rw [hrun] at houtcome
      cases houtcome with
      | accepted hopen haccepts =>
        cases haccepts with
        | «attribute» a =>
          rw [hopened]
          exact .unchanged (.passed a)
        | beginBody habsent => cases hopened.symm.trans habsent
        | @instruction i => exact absurd ⟨i, rfl⟩ hinstruction
        | endBody maxStack maxLocals hopened' hsize =>
          cases hopened.symm.trans hopened'
          exact .closed maxStack maxLocals
        | body code habsent => cases hopened.symm.trans habsent
        | @finish code listed pool hbody =>
          cases code <;> cases hopened.symm.trans hbody
      | refused error hrefuses =>
        have hbody := hrefuses.body
        generalize m'.body = left at hbody ⊢
        cases hbody with
        | kept hkeeps =>
          rw [hopened]
          have hwhole : CutShort (e, .error error) = false := by
            cases e with
            | instruction i => exact absurd ⟨i, rfl⟩ hinstruction
            | _ => rfl
          exact .unchanged (.refused hwhole)
        | begun i => exact absurd ⟨i, rfl⟩ hinstruction
        | lost => exact .lost rfl

/-- What any event makes of a body that is not open. -/
theorem fromUnopened_of_receive (hunopened : ∀ bytecode, m.body ≠ .opened bytecode)
    (hn : c.classFile.pool.Numbered) (hrun : receive e (m, c) = (answer, (m', c'))) :
    FromUnopened m.body (e, answer) m'.body := by
  have houtcome : Outcome (fun _ => True) m c e (receive e (m, c)) :=
    outcome_receive hn (fun _ _ => trivial) trivial
  rw [hrun] at houtcome
  cases houtcome with
  | accepted hopen haccepts =>
    cases haccepts with
    | «attribute» a => exact .unchanged rfl
    | beginBody habsent =>
      rw [habsent]
      exact .opened
    | instruction hopened => exact absurd hopened (hunopened _)
    | endBody maxStack maxLocals hopened => exact absurd hopened (hunopened _)
    | body code habsent =>
      rw [habsent]
      exact .given rfl code
    | finish hbody => exact .unchanged rfl
  | refused error hrefuses =>
    have hbody := hrefuses.body
    generalize m'.body = left at hbody ⊢
    cases hbody with
    | kept hkeeps => exact .unchanged (by cases e <;> rfl)
    | begun i error bytes hopened => exact absurd hopened (hunopened _)
    | lost maxStack maxLocals hopened => exact absurd hopened (hunopened _)

end MethodAssembly

/-! ## All events of a method -/

/-- A body is still open when one event more has not closed it. -/
theorem not_closesBody_snoc {p : MethodEvent × Except Error Unit}
    (h : ∀ q ∈ told, ClosesBody q = false) (hp : ClosesBody p = false) :
    ∀ q ∈ told ++ [p], ClosesBody q = false :=
  List.forall_mem_append.mpr ⟨h, List.forall_mem_singleton.mpr hp⟩

theorem BuiltBy.mono {body : BodyState} (h : BuiltBy pool told body) (hg : pool.GrowsInto later) :
    BuiltBy later told body := by
  cases h with
  | absent hnone => exact .absent hnone
  | whole code hnone => exact .whole code hnone
  | opened hsplit hnone hlast hleft => exact .opened hsplit hnone hlast (hleft.mono hg)
  | closed hsplit hnone hlast hleft => exact .closed hsplit hnone hlast (hleft.mono hg)

/-- An event in an open body puts what it leaves behind the rest, ends the body or loses it. -/
theorem BuiltBy.fromOpened {bytecode : Array UInt8} {body : BodyState}
    {p : MethodEvent × Except Error Unit} (h : BuiltBy pool told (.opened bytecode))
    (hfrom : FromOpened pool bytecode p body) : BuiltBy pool (told ++ [p]) body := by
  cases h with
  | @opened before inside _ hsplit hnone hlast hleft =>
    -- the event leaves bytes, closes the body or loses it, and the place where it was begun stays
    cases hfrom with
    | @opened _ chunk hleaves =>
      have hsplit' : told ++ [p] = before ++ (.beginBody, .ok ()) :: (inside ++ [p]) := by
        rw [hsplit, List.append_assoc, List.cons_append]
      refine .opened hsplit' (not_closesBody_snoc hnone hleaves.not_closesBody) ?_ ?_
      · intro hmem
        rcases List.mem_append.mp hmem with hmem | hmem
        · exact hlast hmem
        · exact hleaves.ne_beginBody (List.mem_singleton.mp hmem).symm
      · rw [Array.toList_appendList]
        exact hleft.snoc hleaves
    | closed maxStack maxLocals =>
      have hsplit' : told ++ [(.endBody maxStack maxLocals, .ok ())] =
          before ++ (.beginBody, .ok ()) :: inside ++ [(.endBody maxStack maxLocals, .ok ())] := by
        rw [hsplit]
      refine .closed hsplit' (fun q hq => hnone q ?_) hlast hleft
      rw [hsplit]
      simp only [List.append_nil, List.mem_append, List.mem_cons] at hq ⊢
      exact hq.imp_right .inr
    | lost hnot => exact .absent (not_closesBody_snoc hnone hnot)

/-- An event outside of a body opens one, brings a whole one or leaves things as they are. -/
theorem BuiltBy.fromUnopened {body body' : BodyState} {p : MethodEvent × Except Error Unit}
    (h : BuiltBy pool told body) (hunopened : ∀ bytecode, body ≠ .opened bytecode)
    (hfrom : FromUnopened body p body') : BuiltBy pool (told ++ [p]) body' := by
  -- no body is open, so nothing that a body was built of can change
  cases hfrom with
  | unchanged hnot =>
    cases h with
    | absent hnone => exact .absent (not_closesBody_snoc hnone hnot)
    | whole code hnone => exact .whole code (not_closesBody_snoc hnone hnot)
    | opened => exact absurd rfl (hunopened _)
    | @closed before inside after maxStack maxLocals bytes hsplit hnone hlast hleft =>
      have hsplit' : told ++ [p] = before ++ (.beginBody, .ok ()) :: inside ++
          (.endBody maxStack maxLocals, .ok ()) :: (after ++ [p]) := by
        rw [hsplit, List.append_assoc, List.cons_append]
      refine .closed hsplit' ?_ hlast hleft
      rw [← List.append_assoc]
      exact not_closesBody_snoc hnone hnot
  | opened =>
    cases h with
    | absent hnone =>
      exact .opened rfl (not_closesBody_snoc hnone rfl) List.not_mem_nil ⟨[], .nil, rfl⟩
  | given hnot code =>
    cases h with
    | absent hnone => exact .whole code (not_closesBody_snoc hnone hnot)

/-- One event inside a method, whatever it is answered. -/
theorem BuiltBy.step {m m' : MethodAssembly} {c c' : ClassAssembly} {e : MethodEvent}
    {answer : Except Error Unit} (h : BuiltBy c.classFile.pool told m.body)
    (hn : c.classFile.pool.Numbered)
    (hrun : MethodAssembly.receive e (m, c) = (answer, (m', c'))) :
    BuiltBy c'.classFile.pool (told ++ [(e, answer)]) m'.body := by
  replace h := h.mono (MethodAssembly.grown_of_receive hn hrun).growsInto
  by_cases hopened : ∃ bytecode, m.body = .opened bytecode
  · obtain ⟨bytecode, hopened⟩ := hopened
    rw [hopened] at h
    exact h.fromOpened (MethodAssembly.fromOpened_of_receive hopened hn hrun)
  · have hunopened : ∀ bytecode, m.body ≠ .opened bytecode := fun bytecode h => hopened ⟨bytecode, h⟩
    exact h.fromUnopened hunopened (MethodAssembly.fromUnopened_of_receive hunopened hn hrun)

/-- A method that started without a body has been built by what it was sent. -/
theorem builtBy_of_answers {m m' : MethodAssembly} {c c' : ClassAssembly}
    (habsent : m.body = .absent) (hn : c.classFile.pool.Numbered) {sent : List MethodEvent}
    {answers : Array (Except Error Unit)}
    (hrun : ClassAssembly.sink.answersInMethod sent m c = (answers, (m', c'))) :
    BuiltBy c'.classFile.pool (sent.zip answers.toList) m'.body := by
  induction sent using List.reverseRecOn generalizing answers m' c' with
  | nil =>
    cases hrun
    rw [habsent]
    exact .absent fun p hp => absurd hp List.not_mem_nil
  | append_singleton sent e ih =>
    cases hbefore : ClassAssembly.sink.answersInMethod sent m c with
    | mk before state =>
      obtain ⟨mid, cmid⟩ := state
      cases hanswer : MethodAssembly.receive e (mid, cmid) with
      | mk answer state' =>
        obtain ⟨m'', c''⟩ := state'
        cases (answersInMethod_snoc hbefore hanswer).symm.trans hrun
        rw [zip_answers_snoc (size_answersInMethod hbefore)]
        exact (ih hbefore).step (MethodAssembly.name_of_answers hn hbefore).2 hanswer

/-- Where the end of a body was accepted, the body is the one that was told up to it. -/
theorem BuiltBy.closed_of_mem {body : BodyState} {maxStack maxLocals : UInt16}
    (h : BuiltBy pool told body) (hmem : (.endBody maxStack maxLocals, .ok ()) ∈ told) :
    ∃ before inside after bytes, told = before ++ (.beginBody, .ok ()) :: inside ++
        (.endBody maxStack maxLocals, .ok ()) :: after ∧
      (∀ p ∈ before ++ inside ++ after, ClosesBody p = false) ∧
      (.beginBody, .ok ()) ∉ inside ∧ LeftBy pool inside bytes ∧
      body = .complete ⟨maxStack, maxLocals, bytes, #[], #[]⟩ := by
  cases h with
  | absent hnone => cases hnone _ hmem
  | whole code hnone => cases hnone _ hmem
  | opened hsplit hnone => cases hnone _ hmem
  | @closed before inside after maxStack' maxLocals' bytes hsplit hnone hlast hleft =>
    -- no other end of a body was accepted
    have hsame : MethodEvent.endBody maxStack maxLocals = .endBody maxStack' maxLocals' := by
      rw [hsplit] at hmem
      simp only [List.mem_append, List.mem_cons] at hmem hnone
      rcases hmem with (hother | hother | hother) | hother | hother
      · cases hnone _ (.inl (.inl hother))
      · cases hother
      · cases hnone _ (.inl (.inr hother))
      · exact congrArg Prod.fst hother
      · cases hnone _ (.inr hother)
    cases hsame
    exact ⟨before, inside, after, bytes, hsplit, hnone, hlast, hleft, rfl⟩

/-- An event that was accepted stands among the events and their answers. -/
theorem mem_zip_of_acceptedOf {events : List MethodEvent} {answers : List (Except Error Unit)}
    {e : MethodEvent} (h : e ∈ acceptedOf events answers) : (e, .ok ()) ∈ events.zip answers := by
  obtain ⟨⟨e', answer⟩, hp, rfl⟩ := List.mem_map.mp h
  obtain ⟨hmem, hok⟩ := List.mem_filter.mp hp
  cases answer with
  | error error => cases hok
  | ok u => exact hmem

/-! ## The body that the class gets -/

variable {a a' : ClassAssembly}

/-- A method whose end was accepted and that has accepted the end of a body is in the class with the
body that was told up to that end. -/
theorem closed_of_answer (hn : a.classFile.pool.Numbered) {decl : MethodDecl}
    {sent : List MethodEvent} {answers : Array (Except Error Unit)} {maxStack maxLocals : UInt16}
    (hrun : ClassAssembly.sink.answer (.method decl sent) a = (.method (.ok answers), a'))
    (hend : .finish ∈ acceptedOf sent answers.toList)
    (hbody : (.endBody maxStack maxLocals, .ok ()) ∈ sent.zip answers.toList) :
    ∃ member bytes before inside after,
      a'.classFile.methods = a.classFile.methods.push member ∧
      member.Has a'.classFile.pool decl (some ⟨maxStack, maxLocals, bytes, #[], #[]⟩)
        ((acceptedOf sent answers.toList).filterMap MethodEvent.attribute?) ∧
      sent.zip answers.toList = before ++ (.beginBody, .ok ()) :: inside ++
        (.endBody maxStack maxLocals, .ok ()) :: after ∧
      (.beginBody, .ok ()) ∉ inside ∧ (∀ p ∈ before ++ inside ++ after, ClosesBody p = false) ∧
      LeftBy a'.classFile.pool inside bytes := by
  obtain ⟨m, m', pool, hpool, hrequest, -, hinside⟩ := opened_of_answer hn hrun
  have hfirst : (a.withPool pool).classFile.pool.Numbered := hpool.numbered hn
  have hbuilt := builtBy_of_answers (fresh_of_declareRequest hrequest).2 hfirst hinside
  have hrun' : Inside (fun _ => True) (a.withPool pool)
      ⟨decl, sent, acceptedOf sent answers.toList⟩ m' a' :=
    inside_of_answers (tracks_of_request hn hrequest) hfirst trivial (fun _ _ _ _ => trivial) hinside
  obtain ⟨before, inside, after, bytes, hsplit, hnone, hlast, hleft, hclosed⟩ :=
    hbuilt.closed_of_mem hbody
  -- the method has ended, so the body that was closed is the one that the class got
  cases hrun' with
  | unfinished hgrown hc hnot _ => exact absurd hend hnot
  | @finished pool' member code hgrown hc hmem _ _ hcode hhas htells =>
    subst hc
    cases code with
    | none => cases hclosed.symm.trans hcode
    | some code =>
      cases hclosed.symm.trans hcode
      exact ⟨member, bytes, before, inside, after, rfl, hhas, hsplit, hlast, hnone, hleft⟩

/-- A method whose end was accepted and that has accepted the end of a body, whatever else it was
sent: the class has one method more, whose body is made of what the events between the start of that
body and its end have left. Those are the instructions that were accepted in between, one after the
other, if and only if no interface call among them was cut short. -/
theorem bytecode_of_answer (hn : a.classFile.pool.Numbered) {decl : MethodDecl}
    {sent : List MethodEvent} {answers : Array (Except Error Unit)} {maxStack maxLocals : UInt16}
    (hrun : ClassAssembly.sink.answer (.method decl sent) a = (.method (.ok answers), a'))
    (hend : .finish ∈ acceptedOf sent answers.toList)
    (hbody : .endBody maxStack maxLocals ∈ acceptedOf sent answers.toList) :
    ∃ member bytes before inside after,
      a'.classFile.methods = a.classFile.methods.push member ∧
      member.Has a'.classFile.pool decl (some ⟨maxStack, maxLocals, bytes, #[], #[]⟩)
        ((acceptedOf sent answers.toList).filterMap MethodEvent.attribute?) ∧
      sent.zip answers.toList = before ++ (.beginBody, .ok ()) :: inside ++
        (.endBody maxStack maxLocals, .ok ()) :: after ∧
      (.beginBody, .ok ()) ∉ inside ∧ (∀ p ∈ before ++ inside ++ after, ClosesBody p = false) ∧
      LeftBy a'.classFile.pool inside bytes ∧
      (Bytecode a'.classFile.pool (acceptedInstructions inside) bytes ↔
        ∀ p ∈ inside, CutShort p = false) := by
  obtain ⟨member, bytes, before, inside, after, hmethods, hhas, hsplit, hlast, hnone, hleft⟩ :=
    closed_of_answer hn hrun hend (mem_zip_of_acceptedOf hbody)
  exact ⟨member, bytes, before, inside, after, hmethods, hhas, hsplit, hlast, hnone, hleft,
    bytecode_iff_of_leftBy hleft⟩

/-- The body of one instruction has the bytes of this instruction. -/
theorem bytecode_of_answer_shortBody :
    plainAssembly.classFile.pool.Numbered ∧
      ClassAssembly.sink.answer (.method runDecl shortBody) plainAssembly =
        (.method (.ok #[.ok (), .ok (), .ok (), .ok ()]), shortAssembly) ∧
      .finish ∈ acceptedOf shortBody [.ok (), .ok (), .ok (), .ok ()] ∧
      .endBody 0 1 ∈ acceptedOf shortBody [.ok (), .ok (), .ok (), .ok ()] ∧
      ∃ member bytes inside, shortAssembly.classFile.methods = #[member] ∧
        member.Has shortAssembly.classFile.pool runDecl (some ⟨0, 1, bytes, #[], #[]⟩) [] ∧
        Bytecode shortAssembly.classFile.pool (acceptedInstructions inside) bytes := by
  have hnumbered : plainAssembly.classFile.pool.Numbered := by
    simp [Numbered, plainAssembly, size]
  have hanswer := answer_of_method_ok begin_runDecl answers_shortBody
  have hend : MethodEvent.finish ∈ acceptedOf shortBody [.ok (), .ok (), .ok (), .ok ()] := by
    decide
  have hbody : MethodEvent.endBody 0 1 ∈ acceptedOf shortBody [.ok (), .ok (), .ok (), .ok ()] := by
    decide
  obtain ⟨member, bytes, before, inside, after, hmethods, hhas, hsplit, -, -, -, hbytes⟩ :=
    bytecode_of_answer hnumbered hanswer hend hbody
  have hwhole : ∀ p ∈ shortBody.zip [.ok (), .ok (), .ok (), .ok ()], CutShort p = false := by
    decide
  refine ⟨hnumbered, hanswer, hend, hbody, member, bytes, inside, hmethods, hhas, ?_⟩
  refine hbytes.mpr fun p hp => hwhole p ?_
  rw [hsplit]
  simp [hp]

/-! ## A call that is cut short -/

/-- A body of an interface call whose descriptor cannot be read, and of one instruction. -/
def cutBody : List MethodEvent :=
  [.beginBody, .instruction (.onMethod Opcode.invokeinterface.code "I" "m" "(" true),
    .instruction (.simple 177), .endBody 0 1, .finish]

/-- The call is refused, and everything else is accepted. -/
def cutAnswers : Array (Except Error Unit) :=
  #[.ok (), .error (.descriptor (.method "(" .missingClosing)), .ok (), .ok (), .ok ()]

/-- The method when it has been sent this body, -/
def cutMethod : MethodAssembly :=
  { runMethod with body := .complete ⟨0, 1, [185, 0, 10, 177], #[], #[]⟩, ended := true }

/-- and the class that has it. -/
def cutAssembly : ClassAssembly :=
  (plainAssembly.withPool
    ⟨#[.utf8 "A", .classRef 1, .utf8 "run", .utf8 "()V", .utf8 "I", .classRef 5, .utf8 "m",
      .utf8 "(", .nameAndType 7 8, .interfaceMethodRef 6 9, .utf8 "Code"]⟩).withMethod
    ⟨1, 3, 4, #[⟨11, Code.encode ⟨0, 1, [185, 0, 10, 177], #[], #[]⟩⟩]⟩

/-- The first part of a refused call is in the class: one instruction was accepted, and the body
that the class gets has three bytes in front of it. -/
theorem not_bytecode_of_cutBody :
    ClassAssembly.sink.answers [.header plainHeader, .method runDecl cutBody] .empty =
        (#[.piece (.ok ()), .method (.ok cutAnswers)], cutAssembly) ∧
      .finish ∈ acceptedOf cutBody cutAnswers.toList ∧
      acceptedInstructions (cutBody.zip cutAnswers.toList) = [.simple 177] ∧
      cutAssembly.classFile.methods =
        #[⟨1, 3, 4, #[⟨11, Code.encode ⟨0, 1, [185, 0, 10, 177], #[], #[]⟩⟩]⟩] ∧
      ¬ Bytecode cutAssembly.classFile.pool [.simple 177] [185, 0, 10, 177] := by
  have hrun : @id (Array (Except Error Unit) × MethodAssembly × ClassAssembly)
      (ClassAssembly.sink.answersInMethod cutBody runMethod runAssembly) =
        (cutAnswers, (cutMethod, cutAssembly)) := by decide +kernel
  have hinside : ClassAssembly.sink.answersInMethod cutBody runMethod runAssembly =
      (cutAnswers, (cutMethod, cutAssembly)) := hrun
  have hlen : ¬ Bytecode cutAssembly.classFile.pool [.simple 177] [185, 0, 10, 177] := by
    intro hbytes
    have hshort : Bytecode cutAssembly.classFile.pool [.simple 177] [177] :=
      ⟨[[177]], .cons (.simple 177) .nil, rfl⟩
    have hsame := hbytes.length_eq hshort
    simp at hsame
  exact ⟨answers_snoc answers_plainHeader (answer_of_method_ok begin_runDecl hinside), by decide,
    rfl, rfl, hlen⟩

end JvmStub
