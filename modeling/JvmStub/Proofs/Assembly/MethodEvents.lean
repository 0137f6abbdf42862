/-
`MethodEvents.lean` -- what an event does to a method under construction.

`Accepts` lists the six ways in which a method takes an event, one for each kind,
with the guard that lets the event in. An event that is refused may have grown
the pool, may have left bytes in the open body or lost it, and may have ended the
method, but it has put nothing into the class: `Refuses`. The main statement,
`outcome_receive`, is that there is nothing else.

Everything said later of a method that is told event by event is said of these
two, and the definitions behind them are not opened again.
-/
import JvmStub.Proofs.Assembly.Requests

set_option autoImplicit false

namespace JvmStub

open ConstantPool PoolM

/-! ## Instructions -/

/-- The texts of an instruction. -/
def Instruction.texts : Instruction → List String
  | .simple _ => []
  | .onClass _ className => [className]
  | .onMethod _ owner name descriptor _ => [owner, name, descriptor]

/-- The texts of an event inside a method. -/
def MethodEvent.texts : MethodEvent → List String
  | .instruction i => i.texts
  | .attribute _ | .beginBody | .endBody .. | .body _ | .finish => []

/-- What a refusal calls an event inside a method. -/
def MethodEvent.eventName : MethodEvent → EventName
  | .attribute _ => .attribute
  | .beginBody => .beginBody
  | .instruction _ => .instruction
  | .endBody .. => .endBody
  | .body _ => .body
  | .finish => .finish

/-- The refusal of an event that comes after the end of a method. -/
def MethodEvent.late (method : String) (e : MethodEvent) : Except Error Unit :=
  .error (.write (.afterEnd e.eventName method))

/-- The refusal is the one that an open body does not survive. -/
def MethodEvent.losesBody : MethodEvent → Error → Bool
  | .endBody .., .write (.codeTooLong ..) => true
  | _, _ => false

variable {texts : String → Prop} {pool later : ConstantPool}

/-- The bytes are those of the instruction: its opcode, a slot that leads to what it names, and
what follows the slot. -/
inductive Instruction.SpelledBy (pool : ConstantPool) : Instruction → Bytes → Prop
  | simple (opcode : UInt8) : SpelledBy pool (.simple opcode) [opcode]
  | onClass {opcode : UInt8} {className : String} {slot : Slot}
      (hslot : pool.className slot = .ok className) :
      SpelledBy pool (.onClass opcode className) (opcode :: Bytes.u2 slot)
  | onMethod {opcode : UInt8} {owner name descriptor : String} {ofInterface : Bool} {slot : Slot}
      {tail : Bytes} (hslot : pool.HoldsMember slot ⟨owner, name, descriptor⟩ ofInterface)
      (htail : Instruction.tail (.onMethod opcode owner name descriptor ofInterface) = .ok tail) :
      SpelledBy pool (.onMethod opcode owner name descriptor ofInterface)
        (opcode :: Bytes.u2 slot ++ tail)

/-- Bytes that spell an instruction spell it when the pool has grown, since its slots still hold
what they held. -/
theorem Instruction.SpelledBy.mono {i : Instruction} {bytes : Bytes} (h : i.SpelledBy pool bytes)
    (hg : pool.GrowsInto later) : i.SpelledBy later bytes := by
  cases h with
  | simple opcode => exact .simple opcode
  | onClass hslot => exact .onClass (hg.className hslot)
  | onMethod hslot htail => exact .onMethod (hslot.mono hg) htail

/-- A call asks for its callee and writes the opcode and the slot. The count behind them, where
there is one, is written without a request. -/
theorem request_onMethod (opcode : UInt8) (owner name descriptor : String) (ofInterface : Bool) :
    Instruction.request (.onMethod opcode owner name descriptor ofInterface) = (do
      let slot ← addMember ⟨owner, name, descriptor⟩ ofInterface
      return opcode :: Bytes.u2 slot) := rfl

/-- An instruction grows the pool by its own texts. -/
theorem grown_request_of_texts {i : Instruction} (hn : pool.Numbered) (hi : ∀ t ∈ i.texts, texts t) :
    Grown texts pool (i.request pool).2 := by
  cases i with
  | simple opcode => exact Grown.refl texts pool
  | onClass opcode className =>
    have hclass := hi className (by simp [Instruction.texts])
    exact grown_bind hn (grown_addClass hn hclass) fun _ later _ _ => Grown.refl texts later
  | onMethod opcode owner name descriptor ofInterface =>
    rw [request_onMethod]
    have howner := hi owner (by simp [Instruction.texts])
    have hname := hi name (by simp [Instruction.texts])
    have hdescriptor := hi descriptor (by simp [Instruction.texts])
    exact grown_bind hn (grown_addMember hn howner hname hdescriptor) fun _ later _ _ =>
      Grown.refl texts later

/-- The answer to the request of an instruction spells it, with what follows the slot. -/
theorem spelledBy_of_request {i : Instruction} {bytes tail : Bytes} (hn : later.Numbered)
    (h : i.request pool = (.ok bytes, later)) (htail : i.tail = .ok tail) :
    i.SpelledBy later (bytes ++ tail) := by
  cases i with
  | simple opcode =>
    cases h
    cases htail
    exact .simple opcode
  | onClass opcode className =>
    obtain ⟨slot, mid, hslot, h⟩ := bind_eq_ok.mp h
    cases h
    cases htail
    rw [List.append_nil]
    exact .onClass (className_of_addClass hn hslot)
  | onMethod opcode owner name descriptor ofInterface =>
    rw [request_onMethod] at h
    obtain ⟨slot, mid, hslot, h⟩ := bind_eq_ok.mp h
    cases h
    exact .onMethod (holdsMember_of_addMember hn hslot) htail

namespace MethodAssembly

variable {m m' : MethodAssembly} {c c' : ClassAssembly} {after : MethodAssembly × ClassAssembly}

/-! ## The six events -/

/-- The method takes the event. -/
inductive Accepts (m : MethodAssembly) (c : ClassAssembly) :
    MethodEvent → MethodAssembly → ClassAssembly → Prop
  | attribute (a : Attribute) :
      Accepts m c (.attribute a) { m with forwarded := m.forwarded.push a } c
  | beginBody (habsent : m.body = .absent) : Accepts m c .beginBody (m.withOpened #[]) c
  | instruction {i : Instruction} {bytecode : Array UInt8} {bytes tail : Bytes}
      {pool : ConstantPool} (hopened : m.body = .opened bytecode)
      (hrequest : i.request c.classFile.pool = (.ok bytes, pool)) (htail : i.tail = .ok tail) :
      Accepts m c (.instruction i) (m.withOpened (bytecode ++ (bytes ++ tail))) (c.withPool pool)
  | endBody {bytecode : Array UInt8} (maxStack maxLocals : UInt16)
      (hopened : m.body = .opened bytecode) (hsize : bytecode.size ≤ maxCodeLength) :
      Accepts m c (.endBody maxStack maxLocals)
        (m.withBody ⟨maxStack, maxLocals, bytecode.toList, #[], #[]⟩) c
  | body (code : Code) (habsent : m.body = .absent) : Accepts m c (.body code) (m.withBody code) c
  | finish {code : Option Code} {listed : List Attribute} {pool : ConstantPool}
      (hbody : m.body = (code.map BodyState.complete).getD .absent)
      (hrequest : codeRequest code c.classFile.pool = (.ok listed, pool))
      (hcount : (listed.toArray ++ m.leading ++ m.forwarded).size ≤ maxCount) :
      Accepts m c .finish { m with ended := true }
        ((c.withPool pool).withMethod ⟨m.access, m.nameSlot, m.descriptorSlot,
          listed.toArray ++ m.leading ++ m.forwarded⟩)

/-- What a refused event leaves of a body: it is kept, or the part of an interface call that has
been written stays behind an open one, or an open one that is too long is lost. -/
inductive RefusedBody (m : MethodAssembly) : MethodEvent → Error → BodyState → Prop
  | kept {e : MethodEvent} {error : Error} (hkeeps : e.losesBody error = false) :
      RefusedBody m e error m.body
  | begun {bytecode : Array UInt8} (i : Instruction) (error : Error) (bytes : Bytes)
      (hopened : m.body = .opened bytecode) :
      RefusedBody m (.instruction i) error (.opened (bytecode ++ bytes))
  | lost {bytecode : Array UInt8} (maxStack maxLocals : UInt16)
      (hopened : m.body = .opened bytecode) (hlong : maxCodeLength < bytecode.size) :
      RefusedBody m (.endBody maxStack maxLocals) (.write (.codeTooLong m.name bytecode.size))
        .absent

/-- What a refused event leaves: the class has grown its pool at most, and the method has ended if
the event was its end. -/
structure Refuses (texts : String → Prop) (m : MethodAssembly) (c : ClassAssembly)
    (e : MethodEvent) (error : Error) (m' : MethodAssembly) (c' : ClassAssembly) : Prop where
  classFile : ∃ pool, Grown texts c.classFile.pool pool ∧ c' = c.withPool pool
  access : m'.access = m.access
  name : m'.name = m.name
  nameSlot : m'.nameSlot = m.nameSlot
  descriptorSlot : m'.descriptorSlot = m.descriptorSlot
  leading : m'.leading = m.leading
  forwarded : m'.forwarded = m.forwarded
  body : RefusedBody m e error m'.body
  ended : m'.ended = true ↔ m.ended = true ∨ e = .finish

/-- A refusal may change nothing, unless it is that of the first end or of a body's. -/
theorem Refuses.refl (texts : String → Prop) (m : MethodAssembly) (c : ClassAssembly)
    {e : MethodEvent} {error : Error} (hfirst : e = .finish → m.ended = true)
    (hkeeps : e.losesBody error = false) : Refuses texts m c e error m c where
  classFile := ⟨c.classFile.pool, Grown.refl _ _, rfl⟩
  access := rfl
  name := rfl
  nameSlot := rfl
  descriptorSlot := rfl
  leading := rfl
  forwarded := rfl
  body := .kept hkeeps
  ended := ⟨.inl, fun h => h.elim id hfirst⟩

/-- What an event does to a method under construction and to the class around it. -/
inductive Outcome (texts : String → Prop) (m : MethodAssembly) (c : ClassAssembly)
    (e : MethodEvent) : Except Error Unit × (MethodAssembly × ClassAssembly) → Prop
  | accepted {m' : MethodAssembly} {c' : ClassAssembly} (hopen : m.ended = false)
      (h : Accepts m c e m' c') : Outcome texts m c e (.ok (), (m', c'))
  | refused {m' : MethodAssembly} {c' : ClassAssembly} (error : Error)
      (h : Refuses texts m c e error m' c') : Outcome texts m c e (.error error, (m', c'))

theorem withOpened_of_body {bytecode : Array UInt8} (h : m.body = .opened bytecode) :
    m.withOpened bytecode = m := by
  cases m
  cases h
  rfl

/-- A method that has ended refuses any event as too late. -/
theorem checkOpen_of_ended (h : m.ended = true) (event : EventName) :
    checkOpen event (m, c) = (.error (.write (.afterEnd event m.name)), (m, c)) := by
  unfold checkOpen
  rw [bind_of_ok (get_run (m, c))]
  simp only [h, if_true]
  rfl

/-- A method that has ended refuses every event as too late, and is left as it is. -/
theorem receive_of_ended (h : m.ended = true) (e : MethodEvent) :
    receive e (m, c) = (e.late m.name, (m, c)) := by
  cases e <;> exact bind_of_error (checkOpen_of_ended h _)

/-- A method takes one body only, whether the first is open or complete. -/
theorem checkNoBody_of_present (h : m.body ≠ .absent) :
    checkNoBody (m, c) = (.error (.write (.duplicateCode m.name)), (m, c)) := by
  unfold checkNoBody
  rw [bind_of_ok (get_run (m, c))]
  cases hbody : m.body with
  | absent => exact absurd hbody h
  | opened bytecode => simp only [hbody]; rfl
  | complete code => simp only [hbody]; rfl

/-- The start of a body is accepted by a method that has none. -/
theorem outcome_beginBody (hopen : m.ended = false) :
    Outcome texts m c .beginBody (receive .beginBody (m, c)) := by
  by_cases habsent : m.body = .absent
  · rw [beginBody_run hopen habsent]
    exact .accepted hopen (.beginBody habsent)
  · change Outcome texts m c .beginBody (beginBody (m, c))
    unfold beginBody
    rw [bind_of_ok (checkOpen_run hopen _), bind_of_error (checkNoBody_of_present habsent)]
    exact .refused _ (Refuses.refl texts m c (by simp) rfl)

/-- A whole body is accepted by a method that has none. It is kept as it comes, its tables uncounted. -/
theorem outcome_body (hopen : m.ended = false) (code : Code) :
    Outcome texts m c (.body code) (receive (.body code) (m, c)) := by
  change Outcome texts m c (.body code) (receiveBody code (m, c))
  unfold receiveBody
  rw [bind_of_ok (checkOpen_run hopen _)]
  by_cases habsent : m.body = .absent
  · rw [bind_of_ok (checkNoBody_of_absent habsent)]
    exact .accepted hopen (.body code habsent)
  · rw [bind_of_error (checkNoBody_of_present habsent)]
    exact .refused _ (Refuses.refl texts m c (by simp) rfl)

/-- The end of a body closes an open one, which is lost when its bytecode is too long. -/
theorem outcome_endBody (hopen : m.ended = false) (maxStack maxLocals : UInt16) :
    Outcome texts m c (.endBody maxStack maxLocals)
      (receive (.endBody maxStack maxLocals) (m, c)) := by
  change Outcome texts m c _ (endBody maxStack maxLocals (m, c))
  unfold endBody
  rw [bind_of_ok (checkOpen_run hopen _), bind_of_ok (get_run _)]
  dsimp only
  cases hbody : m.body with
  | absent => exact .refused _ (Refuses.refl texts m c (by simp) rfl)
  | complete code => exact .refused _ (Refuses.refl texts m c (by simp) rfl)
  | opened bytecode =>
    by_cases hlong : maxCodeLength < bytecode.size
    · simp only [if_pos hlong]
      have hrefused : Refuses texts m c (.endBody maxStack maxLocals)
          (.write (.codeTooLong m.name bytecode.size)) { m with body := .absent } c :=
        ⟨⟨_, Grown.refl _ _, rfl⟩, rfl, rfl, rfl, rfl, rfl, rfl, .lost _ _ hbody hlong, by simp⟩
      exact .refused _ hrefused
    · simp only [if_neg hlong]
      exact .accepted hopen (.endBody maxStack maxLocals hbody (Nat.le_of_not_lt hlong))

/-- An instruction is accepted by an open body. When it is refused, bytes in front of its slot may
stay in the body. -/
theorem outcome_instruction (hopen : m.ended = false) {i : Instruction}
    (hn : c.classFile.pool.Numbered) (hi : ∀ t ∈ i.texts, texts t) :
    Outcome texts m c (.instruction i) (receive (.instruction i) (m, c)) := by
  change Outcome texts m c _ (instruction i (m, c))
  unfold instruction
  rw [bind_of_ok (checkOpen_run hopen _), bind_of_ok (get_run _)]
  dsimp only
  cases hbody : m.body with
  | absent => exact .refused _ (Refuses.refl texts m c (by simp) rfl)
  | complete code => exact .refused _ (Refuses.refl texts m c (by simp) rfl)
  | opened bytecode =>
    have happend : ∀ bytes, m.append bytes = m.withOpened (bytecode ++ bytes) := fun bytes => by
      rw [← withOpened_of_body hbody]
      rfl
    have hgrown := grown_request_of_texts hn hi
    cases hrequest : i.request c.classFile.pool with
    | mk result pool =>
      rw [hrequest] at hgrown
      cases result with
      | error e =>
        simp only [write_of_error hrequest]
        exact .refused _ { Refuses.refl texts m c (by simp) rfl with
          classFile := ⟨pool, hgrown, rfl⟩ }
      | ok bytes =>
        cases htail : i.tail with
        | ok tail =>
          simp only [write_of_request hrequest htail, happend, append_withOpened,
            withOpened_append]
          exact .accepted hopen (.instruction hbody hrequest htail)
        | error e =>
          -- what has been written of the instruction stays
          simp only [write_of_tail_error hrequest htail, happend]
          have hsame : Refuses texts m c (.instruction i) (.descriptor e) m c :=
            .refl texts m c (by simp) rfl
          exact .refused _ { hsame with
            classFile := ⟨pool, hgrown, rfl⟩, body := .begun i _ bytes hbody }

/-- The attribute of a body adds the name of the attribute at most. -/
theorem grown_codeRequest (hn : pool.Numbered) (hcode : texts AttributeName.code.text)
    (code : Option Code) : Grown texts pool (codeRequest code pool).2 := by
  cases code with
  | none => exact Grown.refl texts pool
  | some code =>
    exact grown_bind hn (grown_addUtf8 hcode) fun _ later _ _ => Grown.refl texts later

/-- Putting a body down has grown the pool, whatever it answers. -/
theorem codeAttribute_state (hcode : texts AttributeName.code.text) (name : String)
    (body : BodyState) : ∃ pool, Grown texts c.classFile.pool pool ∧
      (codeAttribute name body (m, c)).2 = (m, c.withPool pool) := by
  cases body with
  | absent => exact ⟨_, Grown.refl _ _, rfl⟩
  | opened bytecode => exact ⟨_, Grown.refl _ _, rfl⟩
  | complete code =>
    cases hadd : addUtf8 AttributeName.code.text c.classFile.pool with
    | mk result pool =>
      refine ⟨pool, grown_of_run hadd (grown_addUtf8 hcode), ?_⟩
      simp only [codeAttribute]
      cases result with
      | error e => rw [bind_of_error (growing_of_error hadd)]
      | ok slot => rw [bind_of_ok (growing_of_ok hadd), pure_run]

/-- A body that has been put down was complete or missing. -/
theorem body_of_codeAttribute {name : String} {body : BodyState} {attributes : Array Attribute}
    (h : codeAttribute name body (m, c) = (.ok attributes, after)) :
    ∃ code : Option Code, body = (code.map BodyState.complete).getD .absent := by
  cases body with
  | absent => exact ⟨none, rfl⟩
  | opened bytecode => cases h
  | complete code => exact ⟨some code, rfl⟩

/-- The end makes a method of the class out of what was accepted, unless a body is open, or there is
no room for the name of its attribute, or the attributes are too many. -/
theorem outcome_finish (hopen : m.ended = false) (hcode : texts AttributeName.code.text) :
    Outcome texts m c .finish (receive .finish (m, c)) := by
  obtain ⟨pool, hgrown, hstate⟩ :=
    codeAttribute_state (m := { m with ended := true }) (c := c) hcode m.name m.body
  -- whatever refuses the end, the method has ended and the pool may have grown
  have hrefused : ∀ error,
      Refuses texts m c .finish error { m with ended := true } (c.withPool pool) := fun error =>
    ⟨⟨pool, hgrown, rfl⟩, rfl, rfl, rfl, rfl, rfl, rfl, .kept rfl, by simp⟩
  cases hattributes : codeAttribute m.name m.body ({ m with ended := true }, c) with
  | mk result mid =>
    rw [hattributes] at hstate
    cases hstate
    cases result with
    | error e =>
      rw [finish_of_open hopen, bind_of_error hattributes]
      exact .refused e (hrefused e)
    | ok attributes =>
      obtain ⟨code, hbody⟩ := body_of_codeAttribute hattributes
      obtain ⟨listed, pool', hrequest, rfl, hpool⟩ := (codeAttribute_eq_ok hbody).mp hattributes
      by_cases hcount : (listed.toArray ++ m.leading ++ m.forwarded).size ≤ maxCount
      · rw [(finish_eq_ok hopen hbody).mpr ⟨listed, pool', hrequest, hcount, rfl⟩]
        exact .accepted hopen (.finish hbody hrequest hcount)
      · rw [finish_of_open hopen, bind_of_ok hattributes,
          bind_of_error (ClassAssembly.checkCount_of_lt (Nat.lt_of_not_le hcount) _)]
        exact .refused _ (hrefused _)

/-- What an event does to a method under construction, whatever it answers. -/
theorem outcome_receive {e : MethodEvent} (hn : c.classFile.pool.Numbered)
    (he : ∀ t ∈ e.texts, texts t) (hcode : texts AttributeName.code.text) :
    Outcome texts m c e (receive e (m, c)) := by
  cases hended : m.ended with
  | true =>
    rw [receive_of_ended hended]
    exact .refused _ (Refuses.refl texts m c (fun _ => hended) (by cases e <;> rfl))
  | false =>
    rcases e with a | _ | i | ⟨maxStack, maxLocals⟩ | code | _
    · rw [receiveAttribute_run hended]
      exact .accepted hended (.attribute a)
    · exact outcome_beginBody hended
    · exact outcome_instruction hended hn he
    · exact outcome_endBody hended maxStack maxLocals
    · exact outcome_body hended code
    · exact outcome_finish hended hcode

end MethodAssembly

end JvmStub
