/-
`Additions.lean` -- the constants that a run adds to the pool of its class.

The methods of a class share what their stubs need. Every stub needs the name of
the attribute that holds it, and a stub that throws needs a class, the class's own
constructor, and the texts of both; the name of the constructor is there already,
since it is the name of the method that throws. That makes six constants, which a
run adds at most once each, however many methods it stubs and wherever it stops.

So only a pool that had less than six slots left can be found full: where a stub is
refused for want of room, one of the six is still missing.
-/
import JvmStub.Proofs.Pool.Additions
import JvmStub.Proofs.Stub.Bodies
import JvmStub.Proofs.Stub.Stops

set_option autoImplicit false

namespace JvmStub

open ConstantPool PoolM

/-- Some method with a body is a constructor. -/
def ClassFile.StubsConstructor (cf : ClassFile) : Prop :=
  ∃ m ∈ cf.methods.toList, m.access.isBodiless = false ∧
    cf.pool.utf8 m.nameSlot = .ok constructorName

/-- Some method may have a body. -/
def ClassFile.HasConcrete (cf : ClassFile) : Prop :=
  ∃ m ∈ cf.methods.toList, m.access.isBodiless = false

/-- The slot that stands for a constant: the lowest that holds it, and zero where there is none. -/
def ConstantPool.slotOf (pool : ConstantPool) (c : Constant) : Slot := (pool.find? c).getD 0

/-- The constants that stubs are made of, each with the slots that its parts have in the pool. -/
def stubConstants (exceptionClass : String) (pool : ConstantPool) : List Constant :=
  let thrown := Constant.classRef (pool.textSlot exceptionClass)
  let named := Constant.nameAndType (pool.textSlot constructorName)
    (pool.textSlot noArgumentsDescriptor)
  [.utf8 AttributeName.code.text, .utf8 exceptionClass, thrown, .utf8 noArgumentsDescriptor, named,
    .methodRef (pool.slotOf thrown) (pool.slotOf named)]

/-- A constant that every stub needs that throws, whose parts are in the pool. -/
inductive ThrowingConstant (exceptionClass : String) (pool : ConstantPool) : Constant → Prop
  | text : ThrowingConstant exceptionClass pool (.utf8 exceptionClass)
  | thrown {text : Slot} (htext : pool.find? (.utf8 exceptionClass) = some text) :
      ThrowingConstant exceptionClass pool (.classRef text)
  | descriptor : ThrowingConstant exceptionClass pool (.utf8 noArgumentsDescriptor)
  | named {name descriptor : Slot} (hname : pool.find? (.utf8 constructorName) = some name)
      (hdescriptor : pool.find? (.utf8 noArgumentsDescriptor) = some descriptor) :
      ThrowingConstant exceptionClass pool (.nameAndType name descriptor)
  | constructor {text thrown name descriptor named : Slot}
      (htext : pool.find? (.utf8 exceptionClass) = some text)
      (hthrown : pool.find? (.classRef text) = some thrown)
      (hname : pool.find? (.utf8 constructorName) = some name)
      (hdescriptor : pool.find? (.utf8 noArgumentsDescriptor) = some descriptor)
      (hnamed : pool.find? (.nameAndType name descriptor) = some named) :
      ThrowingConstant exceptionClass pool (.methodRef thrown named)

/-- A constant that the stubs of the class file need: the name of the attribute where some method
may have a body, and those of a stub that throws where one is a constructor. -/
inductive StubConstant (exceptionClass : String) (cf : ClassFile) (pool : ConstantPool) :
    Constant → Prop
  | code (hconcrete : cf.HasConcrete) :
      StubConstant exceptionClass cf pool (.utf8 AttributeName.code.text)
  | throwing {c : Constant} (hsome : cf.StubsConstructor)
      (h : ThrowingConstant exceptionClass pool c) : StubConstant exceptionClass cf pool c

variable {exceptionClass : String} {cf : ClassFile} {pool later : ConstantPool} {m member : Member}
  {methods members : List Member} {parts : MethodParts} {decl : MethodDecl}
  {stub : Option StubBody} {c : Constant} {e : Error}

theorem lasting_throwingConstant (exceptionClass : String) :
    Lasting (ThrowingConstant exceptionClass) := by
  intro pool later c hg h
  cases h with
  | text => exact .text
  | thrown htext => exact .thrown (hg.find? htext)
  | descriptor => exact .descriptor
  | named hname hdescriptor => exact .named (hg.find? hname) (hg.find? hdescriptor)
  | constructor htext hthrown hname hdescriptor hnamed =>
    exact .constructor (hg.find? htext) (hg.find? hthrown) (hg.find? hname)
      (hg.find? hdescriptor) (hg.find? hnamed)

/-- A constant of a stub is one when the pool has grown. -/
theorem lasting_stubConstant (exceptionClass : String) (cf : ClassFile) :
    Lasting (StubConstant exceptionClass cf) := by
  intro pool later c hg h
  cases h with
  | code hconcrete => exact .code hconcrete
  | throwing hsome h => exact .throwing hsome (lasting_throwingConstant exceptionClass hg h)

/-- It is one of six. -/
theorem StubConstant.mem_stubConstants (h : StubConstant exceptionClass cf pool c) :
    c ∈ stubConstants exceptionClass pool := by
  cases h with
  | code _ => simp [stubConstants]
  | throwing _ h =>
    cases h with
    | text => simp [stubConstants]
    | thrown htext => simp [stubConstants, textSlot, htext]
    | descriptor => simp [stubConstants]
    | named hname hdescriptor => simp [stubConstants, textSlot, hname, hdescriptor]
    | constructor htext hthrown hname hdescriptor hnamed =>
      simp [stubConstants, textSlot, slotOf, htext, hthrown, hname, hdescriptor, hnamed]

/-- Where no constructor is stubbed, it is the name of the attribute. -/
theorem StubConstant.eq_code (h : StubConstant exceptionClass cf pool c)
    (hnone : ¬ cf.StubsConstructor) : c = .utf8 AttributeName.code.text := by
  cases h with
  | code _ => rfl
  | throwing hsome _ => exact absurd hsome hnone

/-- Where no method has a body, there is none. -/
theorem StubConstant.hasConcrete (h : StubConstant exceptionClass cf pool c) : cf.HasConcrete := by
  cases h with
  | code hconcrete => exact hconcrete
  | throwing hsome _ =>
    obtain ⟨m, hm, hbodiless, -⟩ := hsome
    exact ⟨m, hm, hbodiless⟩

/-! ## A stub that throws -/

/-- The instructions of a body ask for what each of them asks for. -/
theorem asks_requestAll_cons {P : ConstantPool → Constant → Prop} {i : Instruction}
    {is : List Instruction} (hP : Lasting P) (hi : Asks P i.request pool)
    (his : ∀ bytes mid, i.request pool = (.ok bytes, mid) → Asks P (requestAll is) mid) :
    Asks P (requestAll (i :: is)) pool :=
  hi.bind hP fun bytes mid h => (his bytes mid h).map hP _

theorem asks_addThrown (exceptionClass : String) (pool : ConstantPool) :
    Asks (ThrowingConstant exceptionClass) (addClass exceptionClass) pool := by
  have hlasting := lasting_throwingConstant exceptionClass
  refine (asks_intern hlasting rfl .text).bind hlasting fun text later htext => ?_
  exact asks_intern hlasting rfl (.thrown (find?_of_intern rfl htext))

/-- The name of a constructor is in the pool, so only its descriptor may be missing. -/
theorem asks_addConstructorType {slot : Slot} (hname : pool.utf8 slot = .ok constructorName) :
    Asks (ThrowingConstant exceptionClass)
      (addNameAndType constructorName noArgumentsDescriptor) pool := by
  have hlasting := lasting_throwingConstant exceptionClass
  have hfound := addUtf8_of_utf8 (GrowsInto.refl pool) hname
  refine (asks_of_granted hfound).bind hlasting fun name mid hname => ?_
  refine (asks_intern hlasting rfl .descriptor).bind hlasting fun descriptor later hdescriptor => ?_
  have hg := growsInto_of_intern rfl hdescriptor
  exact asks_intern hlasting rfl
    (.named (hg.find? (find?_of_intern rfl hname)) (find?_of_intern rfl hdescriptor))

/-- The constructor of the thrown class is three of these constants, once its name is there. -/
theorem asks_addConstructor {slot : Slot} (hname : pool.utf8 slot = .ok constructorName) :
    Asks (ThrowingConstant exceptionClass)
      (addMethodRef exceptionClass constructorName noArgumentsDescriptor) pool := by
  have hlasting := lasting_throwingConstant exceptionClass
  refine (asks_addThrown exceptionClass pool).bind hlasting fun thrown mid hclass => ?_
  have hg := (interns_addClass _).growsInto hclass
  refine (asks_addConstructorType (hg.utf8 hname)).bind hlasting fun named later hadd => ?_
  have hg' := (interns_addNameAndType _ _).growsInto hadd
  obtain ⟨text, htext, hthrown⟩ := find?_of_addClass hclass
  obtain ⟨name, descriptor, hname, hdescriptor, hnamed⟩ := find?_of_addNameAndType hadd
  exact asks_intern hlasting rfl
    (.constructor (hg'.find? htext) (hg'.find? hthrown) hname hdescriptor hnamed)

/-- A stub that throws asks for the class and its constructor. -/
theorem asks_throwing {slot : Slot} (hname : pool.utf8 slot = .ok constructorName)
    (maxLocals : UInt16) :
    Asks (ThrowingConstant exceptionClass)
      (requestAll (StubBody.throwing exceptionClass maxLocals).instructions) pool := by
  have hlasting := lasting_throwingConstant exceptionClass
  refine asks_requestAll_cons hlasting ((asks_addThrown _ pool).map hlasting _)
    fun _ mid hclass => ?_
  have hg := (interns_request _).growsInto hclass
  -- the instruction between the two that name something asks for nothing
  refine asks_requestAll_cons hlasting (asks_pure _) fun _ mid' hdup => ?_
  cases hdup
  refine asks_requestAll_cons hlasting ((asks_addConstructor (hg.utf8 hname)).map hlasting _)
    fun _ later _ => ?_
  exact asks_requestAll_cons hlasting (asks_pure _) fun _ _ _ => asks_pure _

/-! ## One method -/

/-- The body of a method asks for nothing unless the method is a constructor. -/
theorem asks_bodyRequest (hm : m ∈ cf.methods.toList) (hdecl : cf.methodDecl m parts = .ok decl)
    (hstub : stubBody decl exceptionClass = .ok stub) (hg : cf.pool.GrowsInto pool) :
    Asks (StubConstant exceptionClass cf) (bodyRequest stub) pool := by
  have hlasting := lasting_stubConstant exceptionClass cf
  obtain ⟨hname, -, -⟩ := methodDecl_eq_ok.mp hdecl
  cases hbodiless : decl.access.isBodiless with
  | true =>
    rw [stubBody_of_bodiless hbodiless] at hstub
    cases hstub
    exact asks_pure none
  | false =>
    obtain ⟨descriptor, -, hcases⟩ := (stubBody_eq_ok hbodiless).mp hstub
    -- a constructor throws, and any other method returns a zero, which asks for nothing
    split at hcases
    · next hconstructor =>
      obtain ⟨-, -, rfl⟩ := hcases
      rw [hconstructor] at hname
      rw [access_of_methodDecl hdecl] at hbodiless
      have hsome : cf.StubsConstructor := ⟨m, hm, hbodiless, hname⟩
      have hthrowing : Asks (ThrowingConstant exceptionClass) (requestAll _) pool :=
        asks_throwing (hg.utf8 hname) (descriptor.argumentSlotCount decl.access.isStatic)
      exact (hthrowing.imp fun _ c h => .throwing hsome h).map hlasting _
    · cases hcases
      exact (asks_of_granted (requestAll_simple _)).map hlasting _

/-- A stub asks for its body's constants and for the name of the attribute that holds it. -/
theorem asks_stubRequest (hm : m ∈ cf.methods.toList) (hdecl : cf.methodDecl m parts = .ok decl)
    (hstub : stubBody decl exceptionClass = .ok stub) (hg : cf.pool.GrowsInto pool) :
    Asks (StubConstant exceptionClass cf) (stubRequest stub) pool := by
  have hlasting := lasting_stubConstant exceptionClass cf
  refine (asks_bodyRequest hm hdecl hstub hg).bind hlasting fun code mid hbody => ?_
  cases stub with
  | none =>
    cases hbody
    exact asks_pure []
  | some body =>
    obtain ⟨bytes, mid', -, hbody⟩ := bind_eq_ok.mp hbody
    cases hbody
    -- a method with a stub is one that may have a body
    have hbodiless := isSome_of_methodDecl hdecl hstub
    rw [Option.isSome_some, eq_comm, Bool.not_eq_true'] at hbodiless
    exact (asks_intern hlasting rfl (.code ⟨m, hm, hbodiless⟩)).map hlasting _

/-- Whether there is room for all of a stub or not, the pool gains only what stubs need. -/
theorem gains_of_stubRequest {result : Except PoolError (List Attribute)}
    (hm : m ∈ cf.methods.toList) (hdecl : cf.methodDecl m parts = .ok decl)
    (hstub : stubBody decl exceptionClass = .ok stub)
    (hcode : stubRequest stub pool = (result, later)) (hg : cf.pool.GrowsInto pool) :
    Gains (StubConstant exceptionClass cf) pool later := by
  have hgains := (asks_stubRequest hm hdecl hstub hg).gains
  rwa [hcode] at hgains

/-- One method adds constants of a stub only. -/
theorem StubStep.gains (h : StubStep exceptionClass cf pool m later member)
    (hm : m ∈ cf.methods.toList) (hg : cf.pool.GrowsInto pool) :
    Gains (StubConstant exceptionClass cf) pool later := by
  obtain ⟨-, hdecl, hstub, hcode, -⟩ := h
  exact gains_of_stubRequest hm hdecl hstub hcode hg

/-- A method at which stubbing stops has gained what it had asked for by then. -/
theorem StubStop.gains (h : StubStop exceptionClass cf pool m e later)
    (hm : m ∈ cf.methods.toList) (hg : cf.pool.GrowsInto pool) :
    Gains (StubConstant exceptionClass cf) pool later := by
  cases h with
  | unread _ => exact Gains.refl _ pool
  | refused _ _ _ => exact Gains.refl _ pool
  | full _ hdecl hstub hcode => exact gains_of_stubRequest hm hdecl hstub hcode hg
  | crowded _ hdecl hstub hcode _ => exact gains_of_stubRequest hm hdecl hstub hcode hg

/-! ## All methods -/

/-- All methods together add constants of a stub only. -/
theorem StubRun.gains (h : StubRun exceptionClass cf pool methods later members)
    (hmethods : ∀ m ∈ methods, m ∈ cf.methods.toList) (hg : cf.pool.GrowsInto pool) :
    Gains (StubConstant exceptionClass cf) pool later := by
  induction h with
  | nil pool => exact Gains.refl _ pool
  | cons hstep _ ih =>
    obtain ⟨hm, hrest⟩ := List.forall_mem_cons.mp hmethods
    exact (hstep.gains hm hg).trans (lasting_stubConstant exceptionClass cf)
      (ih hrest (hg.trans hstep.growsInto))

/-- The methods up to one that cannot be stubbed, and this one, add constants of a stub only. -/
theorem StubHalt.gains (h : StubHalt exceptionClass cf pool methods e later)
    (hmethods : ∀ m ∈ methods, m ∈ cf.methods.toList) (hg : cf.pool.GrowsInto pool) :
    Gains (StubConstant exceptionClass cf) pool later := by
  induction h with
  | here hstop => exact hstop.gains (hmethods _ List.mem_cons_self) hg
  | behind hstep _ ih =>
    obtain ⟨hm, hrest⟩ := List.forall_mem_cons.mp hmethods
    exact (hstep.gains hm hg).trans (lasting_stubConstant exceptionClass cf)
      (ih hrest (hg.trans hstep.growsInto))

/-- Wherever a run ends, the pool has gained constants of stubs and no others. -/
theorem gains_assembleStub (hfits : cf.Fits) (exceptionClass : String) :
    Gains (StubConstant exceptionClass cf) cf.pool
      (assembleStub exceptionClass cf).2.classFile.pool := by
  have hmethods : ∀ m ∈ cf.methods.toList, m ∈ cf.methods.toList := fun _ hm => hm
  have hg := GrowsInto.refl cf.pool
  cases hrun : assembleStub exceptionClass cf with
  | mk outcome assembly =>
    cases outcome with
    | ok u =>
      obtain ⟨-, pool, members, hstubbed, rfl⟩ := (replay_eq_ok hfits).mp hrun
      exact hstubbed.gains hmethods hg
    | error e =>
      obtain ⟨-, hpool⟩ | hhalt := assembleStub_eq_error hfits hrun
      · rw [hpool]
        exact Gains.refl _ cf.pool
      · exact hhalt.gains hmethods hg

/-! ## A full pool -/

/-- Where stubbing halts for want of room, it still had something to add. -/
theorem StubHalt.lacks {full : PoolError}
    (h : StubHalt exceptionClass cf pool methods (.write (.pool full)) later)
    (hmethods : ∀ m ∈ methods, m ∈ cf.methods.toList) (hg : cf.pool.GrowsInto pool) :
    Lacks (StubConstant exceptionClass cf) later := by
  generalize herror : Error.write (.pool full) = e at h
  induction h with
  | here hstop =>
    cases hstop with
    | unread _ => cases herror
    | refused _ _ _ => cases herror
    | crowded _ _ _ _ _ => cases herror
    | full _ hdecl hstub hcode =>
      have hm := hmethods _ List.mem_cons_self
      exact (asks_stubRequest hm hdecl hstub hg).refused _ _ hcode
  | behind hstep _ ih =>
    obtain ⟨-, hrest⟩ := List.forall_mem_cons.mp hmethods
    exact ih hrest (hg.trans hstep.growsInto) herror

/-- A class is refused for want of room only if its pool had less than six slots left. -/
theorem size_of_outOfSpace {config : Config} {bytes : Bytes}
    (hdecode : ClassFile.decode bytes = .ok cf)
    (h : stubClass config bytes = .error (.write (.pool .outOfSpace))) :
    65529 ≤ cf.pool.size := by
  have hfits := ClassFile.fits_of_decode hdecode
  obtain ⟨r, -, hread⟩ | ⟨original, hdecode', hchecked⟩ := stubClass_eq_error.mp h
  · cases hread
  cases hdecode.symm.trans hdecode'
  obtain hstubbed | ⟨stubbed, fault, -, -, -, hfault⟩ := checkedStub_eq_error.mp hchecked
  · obtain ⟨r, hread⟩ | ⟨later, hhalt⟩ := stubbedClass_eq_error hfits hstubbed
    · cases hread
    have hmethods : ∀ m ∈ cf.methods.toList, m ∈ cf.methods.toList := fun _ hm => hm
    have hg := GrowsInto.refl cf.pool
    have hroom : maxSize < cf.pool.size + 6 := (hhalt.gains hmethods hg).lt_of_lacks
      (hhalt.lacks hmethods hg) fun c hc => hc.mem_stubConstants
    unfold maxSize at hroom
    omega
  · cases hfault

/-! ## The whole way -/

/-- Whatever becomes of a run, it has added six constants at most to the pool that was read, none of
them twice: only the name of the attribute if no constructor is stubbed, and nothing if no method
has a body. So a run can fill only a pool of 65529 slots or more. -/
theorem additions_of_decode {bytes : Bytes} (h : ClassFile.decode bytes = .ok cf)
    (config : Config) :
    (∃ added,
      (assembleStub config.exceptionClass cf).2.classFile.pool.constants.toList =
          cf.pool.constants.toList ++ added ∧
        added.Nodup ∧
        added ⊆ stubConstants config.exceptionClass
          (assembleStub config.exceptionClass cf).2.classFile.pool ∧
        added.length ≤ 6 ∧
        (¬ cf.StubsConstructor → added = [] ∨ added = [.utf8 AttributeName.code.text]) ∧
        ((∀ m ∈ cf.methods.toList, m.access.isBodiless = true) → added = [])) ∧
      (stubClass config bytes = .error (.write (.pool .outOfSpace)) → 65529 ≤ cf.pool.size) := by
  have hfits := ClassFile.fits_of_decode h
  obtain ⟨added, happend, hnodup, hadded⟩ := gains_assembleStub hfits config.exceptionClass
  have hsubset : added ⊆ stubConstants config.exceptionClass
      (assembleStub config.exceptionClass cf).2.classFile.pool :=
    fun c hc => (hadded c hc).2.mem_stubConstants
  refine ⟨⟨added, happend, hnodup, hsubset, ?_, fun hnone => ?_, fun hbodiless => ?_⟩,
    size_of_outOfSpace h⟩
  · exact (List.subperm_of_subset hnodup hsubset).length_le
  · have hcode : added ⊆ [.utf8 AttributeName.code.text] := fun c hc =>
      List.mem_singleton.mpr ((hadded c hc).2.eq_code hnone)
    -- one constant that is not added twice is added once or not at all
    have hlen : added.length ≤ 1 := (List.subperm_of_subset hnodup hcode).length_le
    rcases added with _ | ⟨c, rest⟩
    · exact .inl rfl
    · have hrest : rest = [] := by
        rw [List.length_cons] at hlen
        exact List.length_eq_zero_iff.mp (by omega)
      rw [List.mem_singleton.mp (hcode List.mem_cons_self), hrest]
      exact .inr rfl
  · refine List.eq_nil_iff_forall_not_mem.mpr fun c hc => ?_
    obtain ⟨m, hm, hconcrete⟩ := (hadded c hc).2.hasConcrete
    rw [hbodiless m hm] at hconcrete
    cases hconcrete

theorem additions_of_decode_exampleClass :
    ClassFile.decode exampleClass.encode = .ok exampleClass ∧
      (∃ added,
        (assembleStub "java/lang/Error" exampleClass).2.classFile.pool.constants.toList =
            exampleClass.pool.constants.toList ++ added ∧
          added.Nodup ∧
          added ⊆ stubConstants "java/lang/Error"
            (assembleStub "java/lang/Error" exampleClass).2.classFile.pool ∧
          added.length ≤ 6 ∧
          (¬ exampleClass.StubsConstructor →
            added = [] ∨ added = [.utf8 AttributeName.code.text]) ∧
          ((∀ m ∈ exampleClass.methods.toList, m.access.isBodiless = true) → added = [])) ∧
        (stubClass {} exampleClass.encode = .error (.write (.pool .outOfSpace)) →
          65529 ≤ exampleClass.pool.size) :=
  ⟨decode_exampleClass, additions_of_decode decode_exampleClass {}⟩

end JvmStub
