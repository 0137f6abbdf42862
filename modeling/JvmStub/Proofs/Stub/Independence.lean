/-
`Independence.lean` -- the bodies that a class comes with do not matter.

A run that leaves bodies out tells the same class whatever its bodies were:
erasing their payloads changes neither what reaches the sink nor where the run
stops. This is shown for every sink, so it holds of any chain of stages and of
any assembly behind them. Two classes that differ in nothing but the payloads of
their bodies have one erasure, and so they are stubbed to the same bytes, or
refused with the same error. A payload need not even be one that can be read.
-/
import JvmStub.Proofs.Stub.Run

set_option autoImplicit false

namespace JvmStub

/-! ## Erasure -/

/-- The attribute, with nothing in it when it is a body. -/
def Attribute.withoutBody (pool : ConstantPool) (a : Attribute) : Attribute :=
  if a.isNamed pool .code then { a with info := [] } else a

/-- The method with nothing in its bodies. -/
def Member.withoutBody (pool : ConstantPool) (m : Member) : Member :=
  { m with attributes := m.attributes.map (Attribute.withoutBody pool) }

/-- The class file with nothing in the bodies of its methods. -/
def ClassFile.withoutBodies (cf : ClassFile) : ClassFile :=
  { cf with methods := cf.methods.map (Member.withoutBody cf.pool) }

/-- The parts with nothing in the body. -/
def MethodParts.withoutBody (pool : ConstantPool) (parts : MethodParts) : MethodParts :=
  { parts with code := parts.code.map (Attribute.withoutBody pool) }

variable {pool : ConstantPool} {parts : MethodParts} {a : Attribute} {cf : ClassFile}

/-- Erasing a body keeps the slot of its name. -/
theorem withoutBody_nameSlot (pool : ConstantPool) (a : Attribute) :
    (a.withoutBody pool).nameSlot = a.nameSlot := by
  unfold Attribute.withoutBody
  split <;> rfl

theorem withoutBody_name : (a.withoutBody pool).name pool = a.name pool := by
  rw [Attribute.name, Attribute.name, withoutBody_nameSlot]

/-- An attribute with another name is kept as it is. -/
theorem withoutBody_of_name {text : String} (h : a.name pool = .ok text)
    (hcode : text ≠ AttributeName.code.text) : a.withoutBody pool = a := by
  rw [Attribute.withoutBody, isNamed_of_name h, decide_eq_false hcode]
  rfl

/-! ## Telling attributes apart -/

/-- Telling an attribute apart looks into it only when it is no body, so erasing comes to the same
before and after, also where the attribute is refused. -/
theorem add_withoutBody : (parts.withoutBody pool).add pool (a.withoutBody pool) =
    MethodParts.withoutBody pool <$> parts.add pool a := by
  unfold MethodParts.add
  rw [withoutBody_name]
  cases hname : a.name pool with
  | error e => rfl
  | ok text =>
    have hpure : resolve (.ok text) = (pure text : Except ReadError String) := rfl
    rw [hpure, pure_bind, pure_bind]
    by_cases hcode : text = AttributeName.code.text
    · -- a second body is refused for being there, not for what is in it
      have hseen : (parts.withoutBody pool).code.isSome = parts.code.isSome := Option.isSome_map
      rw [if_pos hcode, if_pos hcode, map_bind, hseen]
      rfl
    · rw [if_neg hcode, if_neg hcode, withoutBody_of_name hname hcode]
      split
      · simp only [map_bind, map_pure]
        rfl
      · split
        · simp only [map_bind, map_pure]
          rfl
        · rfl

/-- So telling the attributes of a method apart finds the same parts but for the body. -/
theorem parts_withoutBody (m : Member) :
    (m.withoutBody pool).parts pool = MethodParts.withoutBody pool <$> m.parts pool := by
  have hfold : ∀ (attributes : List Attribute) (parts : MethodParts),
      (attributes.map (Attribute.withoutBody pool)).foldlM (MethodParts.add pool)
          (parts.withoutBody pool) =
        MethodParts.withoutBody pool <$> attributes.foldlM (MethodParts.add pool) parts := by
    intro attributes
    induction attributes with
    | nil => exact fun parts => rfl
    | cons a attributes ih =>
      intro parts
      rw [List.map_cons, List.foldlM_cons, List.foldlM_cons, add_withoutBody, map_bind,
        bind_map_left]
      exact bind_congr fun later => ih later
  have h := hfold m.attributes.toList {}
  rw [← Array.toList_map] at h
  exact h

/-! ## Telling a class file -/

section

variable {σ : Type} {sink : ClassSink σ}

/-- The declaration of a method says nothing of its body. -/
theorem methodDecl_withoutBody (m : Member) :
    cf.withoutBodies.methodDecl (m.withoutBody cf.pool) (parts.withoutBody cf.pool) =
      cf.methodDecl m parts := rfl

/-- A sink that is not told bodies is told the same of a method without its body. -/
theorem replayMethod_withoutBody (m : Member) :
    cf.withoutBodies.replayMethod true sink (m.withoutBody cf.pool) =
      cf.replayMethod true sink m := by
  unfold ClassFile.replayMethod
  have hread : (reading ((m.withoutBody cf.pool).parts cf.pool) : SinkM σ MethodParts) =
      MethodParts.withoutBody cf.pool <$> reading (m.parts cf.pool) := by
    rw [parts_withoutBody]
    cases m.parts cf.pool <;> rfl
  change (reading ((m.withoutBody cf.pool).parts cf.pool) >>= _) = _
  rw [hread, bind_map_left]
  refine bind_congr fun parts => ?_
  rw [methodDecl_withoutBody]
  -- the parts reach the sink without their body
  simp only [replayParts_skipping]
  rfl

/-- A class file is told alike with its bodies and with nothing in them, when bodies are left
out. -/
theorem replay_withoutBodies : cf.withoutBodies.replay true sink = cf.replay true sink := by
  have hmethods : forM cf.withoutBodies.methods.toList (cf.withoutBodies.replayMethod true sink) =
      forM cf.methods.toList (cf.replayMethod true sink) := by
    rw [ClassFile.withoutBodies, Array.toList_map]
    induction cf.methods.toList with
    | nil => rfl
    | cons m methods ih =>
      rw [List.map_cons, List.forM_cons, List.forM_cons, ih]
      exact congrArg (· >>= _) (replayMethod_withoutBody m)
  unfold ClassFile.replay
  rw [hmethods]
  rfl

end

/-! ## The stub -/

/-- Stubbing does not look at bodies. -/
theorem stubbedClass_withoutBodies (exceptionClass : String) :
    stubbedClass exceptionClass cf.withoutBodies = stubbedClass exceptionClass cf := by
  unfold stubbedClass assembleStub
  rw [replay_withoutBodies]
  rfl

/-- The check does not look at the bodies either, since it looks at what has been stubbed. -/
theorem checkedStub_withoutBodies (config : Config) (cf : ClassFile) :
    checkedStub config cf.withoutBodies = checkedStub config cf := by
  unfold checkedStub
  rw [stubbedClass_withoutBodies]

/-- A class that is read is stubbed as it was read. -/
theorem stubClass_of_decode {config : Config} {bytes : Bytes}
    (h : ClassFile.decode bytes = .ok cf) :
    stubClass config bytes = ClassFile.encode <$> checkedStub config cf := by
  unfold stubClass
  rw [h]
  rfl

/-- Two classes that are read as class files with the same erasure have the same stub, or are
refused for the same reason. -/
theorem stubClass_eq_of_withoutBodies {config : Config} {bytes bytes' : Bytes} {cf' : ClassFile}
    (h : ClassFile.decode bytes = .ok cf) (h' : ClassFile.decode bytes' = .ok cf')
    (hsame : cf.withoutBodies = cf'.withoutBodies) :
    stubClass config bytes = stubClass config bytes' := by
  rw [stubClass_of_decode h, stubClass_of_decode h', ← checkedStub_withoutBodies,
    ← checkedStub_withoutBodies _ cf', hsame]

/-- The small class, its constructor and its abstract method having bodies with this payload. -/
def embodiedClass (info : Bytes) : ClassFile :=
  { exampleClass with
    pool := ⟨exampleClass.pool.constants.push (.utf8 "Code")⟩
    methods :=
      #[⟨0x0001, 3, 4, #[⟨7, encodeExceptions #[2]⟩, ⟨8, info⟩]⟩, ⟨0x0401, 5, 4, #[⟨8, info⟩]⟩] }

/-- A payload that holds a body, and one that holds nothing at all. -/
theorem stubClass_eq_of_withoutBodies_embodied :
    ClassFile.decode (embodiedClass (Code.encode ⟨1, 1, [177], #[], #[]⟩)).encode =
        .ok (embodiedClass (Code.encode ⟨1, 1, [177], #[], #[]⟩)) ∧
      ClassFile.decode (embodiedClass []).encode = .ok (embodiedClass []) ∧
      (embodiedClass (Code.encode ⟨1, 1, [177], #[], #[]⟩)).withoutBodies =
        (embodiedClass []).withoutBodies ∧
      stubClass {} (embodiedClass (Code.encode ⟨1, 1, [177], #[], #[]⟩)).encode =
        stubClass {} (embodiedClass []).encode := by
  have hread : ClassFile.decode (embodiedClass (Code.encode ⟨1, 1, [177], #[], #[]⟩)).encode =
      .ok (embodiedClass (Code.encode ⟨1, 1, [177], #[], #[]⟩)) := by decide +kernel
  have hread' : ClassFile.decode (embodiedClass []).encode = .ok (embodiedClass []) := by
    decide +kernel
  have hsame : (embodiedClass (Code.encode ⟨1, 1, [177], #[], #[]⟩)).withoutBodies =
      (embodiedClass []).withoutBodies := by decide +kernel
  exact ⟨hread, hread', hsame, stubClass_eq_of_withoutBodies hread hread' hsame⟩

end JvmStub
