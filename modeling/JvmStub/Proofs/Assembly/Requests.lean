/-
`Requests.lean` -- what events ask of the pool.

An event that carries names asks the pool for their slots and then changes the
class file. The two halves are told apart here: a field, the declaration of a
method and an instruction are each one request, whose answer is the piece that is
put in place. What a piece says is then a statement about its request alone,
`Declares` for a method and `SpelledBy` for an instruction, and both last while
the pool grows.
-/
import JvmStub.Proofs.Assembly.Methods
import JvmStub.Proofs.Pool.Hints

set_option autoImplicit false

namespace JvmStub

open ConstantPool PoolM

variable {texts : String → Prop} {pool later : ConstantPool}

/-! ## Growing a class under construction -/

namespace ClassAssembly

variable {a a' : ClassAssembly}

/-- A request that is granted changes nothing but the pool. -/
theorem growing_eq_ok {α : Type} {request : PoolM α} {x : α} :
    growing request a = (.ok x, a') ↔
      ∃ pool, request a.classFile.pool = (.ok x, pool) ∧ a' = a.withPool pool := by
  constructor
  · intro h
    cases hrun : request a.classFile.pool with
    | mk result pool =>
      cases result with
      | error e =>
        rw [growing_of_error hrun] at h
        cases h
      | ok y =>
        rw [growing_of_ok hrun] at h
        cases h
        exact ⟨pool, rfl, rfl⟩
  · rintro ⟨pool, hrequest, rfl⟩
    exact growing_of_ok hrequest

/-- A request that is refused may have grown the pool, and its error is that of the pool. -/
theorem growing_eq_error {α : Type} {request : PoolM α} {error : Error}
    (h : growing request a = (.error error, a')) :
    ∃ e pool, request a.classFile.pool = (.error e, pool) ∧ error = .write (.pool e) ∧
      a' = a.withPool pool := by
  cases hrun : request a.classFile.pool with
  | mk result pool =>
    cases result with
    | error e =>
      rw [growing_of_error hrun] at h
      cases h
      exact ⟨e, pool, rfl, rfl, rfl⟩
    | ok x =>
      rw [growing_of_ok hrun] at h
      cases h

/-- Two requests in a row are one. -/
theorem growing_seq {α β : Type} (x : PoolM α) (f : α → PoolM β) :
    growing (x >>= f) = growing x >>= fun y => growing (f y) := by
  funext a
  cases hrun : x a.classFile.pool with
  | mk result pool =>
    cases result with
    | error e => rw [growing_of_error (bind_of_error hrun), bind_of_error (growing_of_error hrun)]
    | ok y =>
      rw [bind_of_ok (growing_of_ok hrun)]
      unfold growing
      rw [bind_of_ok hrun]
      rfl

theorem growing_pure {α : Type} (x : α) : growing (pure x) = pure x := rfl

end ClassAssembly

/-! ## Fields -/

/-- What a field asks of the pool, and the field that it comes to. -/
def fieldRequest (d : FieldDecl) : PoolM Member := do
  let nameSlot ← utf8At (d.slots.map (·.name)) d.name
  let descriptorSlot ← utf8At (d.slots.map (·.descriptor)) d.descriptor
  return ⟨d.access, nameSlot, descriptorSlot, d.attributes⟩

/-- A field makes one request, behind both checks and in front of the change to the class. -/
theorem ClassAssembly.field_eq (d : FieldDecl) : field d = (do
    checkOpen .field
    checkCount .fields ((← get).classFile.fields.size + 1)
    let f ← growing (fieldRequest d)
    update fun cf => { cf with fields := cf.fields.push f }) := by
  unfold field fieldRequest
  simp only [growing_seq, growing_pure, bind_assoc, pure_bind]

/-- The request of a field adds its name and its type at most. -/
theorem grown_fieldRequest {d : FieldDecl} (hn : pool.Numbered) (hname : texts d.name)
    (hdescriptor : texts d.descriptor) : Grown texts pool (fieldRequest d pool).2 :=
  grown_bind hn (grown_utf8At hname) fun _ _ _ hmid =>
    grown_bind hmid (grown_utf8At hdescriptor) fun _ later _ _ => Grown.refl texts later

/-! ## Methods -/

/-- What declared exceptions ask of the pool, and the attributes that they come to. -/
def exceptionsRequest (hints : List Slot) (classes : List String) : PoolM (Array Attribute) := do
  if classes.isEmpty then return #[]
  let slots ← classesAt hints classes
  let nameSlot ← addUtf8 AttributeName.exceptions.text
  return #[⟨nameSlot, encodeExceptions slots⟩]

/-- What a generic signature asks of the pool, and the attributes that it comes to. -/
def signatureRequest (hint : Option Slot) : Option String → PoolM (Array Attribute)
  | none => return #[]
  | some text => do
    let slot ← utf8At hint text
    let nameSlot ← addUtf8 AttributeName.signature.text
    return #[⟨nameSlot, encodeSignature slot⟩]

/-- What the declaration of a method asks of the pool, and the method that it opens. -/
def declareRequest (decl : MethodDecl) : PoolM MethodAssembly := do
  let nameSlot ← utf8At (decl.slots.map (·.name)) decl.name
  let descriptorSlot ← utf8At (decl.slots.map (·.descriptor)) decl.descriptor
  let exceptions ← exceptionsRequest ((decl.slots.map (·.exceptions)).getD []) decl.exceptions
  let signature ← signatureRequest (decl.slots.bind (·.signature)) decl.signature
  return { access := decl.access, name := decl.name, nameSlot, descriptorSlot,
           leading := exceptions ++ signature, forwarded := #[], body := .absent, ended := false }

namespace MethodAssembly

open ClassAssembly

/-- The attribute of declared exceptions is what one request comes to. -/
theorem exceptionsAttribute_eq (hints : List Slot) (classes : List String) :
    exceptionsAttribute hints classes =
      ClassAssembly.growing (exceptionsRequest hints classes) := by
  unfold exceptionsAttribute exceptionsRequest
  by_cases hempty : classes.isEmpty = true
  · rw [if_pos hempty, if_pos hempty]
    rfl
  · simp only [if_neg hempty, growing_seq]
    rfl

theorem signatureAttribute_eq (hint : Option Slot) (signature : Option String) :
    signatureAttribute hint signature =
      ClassAssembly.growing (signatureRequest hint signature) := by
  cases signature with
  | none => rfl
  | some text =>
    simp only [signatureRequest, growing_seq]
    rfl

/-- The declaration of a method makes one request, behind both checks. It changes no table. -/
theorem begin_eq (decl : MethodDecl) : begin decl = (do
    ClassAssembly.checkOpen .method
    checkCount .methods ((← get).classFile.methods.size + 1)
    ClassAssembly.growing (declareRequest decl)) := by
  unfold begin declareRequest
  simp only [exceptionsAttribute_eq, signatureAttribute_eq, growing_seq]
  rfl

end MethodAssembly

/-! ## What a declaration is put down as

Two attributes may stand for it. Each of the three statements below is about all
attributes of one kind: there is one of them, or none. -/

/-- The attributes hold the body, if there is one. -/
def HoldsBody (pool : ConstantPool) (code : Option Code) (attributes : List Attribute) : Prop :=
  List.Forall₂ (fun a code => a.isNamed pool .code = true ∧ a.info = Code.encode code) attributes
    code.toList

/-- The slots hold the classes, in their order. -/
def HoldsClasses (pool : ConstantPool) (slots : Array Slot) (classes : List String) : Prop :=
  List.Forall₂ (fun slot name => pool.className slot = .ok name) slots.toList classes

/-- The attributes list the declared exceptions. Nothing stands for an empty list. -/
def HoldsExceptions (pool : ConstantPool) (classes : List String) (attributes : List Attribute) :
    Prop :=
  List.Forall₂ (fun a classes => a.isNamed pool .exceptions = true ∧
      ∃ slots, a.info = encodeExceptions slots ∧ HoldsClasses pool slots classes)
    attributes (if classes.isEmpty then [] else [classes])

/-- The attributes name the generic signature, if there is one. -/
def HoldsSignature (pool : ConstantPool) (signature : Option String)
    (attributes : List Attribute) : Prop :=
  List.Forall₂ (fun a text => a.isNamed pool .signature = true ∧
      ∃ slot, IsSignature pool a (text, slot)) attributes signature.toList

theorem isNamed_mono {a : Attribute} {name : AttributeName} (hg : pool.GrowsInto later)
    (h : a.isNamed pool name = true) : a.isNamed later name = true :=
  isNamed_iff.mpr (hg.utf8 (isNamed_iff.mp h))

theorem HoldsClasses.mono {slots : Array Slot} {classes : List String}
    (h : HoldsClasses pool slots classes) (hg : pool.GrowsInto later) :
    HoldsClasses later slots classes :=
  h.imp fun _ _ hslot => hg.className hslot

theorem HoldsBody.mono {code : Option Code} {attributes : List Attribute}
    (h : HoldsBody pool code attributes) (hg : pool.GrowsInto later) :
    HoldsBody later code attributes :=
  h.imp fun _ _ ⟨hnamed, hinfo⟩ => ⟨isNamed_mono hg hnamed, hinfo⟩

theorem HoldsExceptions.mono {classes : List String} {attributes : List Attribute}
    (h : HoldsExceptions pool classes attributes) (hg : pool.GrowsInto later) :
    HoldsExceptions later classes attributes :=
  h.imp fun _ _ ⟨hnamed, slots, hinfo, hslots⟩ =>
    ⟨isNamed_mono hg hnamed, slots, hinfo, hslots.mono hg⟩

theorem HoldsSignature.mono {signature : Option String} {attributes : List Attribute}
    (h : HoldsSignature pool signature attributes) (hg : pool.GrowsInto later) :
    HoldsSignature later signature attributes :=
  h.imp fun _ _ ⟨hnamed, slot, hinfo, htext⟩ =>
    ⟨isNamed_mono hg hnamed, slot, hinfo, hg.utf8 htext⟩

/-- The name that an attribute is given leads to the name that was asked for. -/
theorem isNamed_of_addUtf8 {name : AttributeName} {slot : Slot} {info : Bytes}
    (hn : later.Numbered) (h : addUtf8 name.text pool = (.ok slot, later)) :
    Attribute.isNamed later name ⟨slot, info⟩ = true :=
  isNamed_iff.mpr (utf8_of_addUtf8 hn h)

section

variable {attributes : Array Attribute} {classes : List String} {hints : List Slot}
  {hint : Option Slot} {signature : Option String}

/-- Declared exceptions add their classes, and the name of the attribute. -/
theorem grown_exceptionsRequest (hn : pool.Numbered) (hclasses : ∀ c ∈ classes, texts c)
    (hname : texts AttributeName.exceptions.text) :
    Grown texts pool (exceptionsRequest hints classes pool).2 := by
  unfold exceptionsRequest
  split
  · exact Grown.refl texts pool
  · refine grown_bind hn (grown_classesAt hn hclasses hints) fun slots mid _ hmid => ?_
    exact grown_bind hmid (grown_addUtf8 hname) fun _ later _ _ => Grown.refl texts later

/-- The attributes that come of the declared exceptions list them, whether the slots were known or
not. -/
theorem holdsExceptions_of_request (hn : pool.Numbered)
    (h : exceptionsRequest hints classes pool = (.ok attributes, later)) :
    HoldsExceptions later classes attributes.toList := by
  unfold exceptionsRequest at h
  unfold HoldsExceptions
  by_cases hempty : classes.isEmpty = true
  · rw [if_pos hempty] at h ⊢
    cases h
    exact .nil
  · rw [if_neg hempty] at h ⊢
    obtain ⟨slots, mid, hslots, h⟩ := bind_eq_ok.mp h
    obtain ⟨nameSlot, last, hname, h⟩ := bind_eq_ok.mp h
    cases h
    have hgrown : Grown (fun _ => True) pool mid :=
      grown_of_run hslots (grown_classesAt hn (fun _ _ => trivial) hints)
    have hgrown' : Grown (fun _ => True) mid later := grown_of_run hname (grown_addUtf8 trivial)
    have hlater := hgrown'.numbered (hgrown.numbered hn)
    -- the classes were given their slots before the name was
    have hclasses : HoldsClasses mid slots classes := classNames_of_classesAt hn hslots
    exact .cons ⟨isNamed_of_addUtf8 hlater hname, slots, rfl, hclasses.mono hgrown'.growsInto⟩ .nil

/-- A generic signature adds its text, and the name of the attribute. -/
theorem grown_signatureRequest (hn : pool.Numbered) (hsignature : ∀ t ∈ signature, texts t)
    (hname : texts AttributeName.signature.text) :
    Grown texts pool (signatureRequest hint signature pool).2 := by
  cases signature with
  | none => exact Grown.refl texts pool
  | some text =>
    refine grown_bind hn (grown_utf8At (hsignature text rfl)) fun slot mid _ hmid => ?_
    exact grown_bind hmid (grown_addUtf8 hname) fun _ later _ _ => Grown.refl texts later

/-- The attributes that come of a generic signature name it, whether its slot was known or not. -/
theorem holdsSignature_of_request (hn : later.Numbered)
    (h : signatureRequest hint signature pool = (.ok attributes, later)) :
    HoldsSignature later signature attributes.toList := by
  cases signature with
  | none =>
    cases h
    exact .nil
  | some text =>
    obtain ⟨slot, mid, hslot, h⟩ := bind_eq_ok.mp h
    obtain ⟨nameSlot, last, hname, h⟩ := bind_eq_ok.mp h
    cases h
    have hgrow := (interns_addUtf8 _).growsInto hname
    have hmid : mid.Numbered := Nat.le_trans hgrow.size_le hn
    have htext := hgrow.utf8 (utf8_of_utf8At hmid hslot)
    exact .cons ⟨isNamed_of_addUtf8 hn hname, slot, rfl, htext⟩ .nil

end

/-- The method under construction says what the declaration says. -/
structure Declares (pool : ConstantPool) (decl : MethodDecl) (m : MethodAssembly) : Prop where
  access : m.access = decl.access
  name : pool.utf8 m.nameSlot = .ok decl.name
  descriptor : pool.utf8 m.descriptorSlot = .ok decl.descriptor
  leading : ∃ exceptions signature, m.leading.toList = exceptions ++ signature ∧
    HoldsExceptions pool decl.exceptions exceptions ∧ HoldsSignature pool decl.signature signature

/-- A declaration that a method says is said when the pool has grown. -/
theorem Declares.mono {decl : MethodDecl} {m : MethodAssembly} (h : Declares pool decl m)
    (hg : pool.GrowsInto later) : Declares later decl m := by
  obtain ⟨exceptions, signature, hleading, hexceptions, hsignature⟩ := h.leading
  exact ⟨h.access, hg.utf8 h.name, hg.utf8 h.descriptor, exceptions, signature, hleading,
    hexceptions.mono hg, hsignature.mono hg⟩

/-- The declaration of a method adds its texts at most, and the names of the two attributes. -/
theorem grown_declareRequest {decl : MethodDecl} (hn : pool.Numbered) (hname : texts decl.name)
    (hdescriptor : texts decl.descriptor) (hexceptions : ∀ c ∈ decl.exceptions, texts c)
    (hsignature : ∀ t ∈ decl.signature, texts t)
    (hnames : ∀ name : AttributeName, texts name.text) :
    Grown texts pool (declareRequest decl pool).2 := by
  refine grown_bind hn (grown_utf8At hname) fun _ p₁ _ h₁ => ?_
  refine grown_bind h₁ (grown_utf8At hdescriptor) fun _ p₂ _ h₂ => ?_
  refine grown_bind h₂ (grown_exceptionsRequest h₂ hexceptions (hnames _)) fun _ p₃ _ h₃ => ?_
  refine grown_bind h₃ (grown_signatureRequest h₃ hsignature (hnames _)) fun _ p₄ _ _ => ?_
  exact Grown.refl texts p₄

/-- What is put down for a declaration says what it said. -/
theorem declares_of_request {decl : MethodDecl} {m : MethodAssembly} (hn : pool.Numbered)
    (h : declareRequest decl pool = (.ok m, later)) : Declares later decl m := by
  obtain ⟨nameSlot, p₁, hname, h⟩ := bind_eq_ok.mp h
  obtain ⟨descriptorSlot, p₂, hdescriptor, h⟩ := bind_eq_ok.mp h
  obtain ⟨exceptions, p₃, hexceptions, h⟩ := bind_eq_ok.mp h
  obtain ⟨signature, p₄, hsignature, h⟩ := bind_eq_ok.mp h
  cases h
  have hg₁ : Grown (fun _ => True) pool p₁ := grown_of_run hname (grown_utf8At trivial)
  have h₁ := hg₁.numbered hn
  have hg₂ : Grown (fun _ => True) p₁ p₂ := grown_of_run hdescriptor (grown_utf8At trivial)
  have h₂ := hg₂.numbered h₁
  have hg₃ : Grown (fun _ => True) p₂ p₃ :=
    grown_of_run hexceptions (grown_exceptionsRequest h₂ (fun _ _ => trivial) trivial)
  have h₃ := hg₃.numbered h₂
  have hg₄ : Grown (fun _ => True) p₃ later :=
    grown_of_run hsignature (grown_signatureRequest h₃ (fun _ _ => trivial) trivial)
  have h₄ := hg₄.numbered h₃
  -- each part is still there when the later parts have grown the pool
  refine ⟨rfl, ?_, ?_, exceptions.toList, signature.toList, by simp, ?_, ?_⟩
  · exact (hg₂.trans (hg₃.trans hg₄)).growsInto.utf8 (utf8_of_utf8At h₁ hname)
  · exact (hg₃.trans hg₄).growsInto.utf8 (utf8_of_utf8At h₂ hdescriptor)
  · exact (holdsExceptions_of_request h₂ hexceptions).mono hg₄.growsInto
  · exact holdsSignature_of_request h₄ hsignature

end JvmStub
