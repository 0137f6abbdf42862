/-
`ClassRuns.lean` -- a class that is told event by event.

`Taken` is what a class under construction has accepted, read off the events and
their answers alone: the last header, unless it was refused, the fields, the
methods that were finished, and the attributes. The run lemma `holds_of_answers`
says that the class file is made of exactly this, whatever the events were and
whatever they were answered: every name can be found in the pool, every table has
the entries that were accepted and no more than are allowed, and the pool has
grown by the texts of the events only.
-/
import JvmStub.Proofs.Assembly.MethodRuns

set_option autoImplicit false

namespace JvmStub

open ConstantPool PoolM

/-- What a class under construction has accepted. -/
structure Taken where
  header : Option ClassHeader := none
  fields : List FieldDecl := []
  methods : List TakenMethod := []
  attributes : List Attribute := []
  deriving DecidableEq, Repr

/-- What has been accepted after one event more. A header that is refused may have been put in place
in part, so that no header is known. A method counts when its end was accepted. -/
def Taken.after (t : Taken) : ClassEvent → Answer → Taken
  | .header h, .piece (.ok ()) => { t with header := some h }
  | .header _, _ => { t with header := none }
  | .field d, .piece (.ok ()) => { t with fields := t.fields ++ [d] }
  | .method decl events, .method (.ok answers) =>
    let accepted := acceptedOf events answers.toList
    if .finish ∈ accepted then { t with methods := t.methods ++ [⟨decl, events, accepted⟩] } else t
  | .attribute a, .piece (.ok ()) => { t with attributes := t.attributes ++ [a] }
  | _, _ => t

/-- What has been accepted of the events, by their answers. -/
def taken (events : List ClassEvent) (answers : List Answer) : Taken :=
  (events.zip answers).foldl (fun t p => t.after p.1 p.2) {}

/-- The texts of an event. -/
def ClassEvent.texts : ClassEvent → List String
  | .header h => h.name :: (h.superName.toList ++ h.interfaces)
  | .field d => [d.name, d.descriptor]
  | .method decl events =>
    decl.name :: decl.descriptor :: (decl.exceptions ++ decl.signature.toList ++
      events.flatMap MethodEvent.texts)
  | .attribute _ | .finish => []

variable {texts : String → Prop} {pool later : ConstantPool} {a a' : ClassAssembly}

/-! ## What a class file holds -/

/-- The header of the class file is the one that was told. -/
structure HoldsHeader (cf : ClassFile) (h : ClassHeader) : Prop where
  minor : cf.minor = h.minor
  major : cf.major = h.major
  access : cf.access = h.access
  thisClass : cf.pool.className cf.thisClass = .ok h.name
  superClass : SuperNamed cf h.superName
  interfaces : HoldsClasses cf.pool cf.interfaces h.interfaces

/-- The field of a class file is the one that was told. -/
structure HoldsField (pool : ConstantPool) (f : Member) (d : FieldDecl) : Prop where
  access : f.access = d.access
  name : pool.utf8 f.nameSlot = .ok d.name
  descriptor : pool.utf8 f.descriptorSlot = .ok d.descriptor
  attributes : f.attributes = d.attributes

theorem HoldsField.mono {f : Member} {d : FieldDecl} (h : HoldsField pool f d)
    (hg : pool.GrowsInto later) : HoldsField later f d :=
  ⟨h.access, hg.utf8 h.name, hg.utf8 h.descriptor, h.attributes⟩

/-- A class under construction, started with the constants of a pool, holds what it accepted. -/
structure Holds (texts : String → Prop) (start : ConstantPool) (a : ClassAssembly) (t : Taken) :
    Prop where
  grown : Grown texts start a.classFile.pool
  magic : a.classFile.magic = classMagic
  header : ∀ h ∈ t.header, HoldsHeader a.classFile h ∧ a.headerSeen = true
  interfaceCount : a.classFile.interfaces.size ≤ maxCount
  fieldCount : a.classFile.fields.size ≤ maxCount
  methodCount : a.classFile.methods.size ≤ maxCount
  fields : List.Forall₂ (HoldsField a.classFile.pool) a.classFile.fields.toList t.fields
  methods : List.Forall₂ (HoldsMethod a.classFile.pool) a.classFile.methods.toList t.methods
  attributes : a.classFile.attributes.toList = t.attributes

/-- A header that is held is held when the pool has grown. -/
theorem HoldsHeader.withPool {h : ClassHeader} (hh : HoldsHeader a.classFile h)
    (hg : a.classFile.pool.GrowsInto pool) : HoldsHeader (a.withPool pool).classFile h := by
  refine ⟨hh.minor, hh.major, hh.access, hg.className hh.thisClass, ?_, hh.interfaces.mono hg⟩
  have hsuper := hh.superClass
  unfold SuperNamed at hsuper ⊢
  cases hname : h.superName with
  | none =>
    simp only [hname] at hsuper
    exact hsuper
  | some name =>
    simp only [hname] at hsuper
    exact ⟨hsuper.1, hg.className hsuper.2⟩

/-- What was accepted stays when the pool grows. -/
theorem Holds.withPool {start : ConstantPool} {t : Taken} (h : Holds texts start a t)
    (hgrown : Grown texts a.classFile.pool pool) : Holds texts start (a.withPool pool) t where
  grown := h.grown.trans hgrown
  magic := h.magic
  header := fun hd hhd => ⟨(h.header hd hhd).1.withPool hgrown.growsInto, (h.header hd hhd).2⟩
  interfaceCount := h.interfaceCount
  fieldCount := h.fieldCount
  methodCount := h.methodCount
  fields := h.fields.imp fun _ _ hf => hf.mono hgrown.growsInto
  methods := h.methods.imp fun _ _ hm => hm.mono hgrown.growsInto
  attributes := h.attributes

namespace ClassAssembly

/-! ## Fields and declarations -/

/-- A request that is made only where events are taken and the table has room for one entry more. -/
def guarded {α : Type} (event : EventName) (table : TableName) (entries : ClassFile → Nat)
    (request : PoolM α) : SinkM ClassAssembly α := do
  checkOpen event
  checkCount table (entries (← get).classFile + 1)
  growing request

/-- Asking whether a class may still be told something changes nothing, whatever the answer. -/
theorem checkOpen_cases (event : EventName) (a : ClassAssembly) :
    checkOpen event a = (.ok (), a) ∨ ∃ error, checkOpen event a = (.error error, a) := by
  unfold checkOpen
  rw [bind_of_ok (get_run a)]
  cases a.ended
  · cases a.headerSeen
    · exact .inr ⟨_, rfl⟩
    · exact .inl rfl
  · exact .inr ⟨_, rfl⟩

/-- A table that fits its count passes, and another one is refused; the state stays in both cases.
-/
theorem checkCount_cases {σ : Type} (table : TableName) (count : Nat) (s : σ) :
    checkCount table count s = (.ok (), s) ∧ count ≤ maxCount ∨
      ∃ error, checkCount table count s = (.error error, s) := by
  by_cases hcount : count ≤ maxCount
  · exact .inl ⟨checkCount_of_le hcount s, hcount⟩
  · refine .inr ⟨.write (.tooMany table count), ?_⟩
    unfold checkCount
    rw [if_pos (Nat.lt_of_not_le hcount)]
    rfl

theorem checkCount_eq_ok {σ : Type} {table : TableName} {count : Nat} {s s' : σ} :
    checkCount table count s = (.ok (), s') ↔ count ≤ maxCount ∧ s' = s := by
  by_cases hcount : count ≤ maxCount
  · rw [checkCount_of_le hcount]
    constructor
    · intro h
      cases h
      exact ⟨hcount, rfl⟩
    · rintro ⟨-, rfl⟩
      rfl
  · unfold checkCount
    rw [if_pos (Nat.lt_of_not_le hcount)]
    constructor
    · intro h
      cases h
    · rintro ⟨hle, -⟩
      exact absurd hle hcount

/-- Such a request is refused and has grown the pool at most, or it is granted and there is room. -/
theorem guarded_cases {α : Type} (event : EventName) (table : TableName)
    (entries : ClassFile → Nat) {request : PoolM α}
    (hgrown : Grown texts a.classFile.pool (request a.classFile.pool).2) :
    (∃ error pool, Grown texts a.classFile.pool pool ∧
      guarded event table entries request a = (.error error, a.withPool pool)) ∨
    (∃ x pool, Grown texts a.classFile.pool pool ∧
      request a.classFile.pool = (.ok x, pool) ∧ entries a.classFile < maxCount ∧
        guarded event table entries request a = (.ok x, a.withPool pool)) := by
  unfold guarded
  obtain hopen | ⟨error, herror⟩ := checkOpen_cases event a
  · rw [bind_of_ok hopen, bind_of_ok (get_run a)]
    obtain ⟨hcount, hle⟩ | ⟨error, herror⟩ := checkCount_cases table (entries a.classFile + 1) a
    · rw [bind_of_ok hcount]
      cases hrequest : request a.classFile.pool with
      | mk result pool =>
        rw [hrequest] at hgrown
        cases result with
        | error e => exact .inl ⟨_, pool, hgrown, growing_of_error hrequest⟩
        | ok x => exact .inr ⟨x, pool, hgrown, rfl, hle, growing_of_ok hrequest⟩
    · exact .inl ⟨error, _, Grown.refl _ _, bind_of_error herror⟩
  · exact .inl ⟨error, _, Grown.refl _ _, bind_of_error herror⟩

/-- A field is a request behind the two checks, and then an entry of its table. -/
theorem field_guarded (d : FieldDecl) : field d =
    guarded .field .fields (·.fields.size) (fieldRequest d) >>= fun f =>
      update fun cf => { cf with fields := cf.fields.push f } := by
  simp only [field_eq, guarded, bind_assoc]

/-- The declaration of a method is a request behind the same checks. Its entry comes with the end of
the method. -/
theorem begin_guarded (decl : MethodDecl) : MethodAssembly.begin decl =
    guarded .method .methods (·.methods.size) (declareRequest decl) :=
  MethodAssembly.begin_eq decl

/-! ## Headers -/

/-- What a header leaves of a class whatever it is answered. -/
structure HeaderFrame (texts : String → Prop) (a a' : ClassAssembly) : Prop where
  grown : Grown texts a.classFile.pool a'.classFile.pool
  magic : a'.classFile.magic = a.classFile.magic
  fields : a'.classFile.fields = a.classFile.fields
  methods : a'.classFile.methods = a.classFile.methods
  attributes : a'.classFile.attributes = a.classFile.attributes
  interfaces : a.classFile.interfaces.size ≤ maxCount → a'.classFile.interfaces.size ≤ maxCount

theorem HeaderFrame.refl (texts : String → Prop) (a : ClassAssembly) : HeaderFrame texts a a :=
  ⟨Grown.refl _ _, rfl, rfl, rfl, rfl, id⟩

theorem HeaderFrame.trans {a'' : ClassAssembly} (h : HeaderFrame texts a a')
    (h' : HeaderFrame texts a' a'') : HeaderFrame texts a a'' :=
  ⟨h.grown.trans h'.grown, h'.magic.trans h.magic, h'.fields.trans h.fields,
    h'.methods.trans h.methods, h'.attributes.trans h.attributes, h'.interfaces ∘ h.interfaces⟩

/-- A header is told in steps, and if each of them changes nothing but the header then the whole
does not, wherever it stops. -/
theorem HeaderFrame.bind {α β : Type} {x : SinkM ClassAssembly α}
    {f : α → SinkM ClassAssembly β} (hx : HeaderFrame texts a (x a).2)
    (hf : ∀ y a', x a = (.ok y, a') → HeaderFrame texts a a' → HeaderFrame texts a' (f y a').2) :
    HeaderFrame texts a ((x >>= f) a).2 := by
  refine bind_state (fun h h' => h.trans h') hx fun y a' hrun => hf y a' hrun ?_
  rwa [hrun] at hx

/-- A request grows the pool and leaves the rest of the class. -/
theorem headerFrame_growing {α : Type} {request : PoolM α}
    (h : Grown texts a.classFile.pool (request a.classFile.pool).2) :
    HeaderFrame texts a (growing request a).2 :=
  ⟨h, rfl, rfl, rfl, rfl, id⟩

/-- What a superclass asks of the pool; there may be none. -/
def superRequest (hint : Option Slot) : Option String → PoolM Slot
  | none => return 0
  | some name => classAt hint name

/-- The part of a header that comes before its interfaces. -/
def headerFront (h : ClassHeader) : SinkM ClassAssembly Unit := do
  update fun cf => { cf with minor := h.minor, major := h.major, access := h.access }
  let thisClass ← growing (classAt (h.slots.map (·.thisClass)) h.name)
  update fun cf => { cf with thisClass }
  let superClass ← growing (superRequest (h.slots.map (·.superClass)) h.superName)
  update fun cf => { cf with superClass }

/-- The part of a header that is about its interfaces. -/
def headerBack (h : ClassHeader) : SinkM ClassAssembly Unit := do
  checkCount .interfaces h.interfaces.length
  let interfaces ← growing (classesAt ((h.slots.map (·.interfaces)).getD []) h.interfaces)
  update fun cf => { cf with interfaces }
  modify fun a => { a with headerSeen := true }

/-- A header that comes after the end is refused, and the class stays as it is. -/
theorem header_of_ended (hended : a.ended = true) (h : ClassHeader) :
    header h a = (.error (.write (.afterEnd .header h.name)), a) := by
  unfold header
  rw [bind_of_ok (get_run a)]
  simp only [hended, if_true]
  rfl

/-- A header that comes before the end is told in two parts. -/
theorem header_of_open (hended : a.ended = false) (h : ClassHeader) :
    header h a = (headerFront h >>= fun _ => headerBack h) a := by
  unfold header headerFront headerBack
  rw [bind_of_ok (get_run a)]
  simp only [hended, Bool.false_eq_true, if_false, bind_assoc]
  cases h.superName with
  | none => rfl
  | some name => rfl

/-- A request for a superclass adds only harmless constants, and nothing where there is none. -/
theorem grown_superRequest {hint : Option Slot} {superName : Option String} (hn : pool.Numbered)
    (ht : ∀ t ∈ superName, texts t) : Grown texts pool (superRequest hint superName pool).2 := by
  cases superName with
  | none => exact Grown.refl _ _
  | some name => exact grown_classAt hn (ht name rfl)

/-- A change of the header's own fields, the interfaces apart. -/
theorem headerFrame_front (hn : a.classFile.pool.Numbered) {h : ClassHeader}
    (ht : ∀ t ∈ ClassEvent.texts (.header h), texts t) :
    HeaderFrame texts a (headerFront h a).2 := by
  have hthis : texts h.name := ht h.name (by simp [ClassEvent.texts])
  have hsuper : ∀ t ∈ h.superName, texts t := fun t htext =>
    ht t (by simp [ClassEvent.texts, Option.mem_def.mp htext])
  unfold headerFront
  -- the changes between the requests touch nothing that the frame is about
  refine HeaderFrame.bind ⟨Grown.refl _ _, rfl, rfl, rfl, rfl, id⟩ fun _ a₁ _ hf₁ => ?_
  have hn₁ := hf₁.grown.numbered hn
  refine HeaderFrame.bind (headerFrame_growing (grown_classAt hn₁ hthis)) fun _ a₂ _ hf₂ => ?_
  refine HeaderFrame.bind ⟨Grown.refl _ _, rfl, rfl, rfl, rfl, id⟩ fun _ a₃ _ hf₃ => ?_
  have hn₃ := hf₃.grown.numbered (hf₂.grown.numbered hn₁)
  exact HeaderFrame.bind (headerFrame_growing (grown_superRequest hn₃ hsuper)) fun _ a₄ _ _ =>
    ⟨Grown.refl _ _, rfl, rfl, rfl, rfl, id⟩

/-- The part of a header behind its name changes nothing but the header. -/
theorem headerFrame_back (hn : a.classFile.pool.Numbered) {h : ClassHeader}
    (ht : ∀ t ∈ ClassEvent.texts (.header h), texts t) :
    HeaderFrame texts a (headerBack h a).2 := by
  have hinterfaces : ∀ t ∈ h.interfaces, texts t := fun t htext =>
    ht t (by simp [ClassEvent.texts, htext])
  unfold headerBack
  obtain ⟨hcount, hle⟩ | ⟨error, herror⟩ := checkCount_cases .interfaces h.interfaces.length a
  · rw [bind_of_ok hcount]
    refine HeaderFrame.bind (headerFrame_growing (grown_classesAt hn hinterfaces _))
      fun interfaces a' hslots hf => ?_
    -- as many slots as there are names, and these were counted
    obtain ⟨pool, hrequest, -⟩ := growing_eq_ok.mp hslots
    have hsize : interfaces.size ≤ maxCount := by
      rw [size_of_classesAt hrequest]
      exact hle
    exact ⟨Grown.refl _ _, rfl, rfl, rfl, rfl, fun _ => hsize⟩
  · rw [bind_of_error herror]
    exact HeaderFrame.refl texts a

/-- A header changes nothing but the header, accepted or refused. -/
theorem headerFrame_header (hn : a.classFile.pool.Numbered) {h : ClassHeader}
    (ht : ∀ t ∈ ClassEvent.texts (.header h), texts t) :
    HeaderFrame texts a (header h a).2 := by
  cases hended : a.ended with
  | true =>
    rw [header_of_ended hended]
    exact HeaderFrame.refl texts a
  | false =>
    rw [header_of_open hended]
    exact HeaderFrame.bind (headerFrame_front hn ht) fun _ a' _ hf =>
      headerFrame_back (hf.grown.numbered hn) ht

/-- What was asked for a superclass leads to it. -/
theorem superNamed_of_request {cf : ClassFile} {hint : Option Slot} {superName : Option String}
    {slot : Slot} (hn : later.Numbered) (hg : later.GrowsInto cf.pool) (hslot : cf.superClass = slot)
    (h : superRequest hint superName pool = (.ok slot, later)) : SuperNamed cf superName := by
  cases superName with
  | none =>
    cases h
    exact hslot
  | some name =>
    have hname := className_of_classAt hn h
    refine ⟨?_, by rw [hslot]; exact hg.className hname⟩
    rw [hslot]
    obtain ⟨n, hget, -⟩ := className_eq_ok.mp hname
    exact (get_eq_ok.mp hget).1

/-- A header that is accepted is the header of the class file. -/
theorem holdsHeader_of_ok (hn : a.classFile.pool.Numbered) {h : ClassHeader}
    (hok : header h a = (.ok (), a')) : HoldsHeader a'.classFile h ∧ a'.headerSeen = true := by
  cases hended : a.ended with
  | true =>
    rw [header_of_ended hended] at hok
    cases hok
  | false =>
    rw [header_of_open hended] at hok
    -- the three requests of an accepted header, each granted by the pool that the last has left
    obtain ⟨⟨⟩, a₅, hfront, hback⟩ := bind_eq_ok.mp hok
    obtain ⟨⟨⟩, a₁, h₁, hfront⟩ := bind_eq_ok.mp hfront
    cases h₁
    obtain ⟨thisClass, a₂, h₂, hfront⟩ := bind_eq_ok.mp hfront
    obtain ⟨p₁, hthis, rfl⟩ := growing_eq_ok.mp h₂
    obtain ⟨⟨⟩, a₃, h₃, hfront⟩ := bind_eq_ok.mp hfront
    cases h₃
    obtain ⟨superClass, a₄, h₄, hfront⟩ := bind_eq_ok.mp hfront
    obtain ⟨p₂, hsuper, rfl⟩ := growing_eq_ok.mp h₄
    cases hfront
    obtain ⟨⟨⟩, a₆, hcount, hback⟩ := bind_eq_ok.mp hback
    obtain ⟨-, rfl⟩ := checkCount_eq_ok.mp hcount
    obtain ⟨interfaces, a₇, h₇, hback⟩ := bind_eq_ok.mp hback
    obtain ⟨p₃, hinterfaces, rfl⟩ := growing_eq_ok.mp h₇
    obtain ⟨⟨⟩, a₈, h₈, hback⟩ := bind_eq_ok.mp hback
    cases h₈
    cases hback
    -- what the earlier requests were given still holds in the last pool
    have hg₁ : Grown (fun _ => True) _ p₁ := grown_of_run hthis (grown_classAt hn trivial)
    have hn₁ := hg₁.numbered hn
    have hg₂ : Grown (fun _ => True) p₁ p₂ :=
      grown_of_run hsuper (grown_superRequest hn₁ fun _ _ => trivial)
    have hn₂ := hg₂.numbered hn₁
    have hg₃ : Grown (fun _ => True) p₂ p₃ :=
      grown_of_run hinterfaces (grown_classesAt hn₂ (fun _ _ => trivial) _)
    refine ⟨⟨rfl, rfl, rfl, ?_, ?_, classNames_of_classesAt hn₂ hinterfaces⟩, rfl⟩
    · exact (hg₂.trans hg₃).growsInto.className (className_of_classAt hn₁ hthis)
    · exact superNamed_of_request hn₂ hg₃.growsInto rfl hsuper

end ClassAssembly

/-! ## One event -/

variable {start : ConstantPool} {t : Taken} {answer : Answer}

/-- A header leaves everything else as it was. -/
theorem Holds.reheaded (h : Holds texts start a t)
    (hframe : ClassAssembly.HeaderFrame texts a a') {header : Option ClassHeader}
    (hheader : ∀ hd ∈ header, HoldsHeader a'.classFile hd ∧ a'.headerSeen = true) :
    Holds texts start a' { t with header } where
  grown := h.grown.trans hframe.grown
  magic := hframe.magic.trans h.magic
  header := hheader
  interfaceCount := hframe.interfaces h.interfaceCount
  fieldCount := hframe.fields ▸ h.fieldCount
  methodCount := hframe.methods ▸ h.methodCount
  fields := by
    rw [hframe.fields]
    exact h.fields.imp fun _ _ hf => hf.mono hframe.grown.growsInto
  methods := by
    rw [hframe.methods]
    exact h.methods.imp fun _ _ hm => hm.mono hframe.grown.growsInto
  attributes := hframe.attributes ▸ h.attributes

/-- A field more. -/
theorem Holds.withField (h : Holds texts start a t) {f : Member} {d : FieldDecl}
    (hf : HoldsField a.classFile.pool f d) (hcount : a.classFile.fields.size < maxCount) :
    Holds texts start (a.withFields #[f]) { t with fields := t.fields ++ [d] } :=
  { h with
    fieldCount := by simpa [ClassAssembly.withFields] using Nat.succ_le_of_lt hcount
    header := fun hd hhd => ⟨{ (h.header hd hhd).1 with }, (h.header hd hhd).2⟩
    fields := by
      simpa [ClassAssembly.withFields] using List.rel_append h.fields (.cons hf .nil) }

/-- A method more. -/
theorem Holds.withMethod (h : Holds texts start a t) {m : Member} {taken : TakenMethod}
    (hm : HoldsMethod a.classFile.pool m taken) (hcount : a.classFile.methods.size < maxCount) :
    Holds texts start (a.withMethod m) { t with methods := t.methods ++ [taken] } :=
  { h with
    methodCount := by simpa [ClassAssembly.withMethod] using Nat.succ_le_of_lt hcount
    header := fun hd hhd => ⟨{ (h.header hd hhd).1 with }, (h.header hd hhd).2⟩
    methods := by
      simpa [ClassAssembly.withMethod] using List.rel_append h.methods (.cons hm .nil) }

/-- An attribute more. -/
theorem Holds.withAttribute (h : Holds texts start a t) (attr : Attribute) :
    Holds texts start (a.withAttributes #[attr])
      { t with attributes := t.attributes ++ [attr] } :=
  { h with
    header := fun hd hhd => ⟨{ (h.header hd hhd).1 with }, (h.header hd hhd).2⟩
    attributes := by simp [ClassAssembly.withAttributes, h.attributes] }

/-- What is put down for a field says what it said. -/
theorem holdsField_of_request {d : FieldDecl} {f : Member} (hn : pool.Numbered)
    (h : fieldRequest d pool = (.ok f, later)) : HoldsField later f d := by
  obtain ⟨nameSlot, p₁, hname, h⟩ := bind_eq_ok.mp h
  obtain ⟨descriptorSlot, p₂, hdescriptor, h⟩ := bind_eq_ok.mp h
  cases h
  have hg₁ : Grown (fun _ => True) pool p₁ := grown_of_run hname (grown_utf8At trivial)
  have hn₁ := hg₁.numbered hn
  have hg₂ : Grown (fun _ => True) p₁ later := grown_of_run hdescriptor (grown_utf8At trivial)
  exact ⟨rfl, hg₂.growsInto.utf8 (utf8_of_utf8At hn₁ hname),
    utf8_of_utf8At (hg₂.numbered hn₁) hdescriptor, rfl⟩

/-- A class that is told a field holds what it accepted: a refused field leaves constants at most.
-/
theorem Holds.step_field (h : Holds texts start a t) (hn : start.Numbered) {d : FieldDecl}
    (hd : ∀ t ∈ ClassEvent.texts (.field d), texts t) {result : Except Error Unit}
    (hrun : ClassAssembly.field d a = (result, a')) :
    Holds texts start a' (t.after (.field d) (.piece result)) := by
  have hnumbered := h.grown.numbered hn
  have hgrown := grown_fieldRequest hnumbered (hd d.name (by simp [ClassEvent.texts]))
    (hd d.descriptor (by simp [ClassEvent.texts]))
  rw [ClassAssembly.field_guarded] at hrun
  obtain ⟨error, pool, hpool, hguarded⟩ | ⟨f, pool, hpool, hrequest, hcount, hguarded⟩ :=
    ClassAssembly.guarded_cases .field .fields (·.fields.size) hgrown
  · rw [bind_of_error hguarded] at hrun
    cases hrun
    exact h.withPool hpool
  · rw [bind_of_ok hguarded, ClassAssembly.update_run] at hrun
    cases hrun
    have hstep := (h.withPool hpool).withField (holdsField_of_request hnumbered hrequest) hcount
    rwa [ClassAssembly.withFields, ← Array.push_eq_append] at hstep

/-- A method that is told to a class is refused before it is opened, or it was declared, while there
was room for one more, and then sent its events. -/
theorem method_cases {decl : MethodDecl} {sent : List MethodEvent}
    (hgrown : Grown texts a.classFile.pool (declareRequest decl a.classFile.pool).2)
    (hrun : ClassAssembly.sink.answer (.method decl sent) a = (answer, a')) :
    (∃ error pool, Grown texts a.classFile.pool pool ∧ answer = .method (.error error) ∧
      a' = a.withPool pool) ∨
    ∃ m m' pool answers, Grown texts a.classFile.pool pool ∧
      declareRequest decl a.classFile.pool = (.ok m, pool) ∧
      a.classFile.methods.size < maxCount ∧
      ClassAssembly.sink.method decl a = (.ok m, a.withPool pool) ∧
      ClassAssembly.sink.answersInMethod sent m (a.withPool pool) = (answers, (m', a')) ∧
      answer = .method (.ok answers) := by
  -- a declaration that is refused may have grown the pool; one that is accepted opens a method
  obtain ⟨error, pool, hpool, hbegin⟩ | ⟨m, pool, hpool, hrequest, hcount, hbegin⟩ :=
    ClassAssembly.guarded_cases .method .methods (·.methods.size) hgrown
  · have hmethod : ClassAssembly.sink.method decl a = (.error error, a.withPool pool) := by
      rwa [← ClassAssembly.begin_guarded] at hbegin
    cases (answer_of_method_error hmethod).symm.trans hrun
    exact .inl ⟨error, pool, hpool, rfl, rfl⟩
  · have hmethod : ClassAssembly.sink.method decl a = (.ok m, a.withPool pool) := by
      rwa [← ClassAssembly.begin_guarded] at hbegin
    cases hinside : ClassAssembly.sink.answersInMethod sent m (a.withPool pool) with
    | mk answers state =>
      cases (answer_of_method_ok hmethod hinside).symm.trans hrun
      exact .inr ⟨m, state.1, pool, answers, hpool, hrequest, hcount, hmethod, hinside, rfl⟩

/-- A class that is told a method with its events holds what it accepted. The method counts when its
end was accepted, and then it has become an entry. -/
theorem Holds.step_method (h : Holds texts start a t) (hn : start.Numbered)
    (hcode : ∀ name : AttributeName, texts name.text) {decl : MethodDecl}
    {events : List MethodEvent}
    (hd : ∀ t ∈ ClassEvent.texts (.method decl events), texts t)
    (hrun : ClassAssembly.sink.answer (.method decl events) a = (answer, a')) :
    Holds texts start a' (t.after (.method decl events) answer) := by
  have hnumbered := h.grown.numbered hn
  have hgrown : Grown texts a.classFile.pool (declareRequest decl a.classFile.pool).2 := by
    refine grown_declareRequest hnumbered (hd _ ?_) (hd _ ?_) (fun c hc => hd _ ?_)
      (fun s hs => hd _ ?_) hcode
    · simp [ClassEvent.texts]
    · simp [ClassEvent.texts]
    · simp [ClassEvent.texts, hc]
    · simp [ClassEvent.texts, Option.mem_def.mp hs]
  have hevents : ∀ e ∈ events, ∀ t ∈ e.texts, texts t := by
    intro e he s hs
    refine hd s ?_
    simp only [ClassEvent.texts, List.mem_cons, List.mem_append, List.mem_flatMap]
    exact .inr (.inr (.inr ⟨e, he, hs⟩))
  -- either the declaration is refused, or the events inside make of the method what they make of it
  obtain ⟨error, pool, hpool, rfl, rfl⟩ |
      ⟨m, m', pool, answers, hpool, hrequest, hcount, -, hinside, rfl⟩ := method_cases hgrown hrun
  · exact h.withPool hpool
  · have hfirst : (a.withPool pool).classFile.pool.Numbered := hpool.numbered hnumbered
    have htracks : Tracks (a.withPool pool).classFile.pool ⟨decl, [], []⟩ m :=
      tracks_of_request hnumbered hrequest
    cases inside_of_answers htracks hfirst (hcode .code) hevents hinside with
    | unfinished hgrown' hc hnot _ =>
      subst hc
      simp only [Taken.after, if_neg hnot]
      exact (h.withPool hpool).withPool hgrown'
    | finished hgrown' hc hmem _ _ hbody hhas htells =>
      subst hc
      simp only [Taken.after, if_pos hmem]
      rw [hbody] at htells
      exact ((h.withPool hpool).withPool hgrown').withMethod ⟨_, hhas, htells⟩ hcount

/-- A class that is told a header holds what it accepted. Of a refused header parts may be in place,
so that no header is known to be held. -/
theorem Holds.step_header (h : Holds texts start a t) (hn : start.Numbered) {hd : ClassHeader}
    (ht : ∀ t ∈ ClassEvent.texts (.header hd), texts t) {result : Except Error Unit}
    (hrun : ClassAssembly.header hd a = (result, a')) :
    Holds texts start a' (t.after (.header hd) (.piece result)) := by
  have hnumbered := h.grown.numbered hn
  have hframe := ClassAssembly.headerFrame_header hnumbered ht
  rw [hrun] at hframe
  cases result with
  | error e => exact h.reheaded hframe (by simp)
  | ok =>
    have hholds := ClassAssembly.holdsHeader_of_ok hnumbered hrun
    exact h.reheaded hframe fun hd' hmem => Option.some.inj hmem ▸ hholds

/-- A class that is told an attribute holds what it accepted. Nothing counts attributes, so they are
refused only when they come too early or too late. -/
theorem Holds.step_attribute (h : Holds texts start a t) {attr : Attribute}
    {result : Except Error Unit} (hrun : ClassAssembly.classAttribute attr a = (result, a')) :
    Holds texts start a' (t.after (.attribute attr) (.piece result)) := by
  unfold ClassAssembly.classAttribute at hrun
  obtain hopen | ⟨error, herror⟩ := ClassAssembly.checkOpen_cases .attribute a
  · rw [bind_of_ok hopen, ClassAssembly.update_run, Array.push_eq_append] at hrun
    cases hrun
    exact h.withAttribute attr
  · rw [bind_of_error herror] at hrun
    cases hrun
    exact h

/-- The end leaves the class file alone. -/
theorem finish_state (a : ClassAssembly) :
    (ClassAssembly.finish a).2.classFile = a.classFile ∧
      (ClassAssembly.finish a).2.headerSeen = a.headerSeen := by
  unfold ClassAssembly.finish
  rw [bind_of_ok (get_run a)]
  cases hended : a.ended with
  | true => exact ⟨rfl, rfl⟩
  | false =>
    simp only [Bool.false_eq_true, if_false]
    cases a.headerSeen <;> exact ⟨rfl, rfl⟩

/-- The end of a class changes nothing of what it holds. -/
theorem Holds.step_finish (h : Holds texts start a t) {result : Except Error Unit}
    (hrun : ClassAssembly.finish a = (result, a')) :
    Holds texts start a' (t.after .finish (.piece result)) := by
  have hafter : t.after .finish (.piece result) = t := by cases result <;> rfl
  obtain ⟨hfile, hseen⟩ := finish_state a
  rw [hrun] at hfile hseen
  obtain ⟨classFile, headerSeen, ended⟩ := a'
  cases hfile
  cases hseen
  rw [hafter]
  exact { h with }

/-- One event, whatever it is answered. -/
theorem Holds.step (h : Holds texts start a t) (hn : start.Numbered)
    (hcode : ∀ name : AttributeName, texts name.text) {e : ClassEvent}
    (he : ∀ t ∈ e.texts, texts t) (hrun : ClassAssembly.sink.answer e a = (answer, a')) :
    Holds texts start a' (t.after e answer) := by
  rcases e with hd | d | ⟨decl, events⟩ | attr | _
  · cases hrun
    exact h.step_header hn he rfl
  · cases hrun
    exact h.step_field hn he rfl
  · exact h.step_method hn hcode he hrun
  · cases hrun
    exact h.step_attribute rfl
  · cases hrun
    exact h.step_finish rfl

/-! ## All events -/

theorem taken_snoc {events : List ClassEvent} {answers : List Answer}
    (hlen : events.length = answers.length) (e : ClassEvent) (answer : Answer) :
    taken (events ++ [e]) (answers ++ [answer]) = (taken events answers).after e answer := by
  unfold taken
  rw [List.zip_append hlen, List.foldl_append]
  rfl

/-- A class that is told event by event, whatever it answers, holds what it has accepted. -/
theorem holds_of_answers (hn : start.Numbered) (hcode : ∀ name : AttributeName, texts name.text)
    {events : List ClassEvent} (hevents : ∀ e ∈ events, ∀ t ∈ e.texts, texts t)
    {answers : Array Answer}
    (hrun : ClassAssembly.sink.answers events (.ofPool start) = (answers, a)) :
    Holds texts start a (taken events answers.toList) := by
  induction events using List.reverseRecOn generalizing answers a with
  | nil =>
    cases hrun
    refine ⟨Grown.refl _ _, rfl, by simp [taken], ?_, ?_, ?_, .nil, .nil, rfl⟩ <;>
      simp [ClassAssembly.ofPool, ClassFile.empty]
  | append_singleton events e ih =>
    obtain ⟨hfirst, hlast⟩ := List.forall_mem_append.mp hevents
    cases hbefore : ClassAssembly.sink.answers events (.ofPool start) with
    | mk before mid =>
      cases hanswer : ClassAssembly.sink.answer e mid with
      | mk answer after =>
        cases (answers_snoc hbefore hanswer).symm.trans hrun
        rw [Array.toList_push, taken_snoc (by simp [size_answers hbefore])]
        exact (ih hfirst hbefore).step hn hcode (hlast e (List.mem_singleton_self e)) hanswer

/-- The bytes of an assembly are those of its class file, if its header has come. -/
theorem bytes_eq_ok {bytes : Bytes} :
    a.bytes = .ok bytes ↔ a.headerSeen = true ∧ bytes = a.classFile.encode := by
  unfold ClassAssembly.bytes ClassAssembly.result
  cases a.headerSeen with
  | true => simp [Except.map, eq_comm]
  | false => simp [Except.map]

end JvmStub
