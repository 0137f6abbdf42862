/-
`Retelling.lean` -- what an assembly was told, told again.

An assembly that has accepted everything it was sent writes a class file that can
be read again, and telling that class file tells what was sent: the same header,
fields, methods and attributes, in the same order. Two things change on the way.
The slots that a piece remembers are those of the new pool, and a body that was
told instruction by instruction comes back whole.

The argument has three parts. What was accepted is what was sent, since nothing
was refused. The class file that holds it fits the format, given that what was
sent does, so it is read from its own bytes. And each piece of the class file
says what was sent for it: the attributes of a method stand in sections, which
are told apart again as the declaration and the body they were written for.
-/
import JvmStub.Proofs.Assembly.ClassRuns
import JvmStub.Proofs.Assembly.Sections
import JvmStub.Proofs.ClassFile.RoundTrip

set_option autoImplicit false

namespace JvmStub

open ConstantPool

/-! ## What was sent -/

/-- The field of an event that tells one. -/
def ClassEvent.field? : ClassEvent → Option FieldDecl
  | .field d => some d
  | .header _ | .method .. | .attribute _ | .finish => none

/-- The declaration and the events of an event that tells a method. -/
def ClassEvent.method? : ClassEvent → Option (MethodDecl × List MethodEvent)
  | .method decl events => some (decl, events)
  | .header _ | .field _ | .attribute _ | .finish => none

/-- The attribute of an event that tells one of the class. -/
def ClassEvent.attribute? : ClassEvent → Option Attribute
  | .attribute a => some a
  | .header _ | .field _ | .method .. | .finish => none

/-- Whether nothing was refused. -/
def Answer.granted : Answer → Bool
  | .piece result => result.toBool
  | .method (.ok answers) => answers.toList.all Except.toBool
  | .method (.error _) => false

/-- What has been accepted where everything was. -/
def takenWhole (h : ClassHeader) (events : List ClassEvent) : Taken where
  header := some h
  fields := events.filterMap ClassEvent.field?
  methods := (events.filterMap ClassEvent.method?).map fun m => ⟨m.1, m.2, m.2⟩
  attributes := events.filterMap ClassEvent.attribute?

section

variable {σ : Type} {sink : ClassSink σ} {s s' : σ} {e : ClassEvent} {answer : Answer}

theorem piece_of_granted {result : Except Error Unit} (h : (Answer.piece result).granted = true) :
    result = .ok () := by
  cases result with
  | error error => cases h
  | ok => rfl

/-- A method is refused, or it is answered event by event. -/
theorem answer_method_cases {decl : MethodDecl} {events : List MethodEvent}
    (h : sink.answer (.method decl events) s = (answer, s')) :
    (∃ error, answer = .method (.error error)) ∨
      ∃ answers, answer = .method (.ok answers) ∧ answers.size = events.length := by
  cases hopened : sink.method decl s with
  | mk result mid =>
    cases result with
    | error error =>
      rw [answer_of_method_error hopened] at h
      cases h
      exact .inl ⟨error, rfl⟩
    | ok opened =>
      cases hinside : sink.answersInMethod events opened mid with
      | mk answers state =>
        rw [answer_of_method_ok hopened hinside] at h
        cases h
        exact .inr ⟨answers, rfl, size_answersInMethod hinside⟩

/-- An event that was granted has been accepted as it was sent. -/
theorem after_of_granted (hanswer : sink.answer e s = (answer, s')) (hgranted : answer.granted = true)
    (hheader : ∀ h, e ≠ .header h) (hfinished : ∀ m ∈ e.method?, .finish ∈ m.2)
    (h : ClassHeader) (events : List ClassEvent) :
    (takenWhole h events).after e answer = takenWhole h (events ++ [e]) := by
  simp only [takenWhole, List.filterMap_append, List.map_append]
  rcases e with h' | d | ⟨decl, inside⟩ | attr | _
  · exact absurd rfl (hheader h')
  · cases hanswer
    rw [piece_of_granted hgranted]
    simp [Taken.after, ClassEvent.field?, ClassEvent.method?, ClassEvent.attribute?]
  · have hmem : .finish ∈ inside := hfinished (decl, inside) rfl
    obtain ⟨error, rfl⟩ | ⟨answers, rfl, hsize⟩ := answer_method_cases hanswer
    · cases hgranted
    · have hall : acceptedOf inside answers.toList = inside :=
        acceptedOf_all (by simpa using hsize) hgranted
      simp [Taken.after, hall, hmem, ClassEvent.field?, ClassEvent.method?, ClassEvent.attribute?]
  · cases hanswer
    rw [piece_of_granted hgranted]
    simp [Taken.after, ClassEvent.field?, ClassEvent.method?, ClassEvent.attribute?]
  · cases hanswer
    simp [Taken.after, ClassEvent.field?, ClassEvent.method?, ClassEvent.attribute?]

/-- Where every answer was granted, all that was sent has been accepted. -/
theorem taken_of_granted {h : ClassHeader} {events : List ClassEvent} {answers : Array Answer}
    (hrun : sink.answers (.header h :: events) s = (answers, s'))
    (hgranted : answers.toList.all Answer.granted = true)
    (hheader : ∀ h', .header h' ∉ events)
    (hfinished : ∀ m ∈ events.filterMap ClassEvent.method?, .finish ∈ m.2) :
    taken (.header h :: events) answers.toList = takenWhole h events := by
  -- the header stands at the front, so the events are taken off at the end
  induction events using List.reverseRecOn generalizing answers s' with
  | nil =>
    cases hrun
    have hpiece := piece_of_granted (List.all_eq_true.mp hgranted _ (List.mem_singleton_self _))
    simp [taken, hpiece, Taken.after, takenWhole]
  | append_singleton events e ih =>
    rw [← List.cons_append] at hrun ⊢
    cases hbefore : sink.answers (.header h :: events) s with
    | mk before mid =>
      cases hanswer : sink.answer e mid with
      | mk answer after =>
        cases (answers_snoc hbefore hanswer).symm.trans hrun
        rw [Array.toList_push, List.all_append, Bool.and_eq_true] at hgranted
        rw [List.filterMap_append, List.forall_mem_append] at hfinished
        have hearlier : ∀ h', .header h' ∉ events := fun h' hmem =>
          hheader h' (List.mem_append_left _ hmem)
        rw [Array.toList_push, taken_snoc (by simp [size_answers hbefore]),
          ih hbefore hgranted.1 hearlier hfinished.1]
        apply after_of_granted hanswer
        · simpa using hgranted.2
        · intro h' heq
          exact hheader h' (by simp [heq])
        · intro m hm
          exact hfinished.2 m (List.mem_filterMap.mpr ⟨e, List.mem_singleton_self e, hm⟩)

end

/-! ## What fits -/

/-- The text fits the length field of a constant. -/
def TextFits (text : String) : Prop := (ModifiedUtf8.encode text).length ≤ 65535

instance (text : String) : Decidable (TextFits text) :=
  inferInstanceAs (Decidable ((ModifiedUtf8.encode text).length ≤ 65535))

/-- The tables and payloads of an event fit. -/
def ClassEvent.Fits : ClassEvent → Prop
  | .field d => AttributesFit d.attributes
  | .method decl events => decl.exceptions.length ≤ 65535 ∧ ∀ e ∈ events, e.Fits
  | .attribute a => a.Fits
  | .header _ | .finish => True

/-- All that was sent fits the fields of the format. -/
structure EventsFit (events : List ClassEvent) : Prop where
  texts : ∀ e ∈ events, ∀ t ∈ e.texts, TextFits t
  pieces : ∀ e ∈ events, e.Fits
  attributes : (events.filterMap ClassEvent.attribute?).length ≤ 65535

/-- The pool that an assembly may start with: none, or that of a class file that was read, as long
as the number of its slots can be counted. -/
inductive Seed : ConstantPool → Prop
  | empty : Seed .empty
  | ofClassFile {bytes : Bytes} {cf : ClassFile} (h : ClassFile.decode bytes = .ok cf)
      (hsize : cf.pool.size ≤ 65534) : Seed cf.pool

section

variable {start : ConstantPool} {events : List ClassEvent}

/-- The slots of such a pool can be counted. -/
theorem Seed.size_le (h : Seed start) : start.size ≤ 65534 := by
  cases h with
  | empty => simp [ConstantPool.empty, size]
  | ofClassFile h hsize => exact hsize

theorem Seed.numbered (h : Seed start) : start.Numbered := Nat.le_trans h.size_le (by decide)

/-- A pool that was read has its wide constants where they belong. -/
theorem Seed.wellSlotted (h : Seed start) : WellSlotted start.constants.toList := by
  cases h with
  | empty => exact .nil
  | ofClassFile h hsize => exact (ClassFile.fits_of_decode h).wellSlotted

/-- The texts of a pool that was read fit their lengths. -/
theorem Seed.fits (h : Seed start) : ∀ c ∈ start.constants.toList, c.Fits := by
  cases h with
  | empty => simp [ConstantPool.empty]
  | ofClassFile h hsize => exact (ClassFile.fits_of_decode h).constants

/-- The attributes of a field that was sent fit. -/
theorem EventsFit.field (hfits : EventsFit events) {d : FieldDecl}
    (hd : d ∈ events.filterMap ClassEvent.field?) : AttributesFit d.attributes := by
  obtain ⟨e, he, heq⟩ := List.mem_filterMap.mp hd
  cases e <;> cases heq
  exact hfits.pieces (.field d) he

/-- The declared exceptions of a method that was sent fit their count, and the events inside it fit.
-/
theorem EventsFit.method (hfits : EventsFit events)
    {m : MethodDecl × List MethodEvent} (hm : m ∈ events.filterMap ClassEvent.method?) :
    m.1.exceptions.length ≤ 65535 ∧ ∀ e ∈ m.2, e.Fits := by
  obtain ⟨e, he, heq⟩ := List.mem_filterMap.mp hm
  cases e <;> cases heq
  exact hfits.pieces (.method _ _) he

theorem EventsFit.attribute (hfits : EventsFit events) {attr : Attribute}
    (hattr : attr ∈ events.filterMap ClassEvent.attribute?) : attr.Fits := by
  obtain ⟨e, he, heq⟩ := List.mem_filterMap.mp hattr
  cases e <;> cases heq
  exact hfits.pieces (.attribute attr) he

end

/-! ## What is told again -/

/-- The header without the slots that it remembers. -/
def ClassHeader.withoutSlots (h : ClassHeader) : ClassHeader := { h with slots := none }

/-- The field without the slots that it remembers. -/
def FieldDecl.withoutSlots (d : FieldDecl) : FieldDecl := { d with slots := none }

section

variable {cf : ClassFile}

/-- A field that is held is told again as it was declared, up to its slots. -/
theorem HoldsField.tells {f : Member} {d : FieldDecl} (h : HoldsField cf.pool f d) :
    ∃ d', cf.fieldDecl f = .ok d' ∧ d'.withoutSlots = d.withoutSlots := by
  refine ⟨{ d with slots := some { name := f.nameSlot, descriptor := f.descriptorSlot } },
    fieldDecl_eq_ok.mpr ⟨h.name, h.descriptor, ?_⟩, rfl⟩
  simp only [h.access, h.attributes]

/-- A header that is held is told again as it was sent, up to its slots. -/
theorem HoldsHeader.tells {h : ClassHeader} (hh : HoldsHeader cf h) :
    ∃ h', cf.header = .ok h' ∧ h'.withoutSlots = h.withoutSlots := by
  refine ⟨{ h with slots := some ⟨cf.thisClass, cf.superClass, cf.interfaces.toList⟩ },
    header_eq_ok.mpr ⟨hh.thisClass, hh.superClass, hh.interfaces, ?_⟩, rfl⟩
  simp only [hh.minor, hh.major, hh.access]

end

/-- The method that is told is the one that was sent. -/
structure RetoldMethod (pool : ConstantPool) (sent : MethodDecl × List MethodEvent)
    (told : ToldMethod) : Prop where
  decl : told.decl.withoutSlots = sent.1.withoutSlots
  attributes : told.attributes = sent.2.filterMap MethodEvent.attribute?
  body : TellsBody pool (sent.2.filter MethodEvent.isBodyPart) told.code

/-- The class that is told is the one that was sent. -/
structure Retold (pool : ConstantPool) (h : ClassHeader) (events : List ClassEvent)
    (told : ToldClass) : Prop where
  header : told.header.withoutSlots = h.withoutSlots
  fields : List.Forall₂ (fun sent told => FieldDecl.withoutSlots told = sent.withoutSlots)
    (events.filterMap ClassEvent.field?) told.fields
  methods : List.Forall₂ (RetoldMethod pool) (events.filterMap ClassEvent.method?) told.methods
  attributes : told.attributes = events.filterMap ClassEvent.attribute?

/-! ## All events -/

section

variable {start : ConstantPool} {a : ClassAssembly} {h : ClassHeader} {events : List ClassEvent}

/-- A method that has taken all that it was sent says it again. -/
theorem HoldsMethod.retold {cf : ClassFile} {m : Member} {sent : MethodDecl × List MethodEvent}
    (hm : HoldsMethod cf.pool m ⟨sent.1, sent.2, sent.2⟩) (hlen : sent.1.exceptions.length ≤ 65535)
    (hfits : ∀ e ∈ sent.2, e.Fits)
    (hothers : ∀ attr ∈ sent.2.filterMap MethodEvent.attribute?,
      attr.isForwarded cf.pool = true) :
    m.Fits ∧ ∃ told, (∃ parts, cf.TellsMethod m told parts) ∧ RetoldMethod cf.pool sent told := by
  obtain ⟨code, hhas, htells⟩ := hm
  -- all that was sent was accepted, so the whole body is known
  have hbody : TellsBody cf.pool (sent.2.filter MethodEvent.isBodyPart) code := by
    have hexact := htells.exact rfl
    cases code with
    | none =>
      have hnone : sent.2.filter MethodEvent.isBodyPart = [] := hexact
      rw [hnone]
      exact .none
    | some code => exact hexact
  have hcode := hbody.fits fun e he => hfits e (List.mem_of_mem_filter he)
  constructor
  · refine hhas.fits hlen (fun c hc => (hcode c hc).2) fun attr hattr => ?_
    obtain ⟨e, he, heq⟩ := List.mem_filterMap.mp hattr
    cases e <;> cases heq
    exact hfits _ he
  · obtain ⟨told, parts, hparts, hdecl, hattributes, rfl⟩ :=
      hhas.tells hlen (fun c hc => (hcode c hc).1) hothers
    exact ⟨told, ⟨parts, hparts⟩, hdecl, hattributes, hbody⟩

/-- The class file that holds what was sent fits the format when its methods do. -/
theorem Holds.fits (hholds : Holds TextFits start a (takenWhole h events)) (hseed : Seed start)
    (hfits : EventsFit (.header h :: events))
    (hmethods : ∀ m ∈ a.classFile.methods.toList, m.Fits) : a.classFile.Fits := by
  constructor
  · exact hholds.magic
  · exact hholds.grown.numbered hseed.numbered
  · exact hholds.grown.wellSlotted hseed.wellSlotted
  · exact hholds.grown.fits hseed.fits fun text htext => htext
  · exact hholds.interfaceCount
  · refine ⟨hholds.fieldCount, fun m hm => ?_⟩
    obtain ⟨d, hd, hfield⟩ := exists_of_forall₂_mem hholds.fields.flip hm
    rw [Member.Fits, hfield.attributes]
    exact hfits.field hd
  · exact ⟨hholds.methodCount, hmethods⟩
  · have hsame : a.classFile.attributes.toList = events.filterMap ClassEvent.attribute? :=
      hholds.attributes
    refine ⟨?_, fun attr hattr => hfits.attribute (hsame ▸ hattr)⟩
    rw [← Array.length_toList, hsame]
    exact hfits.attributes

/-- Each method of the class file that holds what was sent fits, and says what was sent for it. -/
theorem Holds.methods_retold (hholds : Holds TextFits start a (takenWhole h events))
    (hfits : EventsFit (.header h :: events))
    (hothers : ∀ m ∈ events.filterMap ClassEvent.method?,
      ∀ attr ∈ m.2.filterMap MethodEvent.attribute?, attr.isForwarded a.classFile.pool = true) :
    List.Forall₂ (fun m sent => m.Fits ∧ ∃ told,
        (∃ parts, a.classFile.TellsMethod m told parts) ∧ RetoldMethod a.classFile.pool sent told)
      a.classFile.methods.toList (events.filterMap ClassEvent.method?) := by
  have hheld := List.forall₂_map_right_iff.mp hholds.methods
  -- what is known of the methods that were sent goes along with their matches
  have hknown := (List.forall₂_and_left _ _).mpr
    ⟨fun sent hsent => And.intro (hfits.method hsent) (hothers sent hsent), hheld.flip⟩
  refine List.Forall₂.flip (hknown.imp ?_)
  rintro sent m ⟨⟨⟨hlen, hinside⟩, hnamed⟩, hm⟩
  exact HoldsMethod.retold hm hlen hinside hnamed

/-- Writing and reading give back the events of a class. -/
theorem retold_of_answers (hseed : Seed start) {answers : Array Answer}
    (hrun : ClassAssembly.sink.answers (.header h :: events) (.ofPool start) = (answers, a))
    (hgranted : answers.toList.all Answer.granted = true)
    (hheader : ∀ h', .header h' ∉ events)
    (hfinished : ∀ m ∈ events.filterMap ClassEvent.method?, .finish ∈ m.2)
    (hothers : ∀ m ∈ events.filterMap ClassEvent.method?,
      ∀ attr ∈ m.2.filterMap MethodEvent.attribute?, attr.isForwarded a.classFile.pool = true)
    (hfits : EventsFit (.header h :: events)) :
    ∃ bytes cf told, a.bytes = .ok bytes ∧ ClassFile.decode bytes = .ok cf ∧
      cf.replay false .recorder #[] = (.ok (), told.events.toArray) ∧
        Retold cf.pool h events told := by
  have hholds : Holds TextFits start a (takenWhole h events) := by
    rw [← taken_of_granted hrun hgranted hheader hfinished]
    refine holds_of_answers hseed.numbered (fun name => ?_) hfits.texts hrun
    cases name <;> decide +kernel
  obtain ⟨hhead, hseen⟩ := hholds.header h rfl
  have hmethods := hholds.methods_retold hfits hothers
  have hfit := hholds.fits hseed hfits (forall_mem_of_forall₂ hmethods fun _ _ hm => hm.1)
  have hsize : a.classFile.pool.size ≤ 65534 := by
    have hbounded := hholds.grown.bounded
    have hle := hseed.size_le
    rw [maxSize] at hbounded
    omega
  -- each piece says what was sent, and together they are what the class file says
  obtain ⟨header, htells, hsame⟩ := hhead.tells
  obtain ⟨fields, hfields, hsent⟩ := exists_forall₂ (hholds.fields.imp fun _ _ hf => hf.tells)
  obtain ⟨methods, htold, hretold⟩ := exists_forall₂ (hmethods.imp fun _ _ hm => hm.2)
  let told : ToldClass := ⟨header, fields, methods, a.classFile.attributes.toList⟩
  have hclass : a.classFile.Tells told := ⟨htells, hfields, htold, rfl⟩
  refine ⟨_, a.classFile, told, bytes_eq_ok.mpr ⟨hseen, rfl⟩,
    ClassFile.decode_encode_of_fits hfit hsize, ?_, hsame, hsent, hretold, hholds.attributes⟩
  rw [replay_recorder #[] hclass]
  exact congrArg (Prod.mk _) (Array.ext' (by simp))

end

/-! ## A class of every kind of piece -/

/-- A header whose slots hold nothing. -/
def sampleHeader : ClassHeader where
  minor := 0
  major := 52
  access := 33
  name := "List"
  superName := some "Base"
  interfaces := ["Bag"]
  slots := some ⟨7, 8, [9]⟩

/-- A method that is told instruction by instruction, behind an attribute that is named by the text
in the first slot. -/
def sampleMethod : ClassEvent :=
  .method
    { access := 1, name := "size", descriptor := "()I", signature := some "()I",
      exceptions := ["Full"], slots := none }
    [.attribute ⟨1, [0]⟩, .beginBody, .instruction (.onMethod 185 "Bag" "add" "(J)V" true),
      .instruction (.simple 172), .endBody 4 1, .finish]

/-- What follows the header: a field, a method of each kind, an attribute and the end. -/
def sampleEvents : List ClassEvent :=
  [.field ⟨2, "head", "I", #[⟨1, []⟩], none⟩, sampleMethod,
    .method ⟨9, "clear", "()V", none, [], none⟩ [.body ⟨1, 0, [177], #[⟨0, 0, 0, 0⟩], #[]⟩, .finish],
    .attribute ⟨1, [1, 2]⟩, .finish]

/-- What an assembly makes of them. -/
def sampleRun : Array Answer × ClassAssembly :=
  ClassAssembly.sink.answers (.header sampleHeader :: sampleEvents) (.ofPool .empty)

theorem eventsFit_sample : EventsFit (.header sampleHeader :: sampleEvents) := by
  have hbody : MethodEvent.Fits (.body ⟨1, 0, [177], #[⟨0, 0, 0, 0⟩], #[]⟩) :=
    ⟨⟨by decide, by decide, by decide, by simp⟩, by decide +kernel⟩
  have hfinish : MethodEvent.Fits .finish := trivial
  have hheader : ClassEvent.Fits (.header sampleHeader) := trivial
  have hfield : ClassEvent.Fits (.field ⟨2, "head", "I", #[⟨1, []⟩], none⟩) :=
    ⟨by decide, by simp [Attribute.Fits]⟩
  have hmethod : sampleMethod.Fits := by
    simp [sampleMethod, ClassEvent.Fits, MethodEvent.Fits, Attribute.Fits]
  have hother : ClassEvent.Fits (.method ⟨9, "clear", "()V", none, [], none⟩
      [.body ⟨1, 0, [177], #[⟨0, 0, 0, 0⟩], #[]⟩, .finish]) :=
    ⟨by simp, by simp [hbody, hfinish]⟩
  have hattribute : ClassEvent.Fits (.attribute ⟨1, [1, 2]⟩) := by
    simp [ClassEvent.Fits, Attribute.Fits]
  have hend : ClassEvent.Fits .finish := trivial
  refine ⟨by decide +kernel, ?_, by decide +kernel⟩
  simp only [sampleEvents, List.forall_mem_cons]
  exact ⟨hheader, hfield, hmethod, hother, hattribute, hend, by simp⟩

/-- These events are all accepted, and told again. -/
theorem retold_of_answers_sample : sampleRun.1.toList.all Answer.granted = true ∧
    EventsFit (.header sampleHeader :: sampleEvents) ∧
    ∃ bytes cf told, sampleRun.2.bytes = .ok bytes ∧ ClassFile.decode bytes = .ok cf ∧
      cf.replay false .recorder #[] = (.ok (), told.events.toArray) ∧
        Retold cf.pool sampleHeader sampleEvents told := by
  have hgranted : sampleRun.1.toList.all Answer.granted = true := by decide +kernel
  refine ⟨hgranted, eventsFit_sample,
    retold_of_answers .empty rfl hgranted ?_ ?_ ?_ eventsFit_sample⟩
  · simp [sampleEvents, sampleMethod]
  · decide +kernel
  · decide +kernel

end JvmStub
