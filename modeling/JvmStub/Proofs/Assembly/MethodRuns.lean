/-
`MethodRuns.lean` -- a method that is told event by event.

A method can be sent anything in any order, and some of it is refused. What the
class ends up with is a function of what was accepted, and `HoldsMethod` says
which: the declaration, the attributes that were accepted, in their order, and at
most one body. The step lemma is `Inside.step`, the run lemma
`inside_of_answers`.

The one place where refusals matter is the bytecode. A refused interface call
leaves bytes in an open body, so a body is known byte by byte only where nothing
was refused. Its tables are known in any case: a body that was told instruction
by instruction has none.
-/
import JvmStub.Proofs.Assembly.MethodEvents
import JvmStub.Proofs.Event.Sending

set_option autoImplicit false

namespace JvmStub

open ConstantPool

/-- The attribute of an event that tells one. -/
def MethodEvent.attribute? : MethodEvent → Option Attribute
  | .attribute a => some a
  | .beginBody | .instruction _ | .endBody .. | .body _ | .finish => none

/-- The body of an event that tells a whole one. -/
def MethodEvent.body? : MethodEvent → Option Code
  | .body code => some code
  | .attribute _ | .beginBody | .instruction _ | .endBody .. | .finish => none

/-- A method that was declared, the events that it was sent, and those that it accepted. -/
structure TakenMethod where
  decl : MethodDecl
  sent : List MethodEvent
  accepted : List MethodEvent
  deriving DecidableEq, Repr

/-- The attributes that the method accepted, in their order. -/
def TakenMethod.attributes (t : TakenMethod) : List Attribute :=
  t.accepted.filterMap MethodEvent.attribute?

/-- The events that were accepted, in their order. -/
def acceptedOf (events : List MethodEvent) (answers : List (Except Error Unit)) :
    List MethodEvent :=
  ((events.zip answers).filter fun p => p.2.toBool).map Prod.fst

variable {texts : String → Prop} {pool later : ConstantPool}

/-- What is accepted of two runs is accepted of the one and then of the other. -/
theorem acceptedOf_append {events more : List MethodEvent}
    {answers behind : List (Except Error Unit)} (hlen : events.length = answers.length) :
    acceptedOf (events ++ more) (answers ++ behind) =
      acceptedOf events answers ++ acceptedOf more behind := by
  unfold acceptedOf
  rw [List.zip_append hlen, List.filter_append, List.map_append]

/-- One event more is accepted or it is not. -/
theorem acceptedOf_snoc {events : List MethodEvent} {answers : List (Except Error Unit)}
    (hlen : events.length = answers.length) (e : MethodEvent) (answer : Except Error Unit) :
    acceptedOf (events ++ [e]) (answers ++ [answer]) =
      acceptedOf events answers ++ if answer.toBool then [e] else [] := by
  rw [acceptedOf_append hlen]
  cases answer <;> rfl

/-- When everything is accepted, what was accepted is what was sent. -/
theorem acceptedOf_all {events : List MethodEvent} {answers : List (Except Error Unit)}
    (hlen : answers.length = events.length) (hall : answers.all Except.toBool = true) :
    acceptedOf events answers = events := by
  unfold acceptedOf
  rw [List.filter_eq_self.mpr, List.map_fst_zip (Nat.le_of_eq hlen.symm)]
  intro p hp
  exact List.all_eq_true.mp hall p.2 (List.of_mem_zip hp).2

/-! ## Bodies -/

/-- The bytes are those of the instructions, one after the other. -/
def Bytecode (pool : ConstantPool) (is : List Instruction) (bytes : Bytes) : Prop :=
  ∃ chunks, List.Forall₂ (Instruction.SpelledBy pool) is chunks ∧ bytes = chunks.flatten

/-- Bytecode that spells instructions spells them when the pool has grown. -/
theorem Bytecode.mono {is : List Instruction} {bytes : Bytes} (h : Bytecode pool is bytes)
    (hg : pool.GrowsInto later) : Bytecode later is bytes := by
  obtain ⟨chunks, hchunks, rfl⟩ := h
  exact ⟨chunks, hchunks.imp fun _ _ hi => hi.mono hg, rfl⟩

/-- One instruction more is spelled behind the others. -/
theorem Bytecode.snoc {is : List Instruction} {i : Instruction} {bytes chunk : Bytes}
    (h : Bytecode pool is bytes) (hi : i.SpelledBy pool chunk) :
    Bytecode pool (is ++ [i]) (bytes ++ chunk) := by
  obtain ⟨chunks, hchunks, rfl⟩ := h
  exact ⟨chunks ++ [chunk], List.rel_append hchunks (.cons hi .nil), by simp⟩

/-- The events tell the body: none, one as a whole, or one instruction by instruction. -/
inductive TellsBody (pool : ConstantPool) : List MethodEvent → Option Code → Prop
  | none : TellsBody pool [] none
  | whole (code : Code) : TellsBody pool [.body code] (some code)
  | told {is : List Instruction} {bytes : Bytes} (maxStack maxLocals : UInt16)
      (h : Bytecode pool is bytes) (hlen : bytes.length ≤ maxCodeLength) :
      TellsBody pool (.beginBody :: is.map .instruction ++ [.endBody maxStack maxLocals])
        (some ⟨maxStack, maxLocals, bytes, #[], #[]⟩)

/-- The events tell the body as far as it has come. -/
def TellsSoFar (pool : ConstantPool) (events : List MethodEvent) : BodyState → Prop
  | .absent => events = []
  | .opened bytecode =>
    ∃ is, events = .beginBody :: is.map .instruction ∧ Bytecode pool is bytecode.toList
  | .complete code => TellsBody pool events (some code)

theorem TellsBody.mono {events : List MethodEvent} {code : Option Code}
    (h : TellsBody pool events code) (hg : pool.GrowsInto later) : TellsBody later events code := by
  cases h with
  | none => exact .none
  | whole code => exact .whole code
  | told maxStack maxLocals h hlen => exact .told maxStack maxLocals (h.mono hg) hlen

theorem TellsSoFar.mono {events : List MethodEvent} {body : BodyState}
    (h : TellsSoFar pool events body) (hg : pool.GrowsInto later) :
    TellsSoFar later events body := by
  cases body with
  | absent => exact h
  | opened bytecode =>
    obtain ⟨is, hevents, hbytes⟩ := h
    exact ⟨is, hevents, hbytes.mono hg⟩
  | complete code => exact TellsBody.mono h hg

/-- The tables of the body are those of the only whole body among the events, and empty if there
is none. -/
def TablesTold (events : List MethodEvent) : BodyState → Prop
  | .complete code => events.filterMap MethodEvent.body? = [code] ∨
      events.filterMap MethodEvent.body? = [] ∧ code.handlers = #[] ∧ code.attributes = #[]
  | .absent | .opened _ => events.filterMap MethodEvent.body? = []

/-- What the events of a method say of its body. -/
structure TakenMethod.Tells (pool : ConstantPool) (t : TakenMethod) (body : BodyState) : Prop where
  tables : TablesTold t.accepted body
  exact : t.sent = t.accepted → TellsSoFar pool (t.accepted.filter MethodEvent.isBodyPart) body

theorem TakenMethod.Tells.mono {t : TakenMethod} {body : BodyState} (h : t.Tells pool body)
    (hg : pool.GrowsInto later) : t.Tells later body :=
  ⟨h.tables, fun hall => (h.exact hall).mono hg⟩

/-! ## Methods -/

/-- The method under construction is what its events have made of it. -/
structure Tracks (pool : ConstantPool) (t : TakenMethod) (m : MethodAssembly) : Prop where
  declares : Declares pool t.decl m
  forwarded : m.forwarded.toList = t.attributes
  tells : t.Tells pool m.body
  length : t.accepted.length ≤ t.sent.length

theorem Tracks.mono {t : TakenMethod} {m : MethodAssembly} (h : Tracks pool t m)
    (hg : pool.GrowsInto later) : Tracks later t m :=
  { h with declares := h.declares.mono hg, tells := h.tells.mono hg }

/-- The method of a class file has the declaration, the body and the other attributes. -/
structure Member.Has (pool : ConstantPool) (m : Member) (decl : MethodDecl) (code : Option Code)
    (others : List Attribute) : Prop where
  access : m.access = decl.access
  name : pool.utf8 m.nameSlot = .ok decl.name
  descriptor : pool.utf8 m.descriptorSlot = .ok decl.descriptor
  count : m.attributes.size ≤ maxCount
  attributes : ∃ body exceptions signature,
    m.attributes.toList = body ++ exceptions ++ signature ++ others ∧ HoldsBody pool code body ∧
      HoldsExceptions pool decl.exceptions exceptions ∧
        HoldsSignature pool decl.signature signature

theorem Member.Has.mono {m : Member} {decl : MethodDecl} {code : Option Code}
    {others : List Attribute} (h : m.Has pool decl code others) (hg : pool.GrowsInto later) :
    m.Has later decl code others := by
  obtain ⟨body, exceptions, signature, hattributes, hbody, hexceptions, hsignature⟩ := h.attributes
  exact ⟨h.access, hg.utf8 h.name, hg.utf8 h.descriptor, h.count, body, exceptions, signature,
    hattributes, hbody.mono hg, hexceptions.mono hg, hsignature.mono hg⟩

/-- The method of a class file is what the events of a method have made of it. -/
def HoldsMethod (pool : ConstantPool) (m : Member) (t : TakenMethod) : Prop :=
  ∃ code : Option Code, m.Has pool t.decl code t.attributes ∧
    t.Tells pool ((code.map BodyState.complete).getD .absent)

theorem HoldsMethod.mono {m : Member} {t : TakenMethod} (h : HoldsMethod pool m t)
    (hg : pool.GrowsInto later) : HoldsMethod later m t := by
  obtain ⟨code, hhas, htells⟩ := h
  exact ⟨code, hhas.mono hg, htells.mono hg⟩

/-! ## One event -/

/-- The method with one event more, which it has accepted. -/
def TakenMethod.accept (t : TakenMethod) (e : MethodEvent) : TakenMethod :=
  ⟨t.decl, t.sent ++ [e], t.accepted ++ [e]⟩

/-- The method with one event more, which it has refused. -/
def TakenMethod.refuse (t : TakenMethod) (e : MethodEvent) : TakenMethod :=
  ⟨t.decl, t.sent ++ [e], t.accepted⟩

variable {t : TakenMethod} {e : MethodEvent} {m m' : MethodAssembly} {c c' : ClassAssembly}

/-- If all is accepted with one event more, then all was accepted before. -/
theorem accept_exact (h : (t.accept e).sent = (t.accept e).accepted) : t.sent = t.accepted :=
  List.append_cancel_right h

/-- A method that has refused an event has not accepted all that it was sent. -/
theorem refuse_not_exact (h : t.accepted.length ≤ t.sent.length) :
    (t.refuse e).sent ≠ (t.refuse e).accepted := by
  intro heq
  have hlen := congrArg List.length heq
  simp only [TakenMethod.refuse, List.length_append, List.length_singleton] at hlen
  omega

/-- A refused event changes nothing of what the method has accepted. -/
theorem Tracks.refuse (h : Tracks c.classFile.pool t m)
    {error : Error} (hrefuses : MethodAssembly.Refuses texts m c e error m' c') :
    Tracks c'.classFile.pool (t.refuse e) m' := by
  obtain ⟨⟨pool, hgrown, rfl⟩, haccess, -, hname, hdescriptor, hleading, hforwarded, hbody, -⟩ :=
    hrefuses
  have hg : c.classFile.pool.GrowsInto pool := hgrown.growsInto
  have hdeclares := h.declares.mono hg
  constructor
  · constructor
    · rw [haccess]
      exact hdeclares.access
    · rw [hname]
      exact hdeclares.name
    · rw [hdescriptor]
      exact hdeclares.descriptor
    · rw [hleading]
      exact hdeclares.leading
  · rw [hforwarded]
    exact h.forwarded
  · refine ⟨?_, fun hall => absurd hall (refuse_not_exact h.length)⟩
    have htables : TablesTold t.accepted m.body := h.tells.tables
    -- a body that does not stay as it is was open, and no complete one takes its place
    generalize m'.body = left at hbody ⊢
    cases hbody with
    | kept => exact htables
    | begun i error bytes hopened =>
      rw [hopened] at htables
      exact htables
    | lost maxStack maxLocals hopened hlong =>
      rw [hopened] at htables
      exact htables
  · have hlen := h.length
    simp only [TakenMethod.refuse, List.length_append]
    omega

/-- An event that was accepted has grown the pool by its own texts. -/
theorem MethodAssembly.Accepts.grown (h : MethodAssembly.Accepts m c e m' c')
    (hn : c.classFile.pool.Numbered) (he : ∀ t ∈ e.texts, texts t)
    (hcode : texts AttributeName.code.text) : Grown texts c.classFile.pool c'.classFile.pool := by
  cases h with
  | «attribute» a => exact Grown.refl _ _
  | beginBody habsent => exact Grown.refl _ _
  | instruction hopened hrequest htail =>
    exact PoolM.grown_of_run hrequest (grown_request_of_texts hn he)
  | endBody maxStack maxLocals hopened hsize => exact Grown.refl _ _
  | body code habsent => exact Grown.refl _ _
  | finish hbody hrequest hcount =>
    exact PoolM.grown_of_run hrequest (MethodAssembly.grown_codeRequest hn hcode _)

/-- Only its end puts a method into the class. -/
theorem MethodAssembly.Accepts.eq_withPool (h : MethodAssembly.Accepts m c e m' c')
    (he : e ≠ .finish) : c' = c.withPool c'.classFile.pool := by
  cases h <;> first | rfl | exact absurd rfl he

/-- An event that is no whole body brings no tables. -/
theorem tablesTold_append {events : List MethodEvent} {body : BodyState} (he : e.body? = none) :
    TablesTold (events ++ [e]) body ↔ TablesTold events body := by
  have hsame : (events ++ [e]).filterMap MethodEvent.body? =
      events.filterMap MethodEvent.body? := by
    simp [List.filterMap_append, he]
  cases body <;> simp only [TablesTold, hsame]

/-- A part of a body is the last one so far. -/
theorem filter_isBodyPart_append {events : List MethodEvent} (he : e.isBodyPart = true) :
    (events ++ [e]).filter MethodEvent.isBodyPart =
      events.filter MethodEvent.isBodyPart ++ [e] := by
  simp [List.filter_append, he]

/-- An event that tells no part of a body leaves what is known of it. -/
theorem TakenMethod.Tells.accept_other {body : BodyState} (h : t.Tells pool body)
    (he : e.isBodyPart = false) : (t.accept e).Tells pool body := by
  have hbody : e.body? = none := by
    cases e <;> first | rfl | cases he
  refine ⟨(tablesTold_append hbody).mpr h.tables, fun hall => ?_⟩
  have hsame : (t.accepted ++ [e]).filter MethodEvent.isBodyPart =
      t.accepted.filter MethodEvent.isBodyPart := by
    simp [List.filter_append, he]
  rw [TakenMethod.accept, hsame]
  exact h.exact (accept_exact hall)

/-- An event that the method takes adds to its body what it says of it. -/
theorem TakenMethod.Tells.accept (h : t.Tells c'.classFile.pool m.body)
    (haccepts : MethodAssembly.Accepts m c e m' c') (hn : c'.classFile.pool.Numbered) :
    (t.accept e).Tells c'.classFile.pool m'.body := by
  have htables := h.tables
  have hexact := h.exact
  cases haccepts with
  | «attribute» a => exact h.accept_other rfl
  | finish hbody hrequest hcount => exact h.accept_other rfl
  | beginBody habsent =>
    rw [habsent] at htables hexact
    refine ⟨(tablesTold_append rfl).mpr htables, fun hall => ⟨[], ?_, [], .nil, rfl⟩⟩
    have hnone : t.accepted.filter MethodEvent.isBodyPart = [] := hexact (accept_exact hall)
    rw [TakenMethod.accept, filter_isBodyPart_append rfl, hnone]
    rfl
  | body code habsent =>
    rw [habsent] at htables hexact
    have hfirst : t.accepted.filterMap MethodEvent.body? = [] := htables
    refine ⟨.inl ?_, fun hall => ?_⟩
    · simp [TakenMethod.accept, List.filterMap_append, hfirst, MethodEvent.body?]
    · have hnone : t.accepted.filter MethodEvent.isBodyPart = [] := hexact (accept_exact hall)
      rw [TakenMethod.accept, filter_isBodyPart_append rfl, hnone]
      exact .whole code
  | @instruction i bytecode bytes tail pool hopened hrequest htail =>
    rw [hopened] at htables hexact
    refine ⟨(tablesTold_append rfl).mpr htables, fun hall => ?_⟩
    obtain ⟨is, hparts, hbytes⟩ := hexact (accept_exact hall)
    -- the pool that the class is left with is the one that has answered the request
    have hspelled := spelledBy_of_request hn hrequest htail
    rw [TakenMethod.accept, filter_isBodyPart_append rfl, hparts]
    refine ⟨is ++ [i], by simp, ?_⟩
    rw [Array.toList_appendList]
    exact hbytes.snoc hspelled
  | endBody maxStack maxLocals hopened hsize =>
    rw [hopened] at htables hexact
    refine ⟨.inr ⟨?_, rfl, rfl⟩, fun hall => ?_⟩
    · exact (tablesTold_append rfl).mpr htables
    · obtain ⟨is, hparts, hbytes⟩ := hexact (accept_exact hall)
      rw [TakenMethod.accept, filter_isBodyPart_append rfl, hparts]
      exact .told maxStack maxLocals hbytes (by simpa using hsize)

/-- An event that the method takes, other than its end. -/
theorem Tracks.accept (h : Tracks c'.classFile.pool t m)
    (haccepts : MethodAssembly.Accepts m c e m' c') (hn : c'.classFile.pool.Numbered)
    (he : e ≠ .finish) : Tracks c'.classFile.pool (t.accept e) m' := by
  have htells := h.tells.accept haccepts hn
  have hlength : (t.accept e).accepted.length ≤ (t.accept e).sent.length := by
    have hlen := h.length
    simp only [TakenMethod.accept, List.length_append]
    omega
  -- only an attribute adds to those that are kept for the end
  have hforwarded : e.attribute? = none → m.forwarded.toList = (t.accept e).attributes := by
    intro hnone
    rw [h.forwarded]
    simp [TakenMethod.attributes, TakenMethod.accept, List.filterMap_append, hnone]
  obtain ⟨haccess, hname, hdescriptor, hleading⟩ := h.declares
  cases haccepts with
  | «attribute» a =>
    refine ⟨⟨haccess, hname, hdescriptor, hleading⟩, ?_, htells, hlength⟩
    simp [TakenMethod.attributes, TakenMethod.accept, List.filterMap_append, h.forwarded,
      MethodEvent.attribute?]
  | finish hbody hrequest hcount => exact absurd rfl he
  | beginBody habsent =>
    exact ⟨⟨haccess, hname, hdescriptor, hleading⟩, hforwarded rfl, htells, hlength⟩
  | body code habsent =>
    exact ⟨⟨haccess, hname, hdescriptor, hleading⟩, hforwarded rfl, htells, hlength⟩
  | instruction hopened hrequest htail =>
    exact ⟨⟨haccess, hname, hdescriptor, hleading⟩, hforwarded rfl, htells, hlength⟩
  | endBody maxStack maxLocals hopened hsize =>
    exact ⟨⟨haccess, hname, hdescriptor, hleading⟩, hforwarded rfl, htells, hlength⟩

/-- The attribute that a body was put down as holds it. -/
theorem holdsBody_of_codeRequest {code : Option Code} {listed : List Attribute}
    (hn : later.Numbered) (h : codeRequest code pool = (.ok listed, later)) :
    HoldsBody later code listed := by
  cases code with
  | none =>
    cases h
    exact .nil
  | some code =>
    obtain ⟨slot, mid, hslot, h⟩ := bind_eq_ok.mp h
    cases h
    exact .cons ⟨isNamed_of_addUtf8 hn hslot, rfl⟩ .nil

/-- The end of a method puts it into the class as its events have made it. -/
theorem Tracks.finish (h : Tracks c'.classFile.pool t m)
    (haccepts : MethodAssembly.Accepts m c .finish m' c') (hn : c'.classFile.pool.Numbered) :
    m'.ended = true ∧ ∃ member code, c' = (c.withPool c'.classFile.pool).withMethod member ∧
      m'.body = (code.map BodyState.complete).getD .absent ∧
        member.Has c'.classFile.pool t.decl code (t.accept .finish).attributes ∧
          (t.accept .finish).Tells c'.classFile.pool m'.body := by
  have htells := h.tells.accept haccepts hn
  obtain ⟨haccess, hname, hdescriptor, exceptions, signature, hleading, hexceptions, hsignature⟩ :=
    h.declares
  cases haccepts with
  | @finish code listed pool hbody hrequest hcount =>
    have hforwarded : (t.accept .finish).attributes = m.forwarded.toList := by
      rw [h.forwarded]
      simp [TakenMethod.attributes, TakenMethod.accept, List.filterMap_append,
        MethodEvent.attribute?]
    exact ⟨rfl, _, code, rfl, hbody, ⟨haccess, hname, hdescriptor, hcount, listed, exceptions,
      signature, by simp [hleading, hforwarded], holdsBody_of_codeRequest hn hrequest, hexceptions,
      hsignature⟩, htells⟩

/-! ## All events of a method -/

/-- What has become of a method that was declared when the class around it was `first`: it is
still under construction, or its end has put it into the class. -/
inductive Inside (texts : String → Prop) (first : ClassAssembly) (t : TakenMethod)
    (m : MethodAssembly) (c : ClassAssembly) : Prop
  | unfinished {pool : ConstantPool} (hgrown : Grown texts first.classFile.pool pool)
      (hc : c = first.withPool pool) (hnot : .finish ∉ t.accepted) (h : Tracks pool t m)
  | finished {pool : ConstantPool} {member : Member} {code : Option Code}
      (hgrown : Grown texts first.classFile.pool pool)
      (hc : c = (first.withPool pool).withMethod member) (hmem : .finish ∈ t.accepted)
      (hended : m.ended = true) (hlength : t.accepted.length ≤ t.sent.length)
      (hbody : m.body = (code.map BodyState.complete).getD .absent)
      (hhas : member.Has pool t.decl code t.attributes) (htells : t.Tells pool m.body)

/-- The method after one event more, accepted or not. -/
def TakenMethod.after (t : TakenMethod) (e : MethodEvent) (answer : Except Error Unit) :
    TakenMethod :=
  if answer.toBool then t.accept e else t.refuse e

/-- One event inside a method, whatever it is answered. -/
theorem Inside.step {first : ClassAssembly} {answer : Except Error Unit}
    (h : Inside texts first t m c) (hn : first.classFile.pool.Numbered)
    (he : ∀ t ∈ e.texts, texts t) (hcode : texts AttributeName.code.text)
    (hrun : MethodAssembly.receive e (m, c) = (answer, (m', c'))) :
    Inside texts first (t.after e answer) m' c' := by
  cases h with
  | finished hgrown hc hmem hended hlength hbody hhas htells =>
    rw [MethodAssembly.receive_of_ended hended] at hrun
    cases hrun
    have hafter : t.after e (e.late m.name) = t.refuse e := rfl
    rw [hafter]
    -- a finished method is what it was, whatever it refuses
    refine .finished hgrown hc hmem hended (Nat.le_trans hlength ?_) hbody hhas
      ⟨htells.tables, fun hall => absurd hall (refuse_not_exact hlength)⟩
    simp [TakenMethod.refuse]
  | @unfinished pool hgrown hc hnot h =>
    subst hc
    have hnumbered := hgrown.numbered hn
    have houtcome := MethodAssembly.outcome_receive (m := m) (c := first.withPool pool) hnumbered he
      hcode
    rw [hrun] at houtcome
    cases houtcome with
    | refused error hrefuses =>
      obtain ⟨pool', hgrown', rfl⟩ := hrefuses.classFile
      exact .unfinished (hgrown.trans hgrown') rfl hnot (Tracks.refuse h hrefuses)
    | accepted hopen haccepts =>
      have hgrown' := haccepts.grown hnumbered he hcode
      have hlater := hgrown'.numbered hnumbered
      have htracks : Tracks c'.classFile.pool t m := h.mono hgrown'.growsInto
      by_cases hfinish : e = .finish
      · subst hfinish
        obtain ⟨hended, member, code, hc', hbody, hhas, htells⟩ := htracks.finish haccepts hlater
        rw [ClassAssembly.withPool_withPool] at hc'
        refine .finished (hgrown.trans hgrown') hc' (by simp [TakenMethod.after, TakenMethod.accept,
          Except.toBool]) hended ?_ hbody hhas htells
        simpa [TakenMethod.after, TakenMethod.accept, Except.toBool] using h.length
      · have hc' := haccepts.eq_withPool hfinish
        rw [ClassAssembly.withPool_withPool] at hc'
        refine .unfinished (hgrown.trans hgrown') hc' ?_ (htracks.accept haccepts hlater hfinish)
        simpa [TakenMethod.after, TakenMethod.accept, Except.toBool] using
          ⟨hnot, fun heq => hfinish heq.symm⟩

/-- A method that has just been declared has taken nothing. -/
theorem tracks_of_request {decl : MethodDecl} (hn : pool.Numbered)
    (h : declareRequest decl pool = (.ok m, later)) : Tracks later ⟨decl, [], []⟩ m := by
  have hdeclares := declares_of_request hn h
  obtain ⟨nameSlot, p₁, -, h⟩ := bind_eq_ok.mp h
  obtain ⟨descriptorSlot, p₂, -, h⟩ := bind_eq_ok.mp h
  obtain ⟨exceptions, p₃, -, h⟩ := bind_eq_ok.mp h
  obtain ⟨signature, p₄, -, h⟩ := bind_eq_ok.mp h
  cases h
  exact ⟨hdeclares, rfl, ⟨rfl, fun _ => rfl⟩, Nat.le_refl _⟩

/-- All events inside a method, whatever they are answered. -/
theorem inside_of_answers {first : ClassAssembly} {decl : MethodDecl} {opened : MethodAssembly}
    (htracks : Tracks first.classFile.pool ⟨decl, [], []⟩ opened)
    (hn : first.classFile.pool.Numbered) (hcode : texts AttributeName.code.text)
    {events : List MethodEvent} (hevents : ∀ e ∈ events, ∀ t ∈ e.texts, texts t)
    {answers : Array (Except Error Unit)}
    (hrun : ClassAssembly.sink.answersInMethod events opened first = (answers, (m', c'))) :
    Inside texts first ⟨decl, events, acceptedOf events answers.toList⟩ m' c' := by
  -- the last event is taken off: what is known is known of the method that the others left
  induction events using List.reverseRecOn generalizing answers m' c' with
  | nil =>
    cases hrun
    exact .unfinished (Grown.refl _ _) rfl (by simp [acceptedOf]) htracks
  | append_singleton events e ih =>
    obtain ⟨hfirst, hlast⟩ := List.forall_mem_append.mp hevents
    cases hbefore : ClassAssembly.sink.answersInMethod events opened first with
    | mk before state =>
      obtain ⟨m, c⟩ := state
      cases hanswer : MethodAssembly.receive e (m, c) with
      | mk answer state' =>
        obtain ⟨m'', c''⟩ := state'
        have hsame := (answersInMethod_snoc hbefore hanswer).symm.trans hrun
        cases hsame
        have hstep := (ih hfirst hbefore).step hn (hlast e (List.mem_singleton_self e)) hcode hanswer
        rw [Array.toList_push, acceptedOf_snoc (by simp [size_answersInMethod hbefore])]
        cases answer with
        | error error => simpa [TakenMethod.after, TakenMethod.refuse, Except.toBool] using hstep
        | ok => exact hstep

end JvmStub
