/-
`Headers.lean` -- which header a class is written with.

A header may be sent more than once, and the last one that is accepted takes the place
of those before it. One that is refused does not leave the class alone: a header is put
in place part by part, and the parts in front of the refusal stay. `Overlays` says which
parts these are for each refusal. The interfaces come last, so they always belong to the
header that was accepted; only a header that comes after the end changes nothing.

The main statement, `header_of_answers`, follows the header that is in place from the
last accepted one through all refused ones. At the end of the file is a class that is
written with the name of a header it has refused.
-/
import JvmStub.Proofs.Assembly.Endings

set_option autoImplicit false

namespace JvmStub

open ConstantPool PoolM

variable {a a' : ClassAssembly}

/-! ## A header over another -/

/-- What is in place of two headers when the new one is refused. -/
inductive Overlays (old new : ClassHeader) : Error → ClassHeader → Prop
  /-- Nothing of a header that comes after the end. -/
  | late : Overlays old new (.write (.afterEnd .header new.name)) old
  /-- The versions and the modifiers, where the pool has no room for the name. -/
  | flags : Overlays old new (.write (.pool .outOfSpace))
      { old with minor := new.minor, major := new.major, access := new.access }
  /-- The name too, where it has none for the superclass. -/
  | name : Overlays old new (.write (.pool .outOfSpace))
      { old with minor := new.minor, major := new.major, access := new.access, name := new.name }
  /-- All but the interfaces, where it has none for these or where they are too many. -/
  | superName {error : WriteError}
      (herror : error = .pool .outOfSpace ∨ error = .tooMany .interfaces new.interfaces.length) :
      Overlays old new (.write error)
        { new with interfaces := old.interfaces, slots := old.slots }

/-- The interfaces are put in place last, so a refused header leaves those of the old one. -/
theorem Overlays.interfaces {old new g : ClassHeader} {error : Error}
    (h : Overlays old new error g) : g.interfaces = old.interfaces := by
  cases h <;> rfl

theorem Overlays.slots {old new g : ClassHeader} {error : Error} (h : Overlays old new error g) :
    g.slots = old.slots := by
  cases h <;> rfl

/-- A header that is refused as too late leaves nothing. -/
theorem Overlays.eq_of_late {old new g : ClassHeader}
    (h : Overlays old new (.write (.afterEnd .header new.name)) g) : g = old := by
  cases h with
  | late => rfl
  | superName herror => rcases herror with herror | herror <;> cases herror

/-- What is in place of a header behind which others were refused. -/
inductive InPlace (h : ClassHeader) : List (ClassEvent × Answer) → ClassHeader → Prop
  | start : InPlace h [] h
  | other {told : List (ClassEvent × Answer)} {g : ClassHeader} {e : ClassEvent} {answer : Answer}
      (hother : ∀ new, e ≠ .header new) (hplace : InPlace h told g) :
      InPlace h (told ++ [(e, answer)]) g
  | refused {told : List (ClassEvent × Answer)} {old new g : ClassHeader} {error : Error}
      (hplace : InPlace h told old) (hover : Overlays old new error g) :
      InPlace h (told ++ [(.header new, .piece (.error error))]) g

section

variable {h g : ClassHeader} {told : List (ClassEvent × Answer)}

/-- Through all refused headers the interfaces are those of the last accepted one. -/
theorem InPlace.interfaces (hplace : InPlace h told g) : g.interfaces = h.interfaces := by
  induction hplace with
  | start => rfl
  | other _ _ ih => exact ih
  | refused _ hover ih => exact hover.interfaces.trans ih

theorem InPlace.slots (hplace : InPlace h told g) : g.slots = h.slots := by
  induction hplace with
  | start => rfl
  | other _ _ ih => exact ih
  | refused _ hover ih => exact hover.slots.trans ih

/-- Headers that come after the end change nothing. -/
theorem InPlace.eq_of_late (hplace : InPlace h told g)
    (hlate : ∀ new error, (.header new, .piece (.error error)) ∈ told →
      error = .write (.afterEnd .header new.name)) : g = h := by
  induction hplace with
  | start => rfl
  | other _ _ ih =>
    exact ih fun new error hmem => hlate new error (List.mem_append_left _ hmem)
  | @refused told old new g error _ hover ih =>
    have hlast := hlate new error (List.mem_append_right _ (List.mem_singleton_self _))
    subst hlast
    rw [hover.eq_of_late]
    exact ih fun new error hmem => hlate new error (List.mem_append_left _ hmem)

end

/-! ## The header of a class file -/

/-- A class file has one superclass or none. -/
theorem superNamed_inj {cf : ClassFile} {x y : Option String} (hx : SuperNamed cf x)
    (hy : SuperNamed cf y) : x = y := by
  unfold SuperNamed at hx hy
  cases x with
  | none =>
    cases y with
    | none => rfl
    | some name => exact absurd hx hy.1
  | some name =>
    cases y with
    | none => exact absurd hy hx.1
    | some name' => exact congrArg some (Except.ok.inj (hx.2.symm.trans hy.2))

/-- A class file holds one header, the slots apart that its names were read from. -/
theorem HoldsHeader.inj {cf : ClassFile} {g h : ClassHeader} (hg : HoldsHeader cf g)
    (hh : HoldsHeader cf h) (hinterfaces : g.interfaces = h.interfaces) (hslots : g.slots = h.slots) :
    g = h := by
  have hminor := hg.minor.symm.trans hh.minor
  have hmajor := hg.major.symm.trans hh.major
  have haccess := hg.access.symm.trans hh.access
  have hname := Except.ok.inj (hg.thisClass.symm.trans hh.thisClass)
  have hsuper := superNamed_inj hg.superClass hh.superClass
  cases g
  cases h
  congr

/-! ## One header

The parts of a header are put in place one after the other, each over what was there. A step of this
is followed by the header that it turns the one in place into. -/

/-- The class has the same header as before, but for a change. -/
structure Reheads (change : ClassHeader → ClassHeader) (a a' : ClassAssembly) : Prop where
  headerSeen : a'.headerSeen = a.headerSeen
  numbered : a'.classFile.pool.Numbered
  holds : ∀ old, HoldsHeader a.classFile old → HoldsHeader a'.classFile (change old)

/-- Two changes of the header one after the other are their composition. -/
theorem Reheads.trans {first second : ClassHeader → ClassHeader} {a'' : ClassAssembly}
    (h : Reheads first a a') (h' : Reheads second a' a'') : Reheads (second ∘ first) a a'' where
  headerSeen := h'.headerSeen.trans h.headerSeen
  numbered := h'.numbered
  holds := fun old hold => h'.holds _ (h.holds old hold)

theorem reheads_withPool {pool : ConstantPool} (hn : a.classFile.pool.Numbered)
    (hg : Grown (fun _ => True) a.classFile.pool pool) : Reheads id a (a.withPool pool) :=
  ⟨rfl, hg.numbered hn, fun _ hold => hold.withPool hg.growsInto⟩

namespace ClassAssembly

variable {new : ClassHeader} {error : Error}

/-- The part of a header that comes before its superclass. -/
def headerName (h : ClassHeader) : SinkM ClassAssembly Unit := do
  update fun cf => { cf with minor := h.minor, major := h.major, access := h.access }
  let thisClass ← growing (classAt (h.slots.map (·.thisClass)) h.name)
  update fun cf => { cf with thisClass }

/-- The part of a header that is its superclass. -/
def headerSuper (h : ClassHeader) : SinkM ClassAssembly Unit := do
  let superClass ← growing (superRequest (h.slots.map (·.superClass)) h.superName)
  update fun cf => { cf with superClass }

/-- The part up to the superclass is the name and then the superclass. -/
theorem headerFront_eq (h : ClassHeader) :
    headerFront h = (headerName h >>= fun _ => headerSuper h) := by
  simp only [headerFront, headerName, headerSuper, bind_assoc]

/-- The versions and the modifiers are in place before anything is asked of the pool. -/
theorem reheads_flags (hn : a.classFile.pool.Numbered) (new : ClassHeader) :
    Reheads (fun old => { old with minor := new.minor, major := new.major, access := new.access }) a
      { a with classFile := { a.classFile with
        minor := new.minor, major := new.major, access := new.access } } :=
  ⟨rfl, hn, fun _ hold =>
    ⟨rfl, rfl, rfl, hold.thisClass, hold.superClass, hold.interfaces⟩⟩

/-- When there is no room for the name, the versions and the modifiers are already in place. -/
theorem name_of_error (hn : a.classFile.pool.Numbered)
    (hrun : headerName new a = (.error error, a')) :
    error = .write (.pool .outOfSpace) ∧ Reheads (fun old =>
      { old with minor := new.minor, major := new.major, access := new.access }) a a' := by
  have hflags := reheads_flags hn new
  rcases bind_eq_error.mp hrun with h | ⟨⟨⟩, a₁, h, hrun⟩
  · cases h
  cases h
  rcases bind_eq_error.mp hrun with h | ⟨thisClass, a₂, h, hrun⟩
  · obtain ⟨e, pool, hthis, rfl, rfl⟩ := growing_eq_error h
    have hgrown : Grown (fun _ => True) a.classFile.pool pool :=
      grown_of_run hthis (grown_classAt hn trivial)
    rw [outOfSpace_of_classAt hthis]
    exact ⟨rfl, hflags.trans (reheads_withPool hflags.numbered hgrown)⟩
  · cases hrun

/-- When the name has been accepted, so have the versions and the modifiers. -/
theorem name_of_ok (hn : a.classFile.pool.Numbered) (hrun : headerName new a = (.ok (), a')) :
    Reheads (fun old => { old with
      minor := new.minor, major := new.major, access := new.access, name := new.name }) a a' := by
  have hflags := reheads_flags hn new
  obtain ⟨⟨⟩, a₁, h, hrun⟩ := bind_eq_ok.mp hrun
  cases h
  obtain ⟨thisClass, a₂, h, hrun⟩ := bind_eq_ok.mp hrun
  obtain ⟨pool, hthis, rfl⟩ := growing_eq_ok.mp h
  cases hrun
  have hgrown : Grown (fun _ => True) a.classFile.pool pool :=
    grown_of_run hthis (grown_classAt hn trivial)
  have hpool := hflags.trans (reheads_withPool hflags.numbered hgrown)
  refine ⟨rfl, hpool.numbered, fun old hold => ?_⟩
  have hkept := hpool.holds old hold
  exact ⟨hkept.minor, hkept.major, hkept.access, className_of_classAt hpool.numbered hthis,
    hkept.superClass, hkept.interfaces⟩

/-- Nothing but a full pool refuses a superclass. -/
theorem outOfSpace_of_superRequest {hint : Option Slot} {superName : Option String}
    {pool later : ConstantPool} {e : PoolError}
    (h : superRequest hint superName pool = (.error e, later)) : e = .outOfSpace := by
  cases superName with
  | none => cases h
  | some name => exact outOfSpace_of_classAt h

/-- When there is no room for the superclass, the old one stays. -/
theorem super_of_error (hn : a.classFile.pool.Numbered)
    (hrun : headerSuper new a = (.error error, a')) :
    error = .write (.pool .outOfSpace) ∧ Reheads id a a' := by
  rcases bind_eq_error.mp hrun with h | ⟨superClass, a₁, h, hrun⟩
  · obtain ⟨e, pool, hsuper, rfl, rfl⟩ := growing_eq_error h
    have hgrown : Grown (fun _ => True) a.classFile.pool pool :=
      grown_of_run hsuper (grown_superRequest hn fun _ _ => trivial)
    rw [outOfSpace_of_superRequest hsuper]
    exact ⟨rfl, reheads_withPool hn hgrown⟩
  · cases hrun

/-- When the superclass has been accepted, it is in place. -/
theorem super_of_ok (hn : a.classFile.pool.Numbered) (hrun : headerSuper new a = (.ok (), a')) :
    Reheads (fun old => { old with superName := new.superName }) a a' := by
  obtain ⟨superClass, a₁, h, hrun⟩ := bind_eq_ok.mp hrun
  obtain ⟨pool, hsuper, rfl⟩ := growing_eq_ok.mp h
  cases hrun
  have hgrown : Grown (fun _ => True) a.classFile.pool pool :=
    grown_of_run hsuper (grown_superRequest hn fun _ _ => trivial)
  have hpool := reheads_withPool hn hgrown
  refine ⟨rfl, hpool.numbered, fun old hold => ?_⟩
  have hkept := hpool.holds old hold
  exact ⟨hkept.minor, hkept.major, hkept.access, hkept.thisClass,
    superNamed_of_request hpool.numbered (GrowsInto.refl _) rfl hsuper, hkept.interfaces⟩

/-- A header whose interfaces are refused has grown the pool at most since its superclass. -/
theorem back_of_error (hn : a.classFile.pool.Numbered)
    (hrun : headerBack new a = (.error error, a')) :
    (∃ cause, error = .write cause ∧
      (cause = .pool .outOfSpace ∨ cause = .tooMany .interfaces new.interfaces.length)) ∧
      Reheads id a a' := by
  unfold headerBack at hrun
  by_cases hcount : new.interfaces.length ≤ maxCount
  · rw [bind_of_ok (checkCount_of_le hcount a)] at hrun
    rcases bind_eq_error.mp hrun with h | ⟨interfaces, a₁, -, hrun⟩
    · obtain ⟨e, pool, hrequest, rfl, rfl⟩ := growing_eq_error h
      have hgrown : Grown (fun _ => True) a.classFile.pool pool :=
        grown_of_run hrequest (grown_classesAt hn (fun _ _ => trivial) _)
      rw [outOfSpace_of_classesOnto hrequest]
      exact ⟨⟨_, rfl, .inl rfl⟩, reheads_withPool hn hgrown⟩
    · cases hrun
  · rw [bind_of_error (checkCount_of_lt (Nat.lt_of_not_le hcount) a)] at hrun
    cases hrun
    exact ⟨⟨_, rfl, .inr rfl⟩, reheads_withPool hn (Grown.refl _ _)⟩

end ClassAssembly

/-- A refused header leaves part of itself over the header that was in place. -/
theorem overlays_of_error (hn : a.classFile.pool.Numbered) {new : ClassHeader} {error : Error}
    (hrun : ClassAssembly.header new a = (.error error, a')) :
    ∃ change, Reheads change a a' ∧ ∀ old, Overlays old new error (change old) := by
  cases hended : a.ended with
  | true =>
    rw [ClassAssembly.header_of_ended hended] at hrun
    cases hrun
    exact ⟨id, ⟨rfl, hn, fun _ hold => hold⟩, fun _ => .late⟩
  | false =>
    rw [ClassAssembly.header_of_open hended, ClassAssembly.headerFront_eq] at hrun
    -- the header stops at its name, at its superclass or behind it, with what came before in place
    rcases bind_eq_error.mp hrun with hfront | ⟨⟨⟩, a₂, hfront, hback⟩
    · rcases bind_eq_error.mp hfront with hname | ⟨⟨⟩, a₁, hname, hsuper⟩
      · obtain ⟨rfl, hflags⟩ := ClassAssembly.name_of_error hn hname
        exact ⟨_, hflags, fun _ => .flags⟩
      · have hnamed := ClassAssembly.name_of_ok hn hname
        obtain ⟨rfl, hkept⟩ := ClassAssembly.super_of_error hnamed.numbered hsuper
        exact ⟨_, hnamed.trans hkept, fun _ => .name⟩
    · obtain ⟨⟨⟩, a₁, hname, hsuper⟩ := bind_eq_ok.mp hfront
      have hnamed := ClassAssembly.name_of_ok hn hname
      have hsupered := hnamed.trans (ClassAssembly.super_of_ok hnamed.numbered hsuper)
      obtain ⟨⟨cause, rfl, hcause⟩, hkept⟩ :=
        ClassAssembly.back_of_error hsupered.numbered hback
      exact ⟨_, hsupered.trans hkept, fun _ => .superName hcause⟩

theorem answer_of_header {new : ClassHeader} {result : Except Error Unit}
    (h : ClassAssembly.header new a = (result, a')) :
    ClassAssembly.sink.answer (.header new) a = (.piece result, a') := by
  simp only [ClassSink.answer, ClassAssembly.sink, h]

/-! ## Other events -/

/-- What an event that is no header leaves of the header, and of the methods before it. -/
structure MemberFrame (a a' : ClassAssembly) : Prop where
  grown : Grown (fun _ => True) a.classFile.pool a'.classFile.pool
  headerSeen : a'.headerSeen = a.headerSeen
  minor : a'.classFile.minor = a.classFile.minor
  major : a'.classFile.major = a.classFile.major
  access : a'.classFile.access = a.classFile.access
  thisClass : a'.classFile.thisClass = a.classFile.thisClass
  superClass : a'.classFile.superClass = a.classFile.superClass
  interfaces : a'.classFile.interfaces = a.classFile.interfaces
  methods : a.classFile.methods.toList <+: a'.classFile.methods.toList

theorem MemberFrame.refl (a : ClassAssembly) : MemberFrame a a :=
  ⟨Grown.refl _ _, rfl, rfl, rfl, rfl, rfl, rfl, rfl, List.prefix_rfl⟩

theorem memberFrame_withPool {pool : ConstantPool}
    (hgrown : Grown (fun _ => True) a.classFile.pool pool) : MemberFrame a (a.withPool pool) :=
  ⟨hgrown, rfl, rfl, rfl, rfl, rfl, rfl, rfl, List.prefix_rfl⟩

/-- A header that is held is held behind an event that keeps it. -/
theorem MemberFrame.holdsHeader (h : MemberFrame a a') {g : ClassHeader}
    (hg : HoldsHeader a.classFile g) : HoldsHeader a'.classFile g := by
  have hkept := hg.withPool h.grown.growsInto
  refine ⟨h.minor.trans hkept.minor, h.major.trans hkept.major, h.access.trans hkept.access, ?_,
    ?_, ?_⟩
  · rw [h.thisClass]
    exact hkept.thisClass
  · have hsuper := hkept.superClass
    unfold SuperNamed at hsuper ⊢
    rw [h.superClass]
    exact hsuper
  · rw [h.interfaces]
    exact hkept.interfaces

/-- A field keeps the header and the methods. -/
theorem memberFrame_field (hn : a.classFile.pool.Numbered) (d : FieldDecl) :
    MemberFrame a (ClassAssembly.field d a).2 := by
  have hgrown : Grown (fun _ => True) a.classFile.pool (fieldRequest d a.classFile.pool).2 :=
    grown_fieldRequest hn trivial trivial
  rw [ClassAssembly.field_guarded]
  obtain ⟨error, pool, hpool, hguarded⟩ | ⟨f, pool, hpool, -, -, hguarded⟩ :=
    ClassAssembly.guarded_cases .field .fields (·.fields.size) hgrown
  · rw [bind_of_error hguarded]
    exact memberFrame_withPool hpool
  · rw [bind_of_ok hguarded]
    exact ⟨hpool, rfl, rfl, rfl, rfl, rfl, rfl, rfl, List.prefix_rfl⟩

/-- A method keeps the header, and adds behind the methods that are there. -/
theorem memberFrame_method (hn : a.classFile.pool.Numbered) {decl : MethodDecl}
    {sent : List MethodEvent} {answer : Answer}
    (hrun : ClassAssembly.sink.answer (.method decl sent) a = (answer, a')) : MemberFrame a a' := by
  have hgrown : Grown (fun _ => True) a.classFile.pool (declareRequest decl a.classFile.pool).2 :=
    grown_declareRequest hn trivial trivial (fun _ _ => trivial) (fun _ _ => trivial)
      fun _ => trivial
  obtain ⟨error, pool, hpool, -, rfl⟩ |
    ⟨m, m', pool, answers, hpool, hrequest, -, -, hinside, -⟩ := method_cases hgrown hrun
  · exact memberFrame_withPool hpool
  · have hfirst : (a.withPool pool).classFile.pool.Numbered := hpool.numbered hn
    cases inside_of_answers (tracks_of_request hn hrequest) hfirst trivial
      (fun _ _ _ _ => trivial) hinside with
    | unfinished hgrown' hc hnot _ =>
      rw [hc]
      exact ⟨hpool.trans hgrown', rfl, rfl, rfl, rfl, rfl, rfl, rfl, List.prefix_rfl⟩
    | @finished _ member _ hgrown' hc hmem _ _ hbody hhas htells =>
      rw [hc]
      exact ⟨hpool.trans hgrown', rfl, rfl, rfl, rfl, rfl, rfl, rfl,
        ⟨[member], Array.toList_push.symm⟩⟩

theorem memberFrame_classAttribute (a : ClassAssembly) (attr : Attribute) :
    MemberFrame a (ClassAssembly.classAttribute attr a).2 := by
  unfold ClassAssembly.classAttribute
  obtain hopen | ⟨error, herror⟩ := ClassAssembly.checkOpen_cases .attribute a
  · rw [bind_of_ok hopen]
    exact ⟨Grown.refl _ _, rfl, rfl, rfl, rfl, rfl, rfl, rfl, List.prefix_rfl⟩
  · rw [bind_of_error herror]
    exact MemberFrame.refl a

theorem memberFrame_finish (a : ClassAssembly) : MemberFrame a (ClassAssembly.finish a).2 := by
  obtain ⟨hfile, hseen⟩ := finish_state a
  generalize (ClassAssembly.finish a).2 = after at hfile hseen
  obtain ⟨classFile, headerSeen, ended⟩ := after
  cases hfile
  cases hseen
  exact ⟨Grown.refl _ _, rfl, rfl, rfl, rfl, rfl, rfl, rfl, List.prefix_rfl⟩

/-- An event that is no header leaves the header alone, whatever it is answered. -/
theorem memberFrame_of_answer (hn : a.classFile.pool.Numbered) {e : ClassEvent} {answer : Answer}
    (he : ∀ new, e ≠ .header new) (hrun : ClassAssembly.sink.answer e a = (answer, a')) :
    MemberFrame a a' := by
  cases e with
  | header new => exact absurd rfl (he new)
  | method decl sent => exact memberFrame_method hn hrun
  | field d =>
    cases hrun
    exact memberFrame_field hn d
  | «attribute» attr =>
    cases hrun
    exact memberFrame_classAttribute a attr
  | finish =>
    cases hrun
    exact memberFrame_finish a

/-! ## All events -/

variable {start : ConstantPool}

/-- A class whose header has been seen has accepted one, and the last that it has accepted is in
place, with the refused ones behind it over it. -/
theorem inPlace_of_answers (hn : start.Numbered) {events : List ClassEvent}
    {answers : Array Answer}
    (hrun : ClassAssembly.sink.answers events (.ofPool start) = (answers, a))
    (hseen : a.headerSeen = true) :
    ∃ before h after g,
      events.zip answers.toList = before ++ (.header h, .piece (.ok ())) :: after ∧
      (∀ new, (.header new, .piece (.ok ())) ∉ after) ∧ InPlace h after g ∧
      HoldsHeader a.classFile g := by
  induction events using List.reverseRecOn generalizing answers a with
  | nil =>
    cases hrun
    cases hseen
  | append_singleton events e ih =>
    cases hbefore : ClassAssembly.sink.answers events (.ofPool start) with
    | mk answers' mid =>
      have hholds : Holds (fun _ => True) start mid (taken events answers'.toList) :=
        holds_of_answers hn (fun _ => trivial) (fun _ _ _ _ => trivial) hbefore
      have hmid := hholds.grown.numbered hn
      cases hanswer : ClassAssembly.sink.answer e mid with
      | mk answer a'' =>
        cases (answers_snoc hbefore hanswer).symm.trans hrun
        rw [zip_answers_snoc (size_answers hbefore)]
        by_cases he : ∀ new, e ≠ .header new
        · have hframe := memberFrame_of_answer hmid he hanswer
          obtain ⟨before, h, after, g, hsplit, hlast, hplace, hheld⟩ :=
            ih hbefore (hframe.headerSeen.symm.trans hseen)
          refine ⟨before, h, after ++ [(e, answer)], g, ?_, ?_, .other he hplace,
            hframe.holdsHeader hheld⟩
          · rw [hsplit, List.append_assoc, List.cons_append]
          · intro new hmem
            rcases List.mem_append.mp hmem with hmem | hmem
            · exact hlast new hmem
            · cases List.mem_singleton.mp hmem
              exact he new rfl
        · obtain ⟨new, rfl⟩ := not_forall_not.mp he
          cases hheader : ClassAssembly.header new mid with
          | mk result a₁ =>
            cases hanswer.symm.trans (answer_of_header hheader)
            cases result with
            | ok =>
              -- it takes the place of whatever was there
              obtain ⟨hheld, -⟩ := ClassAssembly.holdsHeader_of_ok hmid hheader
              exact ⟨events.zip answers'.toList, new, [], new, rfl,
                fun _ => List.not_mem_nil, .start, hheld⟩
            | error error =>
              obtain ⟨change, hreheads, hover⟩ := overlays_of_error hmid hheader
              obtain ⟨before, h, after, old, hsplit, hlast, hplace, hheld⟩ :=
                ih hbefore (hreheads.headerSeen.symm.trans hseen)
              refine ⟨before, h, after ++ [(.header new, .piece (.error error))], change old, ?_,
                ?_, .refused hplace (hover old), hreheads.holds old hheld⟩
              · rw [hsplit, List.append_assoc, List.cons_append]
              · intro new' hmem
                rcases List.mem_append.mp hmem with hmem | hmem
                · exact hlast new' hmem
                · cases List.mem_singleton.mp hmem

/-- A class that can be written, whatever it was sent, has a header in place that goes back to the
last one it has accepted, over which the refused ones behind it have left their parts. The
interfaces are those of the accepted header. The class is written with the accepted header if and
only if the one in place is the same; so it is if all refusals behind it came after the end. -/
theorem header_of_answers (hn : start.Numbered) {events : List ClassEvent}
    {answers : Array Answer} {bytes : Bytes}
    (hrun : ClassAssembly.sink.answers events (.ofPool start) = (answers, a))
    (hbytes : a.bytes = .ok bytes) :
    bytes = a.classFile.encode ∧ ∃ before h after g,
      events.zip answers.toList = before ++ (.header h, .piece (.ok ())) :: after ∧
      (∀ new, (.header new, .piece (.ok ())) ∉ after) ∧ InPlace h after g ∧
      HoldsHeader a.classFile g ∧ g.interfaces = h.interfaces ∧
      (HoldsHeader a.classFile h ↔ g = h) ∧
      ((∀ new error, (.header new, .piece (.error error)) ∈ after →
        error = .write (.afterEnd .header new.name)) → g = h) := by
  obtain ⟨hseen, hencode⟩ := bytes_eq_ok.mp hbytes
  obtain ⟨before, h, after, g, hsplit, hlast, hplace, hheld⟩ := inPlace_of_answers hn hrun hseen
  refine ⟨hencode, before, h, after, g, hsplit, hlast, hplace, hheld, hplace.interfaces, ?_,
    hplace.eq_of_late⟩
  constructor
  · intro hh
    exact hheld.inj hh hplace.interfaces hplace.slots
  · rintro rfl
    exact hheld

/-- The header of another class. -/
def otherHeader : ClassHeader := { plainHeader with major := 61, name := "B" }

/-- A header that comes after the end does not take the place of the one that was accepted. -/
theorem header_of_answers_plain :
    ConstantPool.empty.Numbered ∧
      ClassAssembly.sink.answers [.header plainHeader, .finish, .header otherHeader] .empty =
        (#[.piece (.ok ()), .piece (.ok ()), .piece (.error (.write (.afterEnd .header "B")))],
          { plainAssembly with ended := true }) ∧
      ({ plainAssembly with ended := true } : ClassAssembly).bytes =
        .ok plainAssembly.classFile.encode ∧
      HoldsHeader plainAssembly.classFile plainHeader := by
  have hempty : ConstantPool.empty.Numbered := by simp [Numbered, ConstantPool.empty, size]
  have hfinish : ClassAssembly.sink.answer .finish plainAssembly =
      (.piece (.ok ()), { plainAssembly with ended := true }) := rfl
  have hlate := ClassAssembly.answer_of_ended (a := { plainAssembly with ended := true }) rfl
    (.header otherHeader)
  have hrun := answers_snoc (answers_snoc answers_plainHeader hfinish) hlate
  obtain ⟨-, before, h, after, g, hsplit, -, -, hheld, -, -, hsame⟩ :=
    header_of_answers hempty hrun rfl
  have hmem : ∀ p ∈ before ++ (ClassEvent.header h, Answer.piece (.ok ())) :: after,
      p ∈ [(.header plainHeader, .piece (.ok ())), (.finish, .piece (.ok ())),
        (.header otherHeader, .piece (.error (.write (.afterEnd .header "B"))))] := by
    intro p hp
    rw [← hsplit] at hp
    exact hp
  have haccepted : h = plainHeader := by
    have hfound := hmem (.header h, .piece (.ok ())) (by simp)
    simpa using hfound
  have hg : g = h := by
    refine hsame fun new error hafter => ?_
    have hfound := hmem (.header new, .piece (.error error)) (by simp [hafter])
    simp only [List.mem_cons, Prod.mk.injEq, ClassEvent.header.injEq, Answer.piece.injEq,
      reduceCtorEq, and_false, false_or, List.not_mem_nil, or_false,
      Except.error.injEq] at hfound
    rw [hfound.1, hfound.2]
    rfl
  rw [hg, haccepted] at hheld
  exact ⟨hempty, hrun, rfl, hheld⟩

/-! ## A header that is put in place in part -/

/-- The header of another class, with more interfaces than can be counted. -/
def crowdedHeader : ClassHeader := { otherHeader with interfaces := List.replicate 65536 "I" }

/-- The class of the first header when it has refused this one. -/
def tornAssembly : ClassAssembly where
  classFile :=
    { ClassFile.empty with
      major := 61, pool := ⟨#[.utf8 "A", .classRef 1, .utf8 "B", .classRef 3]⟩, thisClass := 4 }
  headerSeen := true
  ended := false

/-- A class that has accepted one header and refused another is written with the version and the
name of the other. -/
theorem not_plainHeader_of_crowdedHeader :
    ClassAssembly.sink.answers [.header plainHeader, .header crowdedHeader] .empty =
        (#[.piece (.ok ()), .piece (.error (.write (.tooMany .interfaces 65536)))],
          tornAssembly) ∧
      tornAssembly.bytes = .ok tornAssembly.classFile.encode ∧
      HoldsHeader tornAssembly.classFile otherHeader ∧
      ¬ HoldsHeader tornAssembly.classFile plainHeader := by
  have hlen : crowdedHeader.interfaces.length = 65536 := List.length_replicate
  have hlong : maxCount < crowdedHeader.interfaces.length := by
    rw [hlen]
    decide
  have hfront : @Eq (Except Error Unit × ClassAssembly)
      (ClassAssembly.headerFront crowdedHeader plainAssembly) (.ok (), tornAssembly) := by
    decide +kernel
  have hback : ClassAssembly.headerBack crowdedHeader tornAssembly =
      (.error (.write (.tooMany .interfaces 65536)), tornAssembly) := by
    rw [← hlen]
    exact bind_of_error (ClassAssembly.checkCount_of_lt hlong _)
  have hrefused : ClassAssembly.header crowdedHeader plainAssembly =
      (.error (.write (.tooMany .interfaces 65536)), tornAssembly) := by
    rw [ClassAssembly.header_of_open rfl]
    exact (bind_of_ok hfront).trans hback
  have hrun := answers_snoc answers_plainHeader (answer_of_header hrefused)
  refine ⟨hrun, rfl, ?_, fun hheld => ?_⟩
  · exact ⟨rfl, rfl, rfl, by decide +kernel, rfl, .nil⟩
  · have hmajor : (61 : UInt16) = 52 := hheld.major
    cases hmajor

end JvmStub
