/-
`Endings.lean` -- what comes after an end.

A class and each of its methods can be sent anything in any order, and the end is an
event like the others: it may be refused, and events may come behind it. The first
end is the last event that does anything, refused or not. What comes behind it is
refused as too late, by the name of its event, and leaves the method and the class
as they were. So the end of a method is accepted once at most.

Together with `holds_of_answers` this is the account of a class under construction
that needs no look at single events: the class file is made of what was accepted, in
its order, and once the end has come nothing is accepted any more.

A refusal names the method that was declared. That its name is never changed is read
off `outcome_receive`, like all that is said of one event.
-/
import JvmStub.Proofs.Assembly.Tables

set_option autoImplicit false

namespace JvmStub

open ConstantPool PoolM

/-! ## What was accepted -/

/-- Nothing that is too late is accepted. -/
theorem acceptedOf_late (name : String) (events : List MethodEvent) :
    acceptedOf events (events.map (MethodEvent.late name)) = [] := by
  induction events with
  | nil => rfl
  | cons e events ih => exact ih

/-- What is accepted was sent, in this order. -/
theorem acceptedOf_sublist {events : List MethodEvent} {answers : List (Except Error Unit)}
    (hlen : events.length = answers.length) : (acceptedOf events answers).Sublist events := by
  have hsublist := (List.filter_sublist (p := fun p => p.2.toBool) (l := events.zip answers)).map
    Prod.fst
  rwa [List.map_fst_zip (Nat.le_of_eq hlen)] at hsublist

/-! ## The end of a method -/

namespace MethodAssembly

variable {m m' : MethodAssembly} {c c' : ClassAssembly} {e : MethodEvent}
  {answer : Except Error Unit}

/-- An event inside a method grows the pool, whatever it is answered. -/
theorem grown_of_receive (hn : c.classFile.pool.Numbered)
    (hrun : receive e (m, c) = (answer, (m', c'))) :
    Grown (fun _ => True) c.classFile.pool c'.classFile.pool := by
  have houtcome : Outcome (fun _ => True) m c e (receive e (m, c)) :=
    outcome_receive hn (fun _ _ => trivial) trivial
  rw [hrun] at houtcome
  cases houtcome with
  | accepted hopen haccepts => exact haccepts.grown hn (fun _ _ => trivial) trivial
  | refused error hrefuses =>
    obtain ⟨pool, hgrown, rfl⟩ := hrefuses.classFile
    exact hgrown

/-- No event changes the name of a method. -/
theorem name_of_receive (hn : c.classFile.pool.Numbered)
    (hrun : receive e (m, c) = (answer, (m', c'))) :
    m'.name = m.name ∧ c'.classFile.pool.Numbered := by
  refine ⟨?_, (grown_of_receive hn hrun).numbered hn⟩
  have houtcome : Outcome (fun _ => True) m c e (receive e (m, c)) :=
    outcome_receive hn (fun _ _ => trivial) trivial
  rw [hrun] at houtcome
  cases houtcome with
  | accepted hopen haccepts => cases haccepts <;> rfl
  | refused error hrefuses => exact hrefuses.name

/-- A method has ended when its end has come, whether it was accepted or not. -/
theorem ended_of_finish (hn : c.classFile.pool.Numbered)
    (hrun : receive .finish (m, c) = (answer, (m', c'))) : m'.ended = true := by
  have houtcome : Outcome (fun _ => True) m c .finish (receive .finish (m, c)) :=
    outcome_receive hn (fun _ _ => trivial) trivial
  rw [hrun] at houtcome
  cases houtcome with
  | accepted hopen haccepts =>
    cases haccepts
    rfl
  | refused error hrefuses => exact hrefuses.ended.mpr (.inr rfl)

/-- The name stays through any events. -/
theorem name_of_answers (hn : c.classFile.pool.Numbered) {sent : List MethodEvent}
    {answers : Array (Except Error Unit)}
    (hrun : ClassAssembly.sink.answersInMethod sent m c = (answers, (m', c'))) :
    m'.name = m.name ∧ c'.classFile.pool.Numbered := by
  induction sent using List.reverseRecOn generalizing answers m' c' with
  | nil =>
    cases hrun
    exact ⟨rfl, hn⟩
  | append_singleton sent e ih =>
    cases hbefore : ClassAssembly.sink.answersInMethod sent m c with
    | mk before state =>
      obtain ⟨mid, cmid⟩ := state
      obtain ⟨hname, hmid⟩ := ih hbefore
      cases hanswer : receive e (mid, cmid) with
      | mk answer state' =>
        obtain ⟨m'', c''⟩ := state'
        cases (answersInMethod_snoc hbefore hanswer).symm.trans hrun
        obtain ⟨hname', hlast⟩ := name_of_receive hmid hanswer
        exact ⟨hname'.trans hname, hlast⟩

/-- A method that has ended refuses all events as too late. -/
theorem answers_of_ended (h : m.ended = true) (sent : List MethodEvent) :
    ClassAssembly.sink.answersInMethod sent m c =
      ((sent.map (MethodEvent.late m.name)).toArray, (m, c)) := by
  induction sent using List.reverseRecOn with
  | nil => rfl
  | append_singleton sent e ih =>
    rw [answersInMethod_snoc ih (receive_of_ended h e), List.push_toArray, List.map_append]
    rfl

/-- What is sent behind an end is refused as too late, and the method and the class are what they
were when the end had come. -/
theorem answers_behind_finish (hn : c.classFile.pool.Numbered) (before after : List MethodEvent) :
    ∃ early state, ClassAssembly.sink.answersInMethod (before ++ [.finish]) m c = (early, state) ∧
      ClassAssembly.sink.answersInMethod (before ++ .finish :: after) m c =
        (early ++ (after.map (MethodEvent.late m.name)).toArray, state) := by
  cases hbefore : ClassAssembly.sink.answersInMethod before m c with
  | mk answers state =>
    obtain ⟨mid, cmid⟩ := state
    obtain ⟨hname, hmid⟩ := name_of_answers hn hbefore
    cases hfinish : ClassAssembly.sink.inMethod .finish (mid, cmid) with
    | mk answer state' =>
      obtain ⟨m', c'⟩ := state'
      have hend := answersInMethod_snoc hbefore hfinish
      have hreceive : receive .finish (mid, cmid) = (answer, (m', c')) := hfinish
      have hlate := answers_of_ended (c := c') (ended_of_finish hmid hreceive) after
      rw [(name_of_receive hmid hreceive).1, hname] at hlate
      refine ⟨_, _, hend, ?_⟩
      rw [List.append_cons]
      exact answersInMethod_append hend hlate

/-- The end of a method is accepted once at most. -/
theorem count_finish_le (hn : c.classFile.pool.Numbered) {sent : List MethodEvent}
    {answers : Array (Except Error Unit)} {state : MethodAssembly × ClassAssembly}
    (hrun : ClassAssembly.sink.answersInMethod sent m c = (answers, state)) :
    (acceptedOf sent answers.toList).count .finish ≤ 1 := by
  have hlen : sent.length = answers.toList.length := by simp [size_answersInMethod hrun]
  by_cases hmem : MethodEvent.finish ∈ sent
  · -- in front of the first end there is none, and behind it nothing is accepted
    obtain ⟨before, after, rfl, hfirst⟩ := List.eq_append_cons_of_mem hmem
    obtain ⟨early, state', hend, hall⟩ := answers_behind_finish hn before after
    cases hall.symm.trans hrun
    have hearly : (before ++ [MethodEvent.finish]).length = early.toList.length := by
      simp [size_answersInMethod hend]
    rw [List.append_cons, Array.toList_append, acceptedOf_append hearly, acceptedOf_late,
      List.append_nil]
    refine Nat.le_trans ((acceptedOf_sublist hearly).count_le _) ?_
    rw [List.count_append, List.count_eq_zero.mpr hfirst, List.count_singleton_self]
  · refine Nat.le_trans ((acceptedOf_sublist hlen).count_le _) ?_
    rw [List.count_eq_zero.mpr hmem]
    exact Nat.zero_le 1

end MethodAssembly

/-- A method that has been declared goes by the declared name and has no body. -/
theorem fresh_of_declareRequest {decl : MethodDecl} {pool later : ConstantPool}
    {m : MethodAssembly} (h : declareRequest decl pool = (.ok m, later)) :
    m.name = decl.name ∧ m.body = .absent := by
  obtain ⟨nameSlot, p₁, -, h⟩ := bind_eq_ok.mp h
  obtain ⟨descriptorSlot, p₂, -, h⟩ := bind_eq_ok.mp h
  obtain ⟨exceptions, p₃, -, h⟩ := bind_eq_ok.mp h
  obtain ⟨signature, p₄, -, h⟩ := bind_eq_ok.mp h
  cases h
  exact ⟨rfl, rfl⟩

/-! ## The end of a class -/

/-- The refusal of an event that comes after the end of a class. A header goes by the name of the
class that it would have declared. -/
def ClassEvent.late (target : String) : ClassEvent → Answer
  | .header h => .piece (.error (.write (.afterEnd .header h.name)))
  | .field _ => .piece (.error (.write (.afterEnd .field target)))
  | .method .. => .method (.error (.write (.afterEnd .method target)))
  | .attribute _ => .piece (.error (.write (.afterEnd .attribute target)))
  | .finish => .piece (.error (.write (.afterEnd .finish target)))

namespace ClassAssembly

variable {a : ClassAssembly}

/-- A class that has ended takes nothing more. -/
theorem checkOpen_of_ended (h : a.ended = true) (event : EventName) :
    checkOpen event a = (.error (.write (.afterEnd event a.target)), a) := by
  unfold checkOpen
  rw [bind_of_ok (get_run a)]
  simp only [h, if_true]
  rfl

/-- A class that has ended refuses every event as too late, and is left as it is. -/
theorem answer_of_ended (h : a.ended = true) (e : ClassEvent) :
    sink.answer e a = (e.late a.target, a) := by
  cases e with
  | header hd => simp only [ClassSink.answer, sink, header_of_ended h, ClassEvent.late]
  | field d =>
    have hfield : field d a = (.error (.write (.afterEnd .field a.target)), a) :=
      bind_of_error (checkOpen_of_ended h _)
    simp only [ClassSink.answer, sink, hfield, ClassEvent.late]
  | method decl sent =>
    have hmethod : sink.method decl a = (.error (.write (.afterEnd .method a.target)), a) :=
      bind_of_error (checkOpen_of_ended h _)
    exact answer_of_method_error hmethod
  | «attribute» attr =>
    have hattribute : classAttribute attr a =
        (.error (.write (.afterEnd .attribute a.target)), a) :=
      bind_of_error (checkOpen_of_ended h _)
    simp only [ClassSink.answer, sink, hattribute, ClassEvent.late]
  | finish =>
    have hfinish : finish a = (.error (.write (.afterEnd .finish a.target)), a) := by
      unfold finish
      rw [bind_of_ok (get_run a)]
      simp only [h, if_true]
      rfl
    simp only [ClassSink.answer, sink, hfinish, ClassEvent.late]

/-- A class has ended when its end has come, whether it was accepted or not. -/
theorem ended_of_finish (a : ClassAssembly) : (sink.answer .finish a).2.ended = true := by
  cases hended : a.ended with
  | true =>
    rw [answer_of_ended hended]
    exact hended
  | false =>
    simp only [ClassSink.answer, sink, finish]
    rw [bind_of_ok (get_run a)]
    simp only [hended, Bool.false_eq_true, if_false]
    cases a.headerSeen <;> rfl

/-- A class that has ended refuses all events as too late. -/
theorem answers_of_ended (h : a.ended = true) (events : List ClassEvent) :
    sink.answers events a = ((events.map (ClassEvent.late a.target)).toArray, a) := by
  induction events using List.reverseRecOn with
  | nil => rfl
  | append_singleton events e ih =>
    rw [answers_snoc ih (answer_of_ended h e), List.push_toArray, List.map_append,
      List.map_singleton]

/-- What is sent behind an end is refused as too late, and the class is what it was when the end
had come. -/
theorem answers_behind_finish (before after : List ClassEvent) :
    ∃ early a', sink.answers (before ++ [.finish]) a = (early, a') ∧
      sink.answers (before ++ .finish :: after) a =
        (early ++ (after.map (ClassEvent.late a'.target)).toArray, a') := by
  cases hbefore : sink.answers before a with
  | mk answers mid =>
    have hended := ended_of_finish mid
    cases hfinish : sink.answer .finish mid with
    | mk answer a' =>
      rw [hfinish] at hended
      have hend := answers_snoc hbefore hfinish
      refine ⟨_, a', hend, ?_⟩
      rw [List.append_cons]
      exact answers_append hend (answers_of_ended hended after)

end ClassAssembly

/-! ## All that was accepted -/

variable {start : ConstantPool} {a a' : ClassAssembly}

/-- A method that the class has opened was declared, and then sent its events. -/
theorem opened_of_answer (hn : a.classFile.pool.Numbered) {decl : MethodDecl}
    {sent : List MethodEvent} {answers : Array (Except Error Unit)}
    (hrun : ClassAssembly.sink.answer (.method decl sent) a = (.method (.ok answers), a')) :
    ∃ m m' pool, Grown (fun _ => True) a.classFile.pool pool ∧
      declareRequest decl a.classFile.pool = (.ok m, pool) ∧
      ClassAssembly.sink.method decl a = (.ok m, a.withPool pool) ∧
      ClassAssembly.sink.answersInMethod sent m (a.withPool pool) = (answers, (m', a')) := by
  have hgrown : Grown (fun _ => True) a.classFile.pool (declareRequest decl a.classFile.pool).2 :=
    grown_declareRequest hn trivial trivial (fun _ _ => trivial) (fun _ _ => trivial)
      fun _ => trivial
  obtain ⟨error, pool, -, hanswer, -⟩ |
    ⟨m, m', pool, given, hpool, hrequest, -, hmethod, hinside, hanswer⟩ := method_cases hgrown hrun
  · cases hanswer
  · cases hanswer
    exact ⟨m, m', pool, hpool, hrequest, hmethod, hinside⟩

/-- A method that is told to a class, whatever it is sent: its end is accepted once at most, and
what is sent behind its first end is refused as too late and leaves no trace in the class. -/
theorem ends_of_answer (hn : a.classFile.pool.Numbered) {decl : MethodDecl}
    {sent : List MethodEvent} {answers : Array (Except Error Unit)}
    (hrun : ClassAssembly.sink.answer (.method decl sent) a = (.method (.ok answers), a')) :
    (acceptedOf sent answers.toList).count .finish ≤ 1 ∧
      ∀ before after, sent = before ++ .finish :: after → ∃ early,
        ClassAssembly.sink.answer (.method decl (before ++ [.finish])) a =
          (.method (.ok early), a') ∧
        answers.toList = early.toList ++ after.map (MethodEvent.late decl.name) := by
  obtain ⟨m, m', pool, hpool, hrequest, hmethod, hinside⟩ := opened_of_answer hn hrun
  have hfirst : (a.withPool pool).classFile.pool.Numbered := hpool.numbered hn
  refine ⟨MethodAssembly.count_finish_le hfirst hinside, ?_⟩
  rintro before after rfl
  obtain ⟨early, state', hend, hall⟩ :=
    MethodAssembly.answers_behind_finish (m := m) hfirst before after
  cases hall.symm.trans hinside
  refine ⟨early, answer_of_method_ok hmethod hend, ?_⟩
  rw [Array.toList_append, (fresh_of_declareRequest hrequest).1]

/-- A class that is told event by event, whatever it is sent, holds exactly what it has accepted:
the pool it started with and more behind it, the fields, the methods whose ends were accepted, and
the attributes, in their order. Behind an end of the class everything is refused as too late and
nothing changes, and so it is behind an end of any method that the class is told next. -/
theorem holds_and_ends_of_answers (hn : start.Numbered) {events : List ClassEvent}
    {answers : Array Answer}
    (hrun : ClassAssembly.sink.answers events (.ofPool start) = (answers, a)) :
    start.GrowsInto a.classFile.pool ∧
      Holds (fun _ => True) start a (taken events answers.toList) ∧
      (∀ before after, events = before ++ .finish :: after → ∃ early,
        ClassAssembly.sink.answers (before ++ [.finish]) (.ofPool start) = (early, a) ∧
          answers.toList = early.toList ++ after.map (ClassEvent.late a.target)) ∧
      ∀ decl sent inside a',
        ClassAssembly.sink.answer (.method decl sent) a = (.method (.ok inside), a') →
        (acceptedOf sent inside.toList).count .finish ≤ 1 ∧
          ∀ before after, sent = before ++ .finish :: after → ∃ early,
            ClassAssembly.sink.answer (.method decl (before ++ [.finish])) a =
              (.method (.ok early), a') ∧
            inside.toList = early.toList ++ after.map (MethodEvent.late decl.name) := by
  have hholds : Holds (fun _ => True) start a (taken events answers.toList) :=
    holds_of_answers hn (fun _ => trivial) (fun _ _ _ _ => trivial) hrun
  refine ⟨hholds.grown.growsInto, hholds, ?_,
    fun _ _ _ _ => ends_of_answer (hholds.grown.numbered hn)⟩
  rintro before after rfl
  obtain ⟨early, a', hend, hall⟩ := ClassAssembly.answers_behind_finish before after
  cases hall.symm.trans hrun
  exact ⟨early, hend, Array.toList_append⟩

/-- A method that takes nothing and returns nothing. -/
def runDecl : MethodDecl where
  access := 1
  name := "run"
  descriptor := "()V"
  signature := none
  exceptions := []
  slots := none

/-- The method when it has been declared to a class with no more than a header, -/
def runMethod : MethodAssembly where
  access := 1
  name := "run"
  nameSlot := 3
  descriptorSlot := 4
  leading := #[]
  forwarded := #[]
  body := .absent
  ended := false

/-- and that class. -/
def runAssembly : ClassAssembly :=
  plainAssembly.withPool ⟨#[.utf8 "A", .classRef 1, .utf8 "run", .utf8 "()V"]⟩

/-- The declaration is accepted, and adds its name and its type. -/
theorem begin_runDecl : ClassAssembly.sink.method runDecl plainAssembly =
    (.ok runMethod, runAssembly) := by
  have hbegin : @Eq (Except Error MethodAssembly × ClassAssembly)
      (MethodAssembly.begin runDecl plainAssembly) (.ok runMethod, runAssembly) := by
    decide +kernel
  exact hbegin

/-! ## A class that is told out of order -/

deriving instance DecidableEq for Answer

/-- A pool with a constant that no event asks for. -/
def strayPool : ConstantPool := ⟨#[.utf8 "kept"]⟩

/-- A field whose slots are stale: there is another constant in both. -/
def strayField : FieldDecl where
  access := 2
  name := "x"
  descriptor := "I"
  attributes := #[⟨1, [9]⟩]
  slots := some { name := 1, descriptor := 1 }

/-- A method whose slots are stale, one of them behind the end of the pool, -/
def strayDecl : MethodDecl := { runDecl with slots := some { name := 1, descriptor := 40 } }

/-- and what it is sent: the end of a body that was not begun, an attribute, and two ends. -/
def straySent : List MethodEvent := [.endBody 0 0, .attribute ⟨1, [7]⟩, .finish, .finish]

/-- An attribute that comes before the header, the header, the field and the method, a method that
ends inside its body, one that is left without an end, and an attribute. -/
def strayEvents : List ClassEvent :=
  [.attribute ⟨1, []⟩,
    .header ⟨0, 52, 1, "A", none, ["I"], none⟩,
    .field strayField,
    .method strayDecl straySent,
    .method { runDecl with name := "open" } [.beginBody, .finish],
    .method { runDecl with name := "left" } [.attribute ⟨1, []⟩],
    .attribute ⟨1, [5]⟩]

/-- What the class answers. -/
def strayAnswers : Array Answer :=
  #[.piece (.error (.write .missingHeader)),
    .piece (.ok ()),
    .piece (.ok ()),
    .method (.ok #[.error (.write (.noOpenBody .endBody "run")), .ok (), .ok (),
      .error (.write (.afterEnd .finish "run"))]),
    .method (.ok #[.ok (), .error (.write (.unclosedBody "open"))]),
    .method (.ok #[.ok ()]),
    .piece (.ok ())]

/-- What becomes of it. -/
def strayAssembly : ClassAssembly where
  classFile :=
    { ClassFile.empty with
      major := 52
      pool := ⟨#[.utf8 "kept", .utf8 "A", .classRef 2, .utf8 "I", .classRef 4, .utf8 "x",
        .utf8 "run", .utf8 "()V", .utf8 "open", .utf8 "left"]⟩
      access := 1
      thisClass := 3
      interfaces := #[5]
      fields := #[⟨2, 6, 4, #[⟨1, [9]⟩]⟩]
      methods := #[⟨1, 7, 8, #[⟨1, [7]⟩]⟩]
      attributes := #[⟨1, [5]⟩] }
  headerSeen := true
  ended := false

/-- What it has accepted: of the three methods the first. -/
def strayTaken : Taken where
  header := some ⟨0, 52, 1, "A", none, ["I"], none⟩
  fields := [strayField]
  methods := [⟨strayDecl, straySent, [.attribute ⟨1, [7]⟩, .finish]⟩]
  attributes := [⟨1, [5]⟩]

/-- The events are answered like this, and the class comes out like this. -/
theorem answers_strayEvents :
    ClassAssembly.sink.answers strayEvents (.ofPool strayPool) = (strayAnswers, strayAssembly) := by
  decide +kernel

/-- The class holds its field, its method and its attribute. When it ends, a field that comes behind
the end is refused; and a method that it is told instead refuses a body and a second end. -/
theorem holds_and_ends_of_answers_stray :
    strayPool.Numbered ∧
      ClassAssembly.sink.answers (strayEvents ++ [.finish, .field strayField]) (.ofPool strayPool) =
        (strayAnswers ++
          #[.piece (.ok ()), .piece (.error (.write (.afterEnd .field "A")))],
          { strayAssembly with ended := true }) ∧
      strayPool.GrowsInto strayAssembly.classFile.pool ∧
      Holds (fun _ => True) strayPool { strayAssembly with ended := true } strayTaken ∧
      (∃ early, ClassAssembly.sink.answers (strayEvents ++ [.finish]) (.ofPool strayPool) =
          (early, { strayAssembly with ended := true }) ∧
        strayAnswers.toList ++ [.piece (.ok ()), .piece (.error (.write (.afterEnd .field "A")))] =
          early.toList ++ [.piece (.error (.write (.afterEnd .field "A")))]) ∧
      ClassAssembly.sink.answer (.method runDecl [.finish, .beginBody, .finish]) strayAssembly =
        (.method (.ok #[.ok (), .error (.write (.afterEnd .beginBody "run")),
            .error (.write (.afterEnd .finish "run"))]),
          strayAssembly.withMethod ⟨1, 7, 8, #[]⟩) ∧
      (acceptedOf [.finish, .beginBody, .finish] [.ok (),
          .error (.write (.afterEnd .beginBody "run")),
          .error (.write (.afterEnd .finish "run"))]).count .finish ≤ 1 := by
  have hnumbered : strayPool.Numbered := by simp [Numbered, strayPool, size]
  have hlate : ClassAssembly.sink.answers (strayEvents ++ [.finish, .field strayField])
      (.ofPool strayPool) = (strayAnswers ++
        #[.piece (.ok ()), .piece (.error (.write (.afterEnd .field "A")))],
        { strayAssembly with ended := true }) := by
    decide +kernel
  have htaken : taken (strayEvents ++ [.finish, .field strayField]) (strayAnswers.toList ++
      [.piece (.ok ()), .piece (.error (.write (.afterEnd .field "A")))]) = strayTaken := by
    decide +kernel
  have htarget : ({ strayAssembly with ended := true } : ClassAssembly).target = "A" := by
    decide +kernel
  obtain ⟨hgrows, hholds, hends, -⟩ := holds_and_ends_of_answers hnumbered hlate
  obtain ⟨early, hearly, hanswers⟩ := hends strayEvents [.field strayField] rfl
  rw [Array.toList_append] at hholds hanswers
  rw [htarget] at hanswers
  obtain ⟨-, -, -, hmethods⟩ := holds_and_ends_of_answers hnumbered answers_strayEvents
  have hanswer : ClassAssembly.sink.answer (.method runDecl [.finish, .beginBody, .finish])
      strayAssembly = (.method (.ok #[.ok (), .error (.write (.afterEnd .beginBody "run")),
        .error (.write (.afterEnd .finish "run"))]), strayAssembly.withMethod ⟨1, 7, 8, #[]⟩) := by
    decide +kernel
  exact ⟨hnumbered, hlate, hgrows, htaken ▸ hholds, ⟨early, hearly, hanswers⟩, hanswer,
    (hmethods _ _ _ _ hanswer).1⟩

end JvmStub
