/-
`KeptBodies.lean` -- which bodies reach the class.

A method accepts a body as a whole or instruction by instruction, and whoever sent it
counts on finding it in the class when the end has been accepted too. There is one
way in which an accepted body is not there: it was being told instruction by
instruction and its end was refused because it had grown too long. The method then
forgets that it had a body, so its own end is accepted, where the end of a method
whose body is merely left open is refused.

`KeepsBody` says of the events and their answers alone whether a body survives. The
step lemma `body_of_receive` and the run lemma `body_of_answers` tie it to the body of
the method under construction, and `body_of_answer` to the method that the class gets.
At the end of the file is the shortest method of that kind, one byte too long.
-/
import JvmStub.Proofs.Assembly.Endings

set_option autoImplicit false

namespace JvmStub

open ConstantPool

/-- The event begins a body, or is a whole one. -/
def MethodEvent.opensBody : MethodEvent → Bool
  | .beginBody | .body _ => true
  | .attribute _ | .instruction _ | .endBody .. | .finish => false

/-- The answer is the refusal that an open body does not survive. -/
def LosesBody (told : MethodEvent × Except Error Unit) : Bool :=
  match told.2 with
  | .ok () => false
  | .error error => told.1.losesBody error

/-- A body was accepted and has not been lost since. -/
def KeepsBody (told : List (MethodEvent × Except Error Unit)) : Prop :=
  ∃ before e after, told = before ++ (e, .ok ()) :: after ∧ e.opensBody = true ∧
    ∀ p ∈ after, LosesBody p = false

theorem not_keepsBody_nil : ¬ KeepsBody [] := by
  rintro ⟨before, e, after, hnil, -⟩
  simp at hnil

/-- One answer more: a body is accepted with it, or one was kept and is not lost. -/
theorem keepsBody_snoc (told : List (MethodEvent × Except Error Unit)) (e : MethodEvent)
    (answer : Except Error Unit) :
    KeepsBody (told ++ [(e, answer)]) ↔
      (answer = .ok () ∧ e.opensBody = true) ∨ (KeepsBody told ∧ LosesBody (e, answer) = false) := by
  constructor
  · rintro ⟨before, opener, after, htold, hopens, hkeeps⟩
    rcases List.eq_nil_or_concat after with rfl | ⟨after, p, rfl⟩
    · -- the last event is the one that brought the body
      obtain ⟨-, hlast⟩ := List.append_inj' htold rfl
      cases hlast
      exact .inl ⟨rfl, hopens⟩
    · rw [List.concat_eq_append, ← List.cons_append, ← List.append_assoc] at htold
      obtain ⟨rfl, hlast⟩ := List.append_inj' htold rfl
      cases hlast
      rw [List.concat_eq_append] at hkeeps
      exact .inr ⟨⟨before, opener, after, rfl, hopens, fun p hp => hkeeps p (by simp [hp])⟩,
        hkeeps _ (by simp)⟩
  · rintro (⟨rfl, hopens⟩ | ⟨⟨before, opener, after, rfl, hopens, hkeeps⟩, hlast⟩)
    · exact ⟨told, e, [], rfl, hopens, by simp⟩
    · refine ⟨before, opener, after ++ [(e, answer)], by simp, hopens, fun p hp => ?_⟩
      rcases List.mem_append.mp hp with hp | hp
      · exact hkeeps p hp
      · rw [List.mem_singleton.mp hp]
        exact hlast

/-- Where nothing is lost, a body is kept as soon as one was accepted. -/
theorem keepsBody_iff_exists {events : List MethodEvent} {answers : List (Except Error Unit)}
    (hkeeps : ∀ p ∈ events.zip answers, LosesBody p = false) :
    KeepsBody (events.zip answers) ↔ ∃ e ∈ acceptedOf events answers, e.opensBody = true := by
  constructor
  · rintro ⟨before, e, after, htold, hopens, -⟩
    refine ⟨e, List.mem_map.mpr ⟨(e, .ok ()), List.mem_filter.mpr ⟨?_, rfl⟩, rfl⟩, hopens⟩
    rw [htold]
    simp
  · rintro ⟨e, he, hopens⟩
    obtain ⟨⟨e', answer⟩, hp, rfl⟩ := List.mem_map.mp he
    obtain ⟨hmem, hok⟩ := List.mem_filter.mp hp
    cases answer with
    | error error => cases hok
    | ok =>
      obtain ⟨before, after, hsplit⟩ := List.append_of_mem hmem
      exact ⟨before, e', after, hsplit, hopens, fun p hp => hkeeps p (by simp [hsplit, hp])⟩

/-! ## A method under construction -/

namespace MethodAssembly

variable {m m' : MethodAssembly} {c c' : ClassAssembly}

/-- What one event does to the body of a method: it has one afterwards if the event brought it, or
if it had one and does not lose it. -/
theorem body_of_receive (hn : c.classFile.pool.Numbered) {e : MethodEvent}
    {answer : Except Error Unit} (hrun : receive e (m, c) = (answer, (m', c'))) :
    m'.body ≠ .absent ↔ (answer = .ok () ∧ e.opensBody = true) ∨
      (m.body ≠ .absent ∧ LosesBody (e, answer) = false) := by
  have houtcome : Outcome (fun _ => True) m c e (receive e (m, c)) :=
    outcome_receive hn (fun _ _ => trivial) trivial
  rw [hrun] at houtcome
  -- one case for each way to accept an event; a refusal loses a body only at its own end
  cases houtcome with
  | accepted hopen haccepts =>
    cases haccepts with
    | «attribute» a => simp [MethodEvent.opensBody, LosesBody]
    | beginBody habsent => simp [MethodEvent.opensBody, withOpened]
    | instruction hopened hrequest htail =>
      simp [MethodEvent.opensBody, LosesBody, withOpened, hopened]
    | endBody maxStack maxLocals hopened hsize =>
      simp [MethodEvent.opensBody, LosesBody, withBody, hopened]
    | body code habsent => simp [MethodEvent.opensBody, withBody]
    | finish hbody hrequest hcount => simp [MethodEvent.opensBody, LosesBody]
  | refused error hrefuses =>
    have hbody := hrefuses.body
    generalize m'.body = left at hbody ⊢
    cases hbody with
    | kept hkeeps => simp [LosesBody, hkeeps]
    | begun i error bytes hopened => simp [LosesBody, MethodEvent.losesBody, hopened]
    | lost maxStack maxLocals hopened hlong => simp [LosesBody, MethodEvent.losesBody]

/-- A method that started without a body has one exactly when its events keep one. -/
theorem body_of_answers (habsent : m.body = .absent) (hn : c.classFile.pool.Numbered)
    {sent : List MethodEvent} {answers : Array (Except Error Unit)}
    (hrun : ClassAssembly.sink.answersInMethod sent m c = (answers, (m', c'))) :
    m'.body ≠ .absent ↔ KeepsBody (sent.zip answers.toList) := by
  induction sent using List.reverseRecOn generalizing answers m' c' with
  | nil =>
    cases hrun
    exact iff_of_false (fun h => h habsent) not_keepsBody_nil
  | append_singleton sent e ih =>
    cases hbefore : ClassAssembly.sink.answersInMethod sent m c with
    | mk before state =>
      obtain ⟨mid, cmid⟩ := state
      cases hanswer : receive e (mid, cmid) with
      | mk answer state' =>
        obtain ⟨m'', c''⟩ := state'
        cases (answersInMethod_snoc hbefore hanswer).symm.trans hrun
        rw [zip_answers_snoc (size_answersInMethod hbefore), keepsBody_snoc, ← ih hbefore]
        exact body_of_receive (name_of_answers hn hbefore).2 hanswer

end MethodAssembly

/-! ## The method that the class gets -/

variable {a a' : ClassAssembly}

/-- A method whose end was accepted, whatever it was sent: the class has one method more, with the
attributes that were accepted, and with one body if its events keep one and with none otherwise. So
unless a body was lost, there is one exactly when one was accepted. -/
theorem body_of_answer (hn : a.classFile.pool.Numbered) {decl : MethodDecl}
    {sent : List MethodEvent} {answers : Array (Except Error Unit)}
    (hrun : ClassAssembly.sink.answer (.method decl sent) a = (.method (.ok answers), a'))
    (hend : .finish ∈ acceptedOf sent answers.toList) :
    ∃ member code, a'.classFile.methods = a.classFile.methods.push member ∧
      member.Has a'.classFile.pool decl code
        ((acceptedOf sent answers.toList).filterMap MethodEvent.attribute?) ∧
      (code.isSome ↔ KeepsBody (sent.zip answers.toList)) ∧
      ((∀ p ∈ sent.zip answers.toList, LosesBody p = false) →
        (code.isSome ↔ ∃ e ∈ acceptedOf sent answers.toList, e.opensBody = true)) := by
  obtain ⟨m, m', pool, hpool, hrequest, -, hinside⟩ := opened_of_answer hn hrun
  have hfirst : (a.withPool pool).classFile.pool.Numbered := hpool.numbered hn
  have hkept := MethodAssembly.body_of_answers (fresh_of_declareRequest hrequest).2 hfirst hinside
  have hrun' : Inside (fun _ => True) (a.withPool pool)
      ⟨decl, sent, acceptedOf sent answers.toList⟩ m' a' :=
    inside_of_answers (tracks_of_request hn hrequest) hfirst trivial (fun _ _ _ _ => trivial) hinside
  cases hrun' with
  | unfinished hgrown hc hnot _ => exact absurd hend hnot
  | @finished pool' member code hgrown hc hmem _ _ hbody hhas htells =>
    subst hc
    have hcode : code.isSome = true ↔ KeepsBody (sent.zip answers.toList) := by
      rw [← hkept, hbody]
      cases code <;> simp
    exact ⟨member, code, rfl, hhas, hcode, fun hkeeps => hcode.trans (keepsBody_iff_exists hkeeps)⟩

/-- A body of one instruction. -/
def shortBody : List MethodEvent := [.beginBody, .instruction (.simple 177), .endBody 0 1, .finish]

/-- The method when it has been sent this body, -/
def shortMethod : MethodAssembly :=
  { runMethod with body := .complete ⟨0, 1, [177], #[], #[]⟩, ended := true }

/-- and the class that has it. -/
def shortAssembly : ClassAssembly :=
  (plainAssembly.withPool
    ⟨#[.utf8 "A", .classRef 1, .utf8 "run", .utf8 "()V", .utf8 "Code"]⟩).withMethod
      ⟨1, 3, 4, #[⟨5, Code.encode ⟨0, 1, [177], #[], #[]⟩⟩]⟩

theorem answers_shortBody : ClassAssembly.sink.answersInMethod shortBody runMethod runAssembly =
    (#[.ok (), .ok (), .ok (), .ok ()], (shortMethod, shortAssembly)) := by
  have hrun : @id (Array (Except Error Unit) × MethodAssembly × ClassAssembly)
      (ClassAssembly.sink.answersInMethod shortBody runMethod runAssembly) =
        (#[.ok (), .ok (), .ok (), .ok ()], (shortMethod, shortAssembly)) := by decide +kernel
  exact hrun

/-- A body that is not too long is in the class. -/
theorem body_of_answer_shortBody :
    plainAssembly.classFile.pool.Numbered ∧
      ClassAssembly.sink.answer (.method runDecl shortBody) plainAssembly =
        (.method (.ok #[.ok (), .ok (), .ok (), .ok ()]), shortAssembly) ∧
      .finish ∈ acceptedOf shortBody [.ok (), .ok (), .ok (), .ok ()] ∧
      ∃ member code, shortAssembly.classFile.methods = #[member] ∧
        member.Has shortAssembly.classFile.pool runDecl code [] ∧ code.isSome = true := by
  have hnumbered : plainAssembly.classFile.pool.Numbered := by
    simp [Numbered, plainAssembly, size]
  have hanswer := answer_of_method_ok begin_runDecl answers_shortBody
  have hend : MethodEvent.finish ∈ acceptedOf shortBody [.ok (), .ok (), .ok (), .ok ()] := by
    decide
  obtain ⟨member, code, hmethods, hhas, -, hcode⟩ := body_of_answer hnumbered hanswer hend
  have hkept := hcode (by decide)
  exact ⟨hnumbered, hanswer, hend, member, code, hmethods, hhas, hkept.mpr (by decide)⟩

/-! ## A body that is too long -/

/-- A body of so many instructions of one byte each. -/
def longBody (n : Nat) : List MethodEvent :=
  .beginBody :: List.replicate n (.instruction (.simple 0)) ++ [.endBody 0 1, .finish]

/-- The end of a body that is too long is refused, and the body is lost. -/
theorem MethodAssembly.endBody_of_long {m : MethodAssembly} {c : ClassAssembly}
    {bytecode : Array UInt8} {maxStack maxLocals : UInt16} (hopen : m.ended = false)
    (hopened : m.body = .opened bytecode) (hlong : maxCodeLength < bytecode.size) :
    receive (.endBody maxStack maxLocals) (m, c) =
      (.error (.write (.codeTooLong m.name bytecode.size)), ({ m with body := .absent }, c)) := by
  change endBody maxStack maxLocals (m, c) = _
  unfold endBody
  rw [bind_of_ok (checkOpen_run hopen _), bind_of_ok (get_run _)]
  simp only [hopened, if_pos hlong]
  rfl

/-- All instructions are accepted, however many they are. -/
theorem answers_instructions (n : Nat) :
    ClassAssembly.sink.answersInMethod (.beginBody :: List.replicate n (.instruction (.simple 0)))
        runMethod runAssembly =
      ((List.replicate (n + 1) (.ok ())).toArray,
        (runMethod.withOpened (Array.replicate n 0), runAssembly)) := by
  induction n with
  | zero => rfl
  | succ n ih =>
    have hnext : ClassAssembly.sink.inMethod (.instruction (.simple 0))
        (runMethod.withOpened (Array.replicate n 0), runAssembly) =
          (.ok (), (runMethod.withOpened (Array.replicate (n + 1) 0), runAssembly)) := by
      rw [Array.replicate_succ]
      rfl
    rw [List.replicate_succ', ← List.cons_append, answersInMethod_snoc ih hnext, List.push_toArray,
      ← List.replicate_succ']
    rfl

/-- All of such a method is accepted but the end of its body. -/
theorem acceptedOf_longBody (n : Nat) (error : Error) :
    acceptedOf (longBody n) (List.replicate (n + 1) (.ok ()) ++ [.error error, .ok ()]) =
      .beginBody :: List.replicate n (.instruction (.simple 0)) ++ [.finish] := by
  have hfront : acceptedOf (.beginBody :: List.replicate n (.instruction (.simple 0)))
      (List.replicate (n + 1) (.ok ())) = .beginBody :: List.replicate n (.instruction (.simple 0)) :=
    acceptedOf_all (by simp) (by simp [Except.toBool])
  rw [longBody, acceptedOf_append (by simp), hfront]
  rfl

/-- A body of one byte too many: its start and the method's end are accepted, and the method is in
the class without a body. -/
theorem not_kept_of_longBody : ∃ inside a,
    ClassAssembly.sink.answers [.header plainHeader, .method runDecl (longBody 65536)] .empty =
      (#[.piece (.ok ()), .method (.ok inside)], a) ∧
    .beginBody ∈ acceptedOf (longBody 65536) inside.toList ∧
    .finish ∈ acceptedOf (longBody 65536) inside.toList ∧
    a.classFile.methods = #[⟨1, 3, 4, #[]⟩] := by
  have hstart := answers_instructions 65536
  have hlong : maxCodeLength < (Array.replicate 65536 (0 : UInt8)).size := by
    rw [Array.size_replicate]
    decide
  -- the end of the body is refused, and the method forgets that it had begun one
  have hlost : ClassAssembly.sink.inMethod (.endBody 0 1)
      (runMethod.withOpened (Array.replicate 65536 0), runAssembly) =
        (.error (.write (.codeTooLong "run" (Array.replicate 65536 (0 : UInt8)).size)),
          (runMethod, runAssembly)) :=
    MethodAssembly.endBody_of_long rfl rfl hlong
  have hfinish : ClassAssembly.sink.inMethod .finish (runMethod, runAssembly) =
      (.ok (), ({ runMethod with ended := true }, runAssembly.withMethod ⟨1, 3, 4, #[]⟩)) := rfl
  have hinside := answersInMethod_snoc (answersInMethod_snoc hstart hlost) hfinish
  rw [List.append_assoc] at hinside
  have haccepted := acceptedOf_longBody 65536
    (.write (.codeTooLong "run" (Array.replicate 65536 (0 : UInt8)).size))
  refine ⟨_, _, answers_snoc answers_plainHeader (answer_of_method_ok begin_runDecl hinside), ?_,
    ?_, rfl⟩
  · rw [Array.toList_push, Array.toList_push, List.append_assoc]
    exact haccepted ▸ List.mem_append_left _ List.mem_cons_self
  · rw [Array.toList_push, Array.toList_push, List.append_assoc]
    exact haccepted ▸ List.mem_append_right _ (List.mem_singleton_self _)

end JvmStub
