/-
`Passage.lean` -- what the stage lets through of a method.

The sink behind the stage is given a transcript, and one method is sent to the stage
with any events inside it. `LetThrough` lists what can come of that: what the stage
answers, and what it has sent on by then. The answers that stand in the transcript are
those of the sink behind the stage, which is any sink and may refuse at any point; the
answers that the sender gets are the same ones.

The stub is written out there as its events, from the opening of the body to its end,
and what gets through behind it as attributes and the end of the method. So the list can
be read without knowing how the stage sends a stub or what it takes for a part of a body.
-/
import JvmStub.Proofs.Event.Performed
import JvmStub.Proofs.Stub.Stage

set_option autoImplicit false

namespace JvmStub

open ClassSink

/-- The event is an attribute of the method or its end, and so no part of a body. -/
def MethodEvent.isAttributeOrEnd : MethodEvent → Bool
  | .attribute _ | .finish => true
  | .beginBody | .instruction _ | .endBody .. | .body _ => false

/-- What the stage answers to a method, and what has reached the sink behind it. -/
inductive LetThrough (exceptionClass : String) (decl : MethodDecl) (sent : List MethodEvent) :
    Answer → Transcript → Prop
  /-- A method that cannot be stubbed: its error, and nothing gets through. -/
  | unstubbed {e : StubError} (hstub : stubBody decl exceptionClass = .error e) :
      LetThrough exceptionClass decl sent (.method (.error (.stub e))) []
  /-- The declaration gets through as it is. Where it is refused, nothing else does. -/
  | declarationRefused {stub : Option StubBody} {e : Error}
      (hstub : stubBody decl exceptionClass = .ok stub) :
      LetThrough exceptionClass decl sent (.method (.error e)) [(.method decl, .error e)]
  /-- Behind the declaration of a method without a body, all events get through. -/
  | bodiless {answers : Array (Except Error Unit)} (hbody : decl.access.isBodiless = true)
      (hsize : answers.size = sent.length) :
      LetThrough exceptionClass decl sent (.method (.ok answers))
        ((.method decl, .ok ()) :: Transcript.inside (sent.zip answers.toList))
  /-- Behind the declaration of any other method, the stub does, told instruction by instruction.
  Where one of its events is refused, so is the method. -/
  | stubRefused {stub : StubBody} {before after : List MethodEvent} {e : MethodEvent}
      {error : Error} (hbody : decl.access.isBodiless = false)
      (hstub : stubBody decl exceptionClass = .ok (some stub))
      (hevents : .beginBody :: stub.instructions.map .instruction ++
        [.endBody stub.maxStack stub.maxLocals] = before ++ e :: after) :
      LetThrough exceptionClass decl sent (.method (.error error))
        ((.method decl, .ok ()) :: (Transcript.accepted before ++ [(.inMethod e, .error error)]))
  /-- Behind the stub, of what is sent the attributes and the end get through. The stage accepts
  the rest on its own. -/
  | stubbed {stub : StubBody} {answers : Array (Except Error Unit)}
      (hbody : decl.access.isBodiless = false)
      (hstub : stubBody decl exceptionClass = .ok (some stub)) (hsize : answers.size = sent.length)
      (hdropped : ∀ p ∈ sent.zip answers.toList, p.1.isAttributeOrEnd = false → p.2 = .ok ()) :
      LetThrough exceptionClass decl sent (.method (.ok answers))
        ((.method decl, .ok ()) ::
          (Transcript.accepted (.beginBody :: stub.instructions.map .instruction ++
            [.endBody stub.maxStack stub.maxLocals]) ++
          Transcript.inside ((sent.zip answers.toList).filter fun p => p.1.isAttributeOrEnd)))

section

variable {σ : Type} {next : ClassSink σ} {exceptionClass : String} {decl : MethodDecl}
  {s s₁ s₂ : σ} {m m' : next.Method}

/-! ## Opening the method

Four things can happen to a method that can be stubbed, told by what the sink behind the stage
does: it refuses the declaration, there is no stub to send, it accepts the stub, or it does not. -/

/-- A declaration that is refused behind the stage is refused in front of it, and no body is sent.
-/
theorem open_declarationRefused {stub : Option StubBody} {e : Error}
    (hstub : stubBody decl exceptionClass = .ok stub)
    (hrun : next.method decl s = (.error e, s₁)) :
    (next.stubbing exceptionClass).method decl s = (.error e, s₁) := by
  change openStubbed exceptionClass next decl s = _
  cases stub with
  | none =>
    rw [openStubbed_of_none hstub]
    exact bind_of_error hrun
  | some stub =>
    rw [openStubbed_of_some hstub]
    exact bind_of_error hrun

/-- A method without a body is opened behind the stage and sent nothing. -/
theorem open_bodiless (hstub : stubBody decl exceptionClass = .ok none)
    (hrun : next.method decl s = (.ok m, s₁)) :
    (next.stubbing exceptionClass).method decl s = (.ok ⟨false, m⟩, s₁) := by
  change openStubbed exceptionClass next decl s = _
  rw [openStubbed_of_none hstub]
  exact bind_of_ok hrun

/-- A method with a body is opened behind the stage and sent its stub. -/
theorem open_stubbed {stub : StubBody} (hstub : stubBody decl exceptionClass = .ok (some stub))
    (hrun : next.method decl s = (.ok m, s₁))
    (hsent : next.sendMethodEvents stub.events (m, s₁) = (.ok (), (m', s₂))) :
    (next.stubbing exceptionClass).method decl s = (.ok ⟨true, m'⟩, s₂) := by
  change openStubbed exceptionClass next decl s = _
  rw [openStubbed_of_some hstub]
  exact (bind_of_ok hrun).trans (bind_of_ok (within_eq_ok.mpr hsent))

/-- When a part of the stub is refused, the method counts as not opened, though it is open behind
the stage. -/
theorem open_stubRefused {stub : StubBody} {e : Error}
    (hstub : stubBody decl exceptionClass = .ok (some stub))
    (hrun : next.method decl s = (.ok m, s₁))
    (hsent : next.sendMethodEvents stub.events (m, s₁) = (.error e, (m', s₂))) :
    (next.stubbing exceptionClass).method decl s = (.error e, s₂) := by
  change openStubbed exceptionClass next decl s = _
  rw [openStubbed_of_some hstub]
  exact (bind_of_ok hrun).trans (bind_of_error (within_eq_error.mpr ⟨m', hsent⟩))

/-! ## Inside the method -/

/-- Whether the stage drops an event of a method that it has replaced or not. -/
def MethodEvent.isDropped (replaced : Bool) (e : MethodEvent) : Bool := replaced && e.isBodyPart

/-- Of a method that it has replaced, the stage keeps the attributes and the end. -/
theorem isDropped_replaced (e : MethodEvent) : e.isDropped true = !e.isAttributeOrEnd := by
  cases e <;> rfl

/-- The events that the stage does not drop are in the transcript, each with the answer that the
sender got; those that it drops are accepted. -/
theorem answersInMethod_through (next : ClassSink σ) (exceptionClass : String)
    (opened : StubbedMethod next.Method) (seen : Transcript) (s : σ) (sent : List MethodEvent) :
    ∃ answers m s', (next.observed.stubbing exceptionClass).answersInMethod sent opened (seen, s) =
        (answers, (⟨opened.replaced, m⟩, (seen ++ Transcript.inside
          ((sent.zip answers.toList).filter fun p => !p.1.isDropped opened.replaced), s'))) ∧
      ∀ p ∈ sent.zip answers.toList, p.1.isDropped opened.replaced = true → p.2 = .ok () := by
  -- the last event is dropped or passed on; in the first case it leaves nothing in the transcript
  induction sent using List.reverseRecOn with
  | nil =>
    refine ⟨#[], opened.next, s, ?_, fun p hp => absurd hp List.not_mem_nil⟩
    rw [List.zip_nil_left, List.filter_nil, Transcript.inside, List.map_nil, List.append_nil]
    rfl
  | append_singleton sent e ih =>
    obtain ⟨answers, m, s', hrun, hdropped⟩ := ih
    have hzip := zip_answers_snoc (size_answersInMethod hrun) e
    cases hdrop : e.isDropped opened.replaced with
    | true =>
      obtain ⟨hreplaced, he⟩ := (Bool.and_eq_true _ _).mp hdrop
      refine ⟨answers.push (.ok ()), m, s', ?_, ?_⟩
      · rw [answersInMethod_snoc hrun (inStubbed_dropped hreplaced he), hzip, List.filter_append,
          List.filter_cons_of_neg (by rw [hdrop]; simp), List.filter_nil, List.append_nil]
        rfl
      · rw [hzip]
        refine List.forall_mem_append.mpr ⟨hdropped, ?_⟩
        exact List.forall_mem_singleton.mpr fun _ => rfl
    | false =>
      cases hanswer : next.inMethod e (m, s') with
      | mk answer state =>
        refine ⟨answers.push answer, state.1, state.2, ?_, ?_⟩
        · rw [answersInMethod_snoc hrun (inStubbed_passed hdrop (observed_inMethod_run hanswer)),
            hzip, List.filter_append, List.filter_cons_of_pos (by rw [hdrop]; rfl),
            List.filter_nil, Transcript.inside, Transcript.inside, List.map_append,
            List.append_assoc]
          rfl
        · rw [hzip]
          refine List.forall_mem_append.mpr ⟨hdropped, ?_⟩
          refine List.forall_mem_singleton.mpr fun h => ?_
          rw [hdrop] at h
          cases h

/-! ## The whole method -/

/-- In front of a transcript, the stage lets through what it is meant to. -/
theorem letThrough_of_observed (next : ClassSink σ) (exceptionClass : String) (decl : MethodDecl)
    (sent : List MethodEvent) (s : σ) :
    ∃ answer seen s', (next.observed.stubbing exceptionClass).answer (.method decl sent) ([], s) =
        (answer, (seen, s')) ∧
      LetThrough exceptionClass decl sent answer seen := by
  -- the cases follow the opening of the method: its stub, its declaration, the events of the stub
  cases hstub : stubBody decl exceptionClass with
  | error e =>
    have hopen : (next.observed.stubbing exceptionClass).method decl ([], s) =
        (.error (.stub e), ([], s)) := congrFun (openStubbed_of_error hstub) _
    exact ⟨_, [], s, answer_of_method_error hopen, .unstubbed hstub⟩
  | ok stub =>
    cases hrun : next.method decl s with
    | mk result s₁ =>
      cases result with
      | error e =>
        have hdeclared : next.observed.method decl ([], s) =
            (.error e, ([(.method decl, .error e)], s₁)) := observed_method_error hrun
        have hopen := open_declarationRefused hstub hdeclared
        exact ⟨_, _, s₁, answer_of_method_error hopen, .declarationRefused hstub⟩
      | ok m =>
        have hdeclared : next.observed.method decl ([], s) =
            (.ok m, ([(.method decl, .ok ())], s₁)) := observed_method_ok hrun
        have hdecided := isSome_of_stubBody hstub
        cases stub with
        | none =>
          have hbody : decl.access.isBodiless = true := by simpa using hdecided.symm
          have hopen := open_bodiless hstub hdeclared
          obtain ⟨answers, m', s', hinside, -⟩ := answersInMethod_through next exceptionClass
            ⟨false, m⟩ [(.method decl, .ok ())] s₁ sent
          -- nothing is dropped where no body was put in
          have hall : ((sent.zip answers.toList).filter fun p => !p.1.isDropped false) =
              sent.zip answers.toList := List.filter_eq_self.mpr fun _ _ => rfl
          have hsize := size_answersInMethod hinside
          rw [hall] at hinside
          exact ⟨_, _, s', answer_of_method_ok hopen hinside, .bodiless hbody hsize⟩
        | some stub =>
          have hbody : decl.access.isBodiless = false := by simpa using hdecided.symm
          obtain ⟨m', s', hsent⟩ | ⟨before, e, after, error, m', s', hevents, hsent⟩ :=
            sendMethodEvents_observed stub.events m [(.method decl, .ok ())] s₁
          · have hopen := open_stubbed hstub hdeclared hsent
            obtain ⟨answers, m'', s'', hinside, hdropped⟩ :=
              answersInMethod_through next exceptionClass ⟨true, m'⟩
                ([(.method decl, .ok ())] ++ Transcript.accepted stub.events) s' sent
            have hsize := size_answersInMethod hinside
            simp only [isDropped_replaced, Bool.not_not, Bool.not_eq_true'] at hinside hdropped
            exact ⟨_, _, s'', answer_of_method_ok hopen hinside,
              .stubbed hbody hstub hsize hdropped⟩
          · have hopen := open_stubRefused hstub hdeclared hsent
            exact ⟨_, _, s', answer_of_method_error hopen, .stubRefused hbody hstub hevents⟩

/-- What the stage answers to a method and what it leaves of the sink behind it, it answers and
leaves in front of a transcript too; and the transcript has what the stage is meant to let through
and nothing else. -/
theorem letThrough_of_answer (next : ClassSink σ) (exceptionClass : String) (decl : MethodDecl)
    (sent : List MethodEvent) (s : σ) :
    ∃ answer seen s',
      (next.stubbing exceptionClass).answer (.method decl sent) s = (answer, s') ∧
        (next.observed.stubbing exceptionClass).answer (.method decl sent) ([], s) =
          (answer, (seen, s')) ∧
        LetThrough exceptionClass decl sent answer seen := by
  obtain ⟨answer, seen, s', hobserved, hthrough⟩ :=
    letThrough_of_observed next exceptionClass decl sent s
  obtain ⟨_, _, _, hrun, hplain, hsame⟩ := ((observed_simulates next).stubbing exceptionClass).answer
    (s := ([], s)) rfl (.method decl sent)
  cases hobserved.symm.trans hrun
  cases hsame
  exact ⟨answer, seen, s', hplain, hobserved, hthrough⟩

end

/-- A static method that gives back the mean of two doubles. -/
def meanDecl : MethodDecl where
  access := 0x0009
  name := "mean"
  descriptor := "(DD)D"
  signature := none
  exceptions := []
  slots := none

/-- Its own body is told in front of an attribute, and another one as a whole behind it. What gets
through is the stub, the attribute and the end. -/
example :
    ((recorder.stubbing "java/lang/Error").answer (.method meanDecl
      [.beginBody, .instruction (.simple Opcode.dconst1.code), .endBody 2 4, .attribute ⟨7, [1]⟩,
        .body ⟨2, 4, [Opcode.dconst1.code, Opcode.dreturn.code], #[], #[]⟩, .finish]) #[]).2 =
      #[.method meanDecl, .inMethod .beginBody, .inMethod (.instruction (.simple Opcode.dconst0.code)),
        .inMethod (.instruction (.simple Opcode.dreturn.code)), .inMethod (.endBody 2 4),
        .inMethod (.attribute ⟨7, [1]⟩), .inMethod .finish] := by
  decide +kernel

end JvmStub
