/-
`Sending.lean` -- sending a sink one event after the other.

A sink is sent whatever comes, also after a refusal, and gives one answer to each
event. All that is proved about such a run, of a class or of a method, goes from the
events before to one event more, or from one part of the events to the next. The
equations for both are here. They hold of any sink.
-/
import JvmStub.Event.Sink
import Mathlib.Data.List.Induction

set_option autoImplicit false

namespace JvmStub

/-- One event more and its answer stand behind the events and answers so far. -/
theorem zip_answers_snoc {α β : Type} {events : List α} {answers : Array β}
    (hsize : answers.size = events.length) (e : α) (answer : β) :
    (events ++ [e]).zip (answers.push answer).toList =
      events.zip answers.toList ++ [(e, answer)] := by
  have hlen : events.length = answers.toList.length := hsize.symm
  rw [Array.toList_push, List.zip_append hlen]
  rfl

variable {σ : Type} {sink : ClassSink σ}

/-! ## Inside a method -/

section

variable {events more : List MethodEvent} {opened : sink.Method} {s : σ}

/-- The answer to one event more comes behind the others. -/
theorem answersInMethod_snoc {e : MethodEvent} {before : Array (Except Error Unit)}
    {answer : Except Error Unit} {state state' : sink.Method × σ}
    (h : sink.answersInMethod events opened s = (before, state))
    (he : sink.inMethod e state = (answer, state')) :
    sink.answersInMethod (events ++ [e]) opened s = (before.push answer, state') := by
  unfold ClassSink.answersInMethod at h ⊢
  rw [List.foldl_append, h, List.foldl_cons, List.foldl_nil]
  dsimp only
  rw [he]

/-- Each event inside a method gets one answer. -/
theorem size_answersInMethod {answers : Array (Except Error Unit)} {state : sink.Method × σ}
    (h : sink.answersInMethod events opened s = (answers, state)) :
    answers.size = events.length := by
  induction events using List.reverseRecOn generalizing answers state with
  | nil =>
    cases h
    rfl
  | append_singleton events e ih =>
    cases hbefore : sink.answersInMethod events opened s with
    | mk before mid =>
      cases (answersInMethod_snoc hbefore rfl).symm.trans h
      rw [Array.size_push, ih hbefore, List.length_append, List.length_singleton]

theorem answersInMethod_append {before behind : Array (Except Error Unit)}
    {mid last : sink.Method × σ}
    (h : sink.answersInMethod events opened s = (before, mid))
    (hmore : sink.answersInMethod more mid.1 mid.2 = (behind, last)) :
    sink.answersInMethod (events ++ more) opened s = (before ++ behind, last) := by
  induction more using List.reverseRecOn generalizing behind last with
  | nil =>
    cases hmore
    rw [List.append_nil, h, Array.append_empty]
  | append_singleton more e ih =>
    cases hprefix : sink.answersInMethod more mid.1 mid.2 with
    | mk answers state =>
      cases hanswer : sink.inMethod e state with
      | mk answer after =>
        cases (answersInMethod_snoc hprefix hanswer).symm.trans hmore
        rw [← List.append_assoc, answersInMethod_snoc (ih hprefix) hanswer, Array.append_push]

end

/-! ## A class -/

section

variable {decl : MethodDecl} {sent : List MethodEvent} {events more : List ClassEvent} {s s' : σ}

/-- A method that cannot be opened is not sent its events. -/
theorem answer_of_method_error {e : Error} (h : sink.method decl s = (.error e, s')) :
    sink.answer (.method decl sent) s = (.method (.error e), s') := by
  simp [ClassSink.answer, h]

/-- A method that has been opened is sent its events, and forgotten behind them. -/
theorem answer_of_method_ok {opened : sink.Method} {answers : Array (Except Error Unit)}
    {state : sink.Method × σ} (h : sink.method decl s = (.ok opened, s'))
    (he : sink.answersInMethod sent opened s' = (answers, state)) :
    sink.answer (.method decl sent) s = (.method (.ok answers), state.2) := by
  simp [ClassSink.answer, h, he]

/-- The answer to one piece more comes behind the others. -/
theorem answers_snoc {e : ClassEvent} {answer : Answer} {s'' : σ} {before : Array Answer}
    (h : sink.answers events s = (before, s')) (he : sink.answer e s' = (answer, s'')) :
    sink.answers (events ++ [e]) s = (before.push answer, s'') := by
  unfold ClassSink.answers at h ⊢
  rw [List.foldl_append, h, List.foldl_cons, List.foldl_nil]
  dsimp only
  rw [he]

/-- Each event gets one answer. -/
theorem size_answers {answers : Array Answer} (h : sink.answers events s = (answers, s')) :
    answers.size = events.length := by
  induction events using List.reverseRecOn generalizing answers s' with
  | nil =>
    cases h
    rfl
  | append_singleton events e ih =>
    cases hbefore : sink.answers events s with
    | mk before mid =>
      cases (answers_snoc hbefore rfl).symm.trans h
      rw [Array.size_push, ih hbefore, List.length_append, List.length_singleton]

theorem answers_append {mid last : σ} {before behind : Array Answer}
    (h : sink.answers events s = (before, mid)) (hmore : sink.answers more mid = (behind, last)) :
    sink.answers (events ++ more) s = (before ++ behind, last) := by
  induction more using List.reverseRecOn generalizing behind last with
  | nil =>
    cases hmore
    rw [List.append_nil, h, Array.append_empty]
  | append_singleton more e ih =>
    cases hprefix : sink.answers more mid with
    | mk answers state =>
      cases hanswer : sink.answer e state with
      | mk answer after =>
        cases (answers_snoc hprefix hanswer).symm.trans hmore
        rw [← List.append_assoc, answers_snoc (ih hprefix) hanswer, Array.append_push]

end

end JvmStub
