/-
`Observed.lean` -- what reaches a sink.

A stage is judged by what comes out behind it. To see that, the sink behind the stage
is replaced by the same sink with a transcript beside it: every event that it was
sent, in order, each with the answer that it gave. The transcript cannot be seen from
in front, `observed_simulates`, so what is said of the stage in front of the observed
sink is said of the stage in front of the sink itself.
-/
import JvmStub.Proofs.Event.Alike

set_option autoImplicit false

namespace JvmStub

/-- The events that a sink was sent, each with its answer. -/
abbrev Transcript := List (Event × Except Error Unit)

namespace ClassSink

variable {σ : Type}

/-- A step of a sink that is sent an event, with the event and its answer put down behind the
transcript. -/
def noting {α : Type} (e : Event) (step : SinkM σ α) : SinkM (Transcript × σ) α := fun (seen, s) =>
  let (result, s) := step s
  (result, (seen ++ [(e, result.map fun _ => ())], s))

/-- The sink, beside a transcript of what it is sent. -/
def observed (next : ClassSink σ) : ClassSink (Transcript × σ) where
  Method := next.Method
  header h := noting (.header h) (next.header h)
  field f := noting (.field f) (next.field f)
  method decl := noting (.method decl) (next.method decl)
  inMethod e := fun (m, seen, s) =>
    let (result, (m, s)) := next.inMethod e (m, s)
    (result, (m, seen ++ [(.inMethod e, result)], s))
  classAttribute a := noting (.attribute a) (next.classAttribute a)
  finish := noting .finish next.finish

end ClassSink

open ClassSink

variable {σ : Type} {next : ClassSink σ}

/-- A step that is noted does what it does, and its event and its answer come behind the transcript.
-/
theorem noting_run {α : Type} {e : Event} {step : SinkM σ α} {seen : Transcript} {s s' : σ}
    {result : Except Error α} (h : step s = (result, s')) :
    noting e step (seen, s) = (result, (seen ++ [(e, result.map fun _ => ())], s')) := by
  unfold noting
  dsimp only
  rw [h]

/-- A method that has been opened is noted by its declaration. -/
theorem observed_method_ok {decl : MethodDecl} {m : next.Method} {seen : Transcript} {s s' : σ}
    (h : next.method decl s = (.ok m, s')) :
    next.observed.method decl (seen, s) = (.ok m, (seen ++ [(.method decl, .ok ())], s')) :=
  noting_run h

/-- A method that could not be opened is noted by its declaration and the error. -/
theorem observed_method_error {decl : MethodDecl} {e : Error} {seen : Transcript} {s s' : σ}
    (h : next.method decl s = (.error e, s')) :
    next.observed.method decl (seen, s) =
      (.error e, (seen ++ [(.method decl, .error e)], s')) :=
  noting_run h

/-- An event inside a method is noted with its answer. -/
theorem observed_inMethod_run {e : MethodEvent} {m m' : next.Method} {seen : Transcript} {s s' : σ}
    {result : Except Error Unit} (h : next.inMethod e (m, s) = (result, (m', s'))) :
    next.observed.inMethod e (m, seen, s) =
      (result, (m', seen ++ [(.inMethod e, result)], s')) := by
  unfold observed
  dsimp only
  rw [h]

/-- Behind the transcript, the sink goes as it goes by itself. -/
theorem alike_noting {α : Type} (e : Event) (step : SinkM σ α) :
    Alike Eq (fun p s => p.2 = s) (noting e step) step := by
  rintro ⟨seen, s⟩ _ rfl
  cases hrun : step s with
  | mk result s' =>
    rw [noting_run hrun]
    cases result with
    | error error => exact .error error rfl
    | ok a => exact .ok rfl rfl

/-- The transcript makes no difference to a sender. -/
theorem observed_simulates (next : ClassSink σ) :
    Simulates next.observed next (fun p s => p.2 = s) Eq where
  header h := alike_noting (.header h) (next.header h)
  field f := alike_noting (.field f) (next.field f)
  method decl := alike_noting (.method decl) (next.method decl)
  classAttribute a := alike_noting (.attribute a) (next.classAttribute a)
  finish := alike_noting .finish next.finish
  inMethod e := by
    rintro ⟨m, seen, s⟩ ⟨_, _⟩ ⟨rfl, rfl⟩
    cases hrun : next.inMethod e (m, s) with
    | mk result state =>
      rw [observed_inMethod_run hrun]
      cases result with
      | error error => exact .error error ⟨rfl, rfl⟩
      | ok u => exact .ok rfl ⟨rfl, rfl⟩

/-! ## Transcripts of a method -/

/-- What a transcript says of events inside a method. -/
def Transcript.inside (told : List (MethodEvent × Except Error Unit)) : Transcript :=
  told.map fun p => (.inMethod p.1, p.2)

/-- What it says of events that were all accepted. -/
def Transcript.accepted (events : List MethodEvent) : Transcript :=
  events.map fun e => (.inMethod e, .ok ())

end JvmStub
