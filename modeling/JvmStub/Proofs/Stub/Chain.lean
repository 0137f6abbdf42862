/-
`Chain.lean` -- a chain of stages comes down to its last stubbing stage.

A stage that replaces bodies sends its stubs to the next one, which has given the same
methods stubs of its own by then and swallows what comes. So of two such stages the
outer one makes no difference: it decides alike on every method, for the class that
constructors throw has no part in that, and nothing of its stubs comes out behind the
inner one. A stage that passes on everything makes none either. What is left of a
chain is the stage that is nearest to the last sink, or the last sink itself.

"No difference" is meant for the sender and for the last sink: the same answer to
every event, and the same events, with the same answers, in the transcript of what
reached the last sink.
-/
import JvmStub.Proofs.Event.Observed
import JvmStub.Proofs.Stub.Stage
import JvmStub.Stub.Chain

set_option autoImplicit false

namespace JvmStub

/-! ## What a chain comes down to -/

/-- Whether a stage replaces bodies. -/
def Stage.isStubbing : Stage → Bool
  | .forwarding => false
  | .stubbing _ => true

/-- The stage of a chain that replaces bodies and is nearest to the last sink. -/
def lastStubbing (stages : List Stage) : Option Stage := (stages.filter Stage.isStubbing).getLast?

namespace ClassSink

/-- The last sink of a chain with nothing of the chain in front of it but the stage that it comes
down to. -/
def collapsed {σ : Type} (stages : List Stage) (last : ClassSink σ) : ClassSink σ :=
  match lastStubbing stages with
  | none => last
  | some stage => last.behind stage

end ClassSink

open ClassSink

variable {σ τ : Type}

/-- A stage in front does not matter if there is a stubbing stage behind it. -/
theorem lastStubbing_cons_of_some {stages : List Stage} {inner : Stage}
    (h : lastStubbing stages = some inner) (stage : Stage) :
    lastStubbing (stage :: stages) = some inner := by
  unfold lastStubbing at h ⊢
  cases stage with
  | forwarding => exact h
  | stubbing exceptionClass =>
    rw [List.filter_cons_of_pos rfl, List.getLast?_cons, h]
    rfl

/-- Two stubbing stages with a class of their own each: the class of the one further in stays. -/
example : lastStubbing [.stubbing "java/lang/Error", .stubbing "com/example/Boom"] =
    some (.stubbing "com/example/Boom") := by decide

theorem lastStubbing_cons_of_none {stages : List Stage} (h : lastStubbing stages = none)
    (exceptionClass : String) :
    lastStubbing (.stubbing exceptionClass :: stages) = some (.stubbing exceptionClass) := by
  unfold lastStubbing at h ⊢
  rw [List.filter_cons_of_pos rfl, List.getLast?_cons, h]
  rfl

/-- What a chain comes down to is a stubbing stage. -/
theorem exists_exceptionClass {stages : List Stage} {stage : Stage}
    (h : lastStubbing stages = some stage) :
    ∃ exceptionClass, stage = .stubbing exceptionClass := by
  have hstubbing := (List.mem_filter.mp (List.mem_of_getLast? h)).2
  cases stage with
  | forwarding => cases hstubbing
  | stubbing exceptionClass => exact ⟨exceptionClass, rfl⟩

/-! ## Two stubbing stages

The methods of the outer stage are matched with those of the inner one that they wrap. Both
stages have replaced the same methods. -/

variable {sink : ClassSink σ} {next : ClassSink τ} {S : σ → τ → Prop} {inner : String}

/-- Once the inner stage has opened a method, the outer stage's stub changes nothing. -/
theorem openStubbed_swallows {decl : MethodDecl} {body : StubBody} {outer : String}
    (h : stubBody decl outer = .ok (some body)) :
    (do
      let opened ← openStubbed inner next decl
      (next.stubbing inner).within opened ((next.stubbing inner).sendMethodEvents body.events)) =
      openStubbed inner next decl := by
  funext s
  cases hrun : openStubbed inner next decl s with
  | mk result s' =>
    cases result with
    | error e => exact bind_of_error hrun
    | ok opened =>
      have hreplaced : opened.replaced = true := by
        rw [replaced_of_openStubbed hrun, ← isSome_of_stubBody h]
        rfl
      refine (bind_of_ok hrun).trans (within_eq_ok.mpr ?_)
      exact sendMethodEvents_dropped hreplaced fun e he => isBodyPart_of_events he

/-- In front of what cannot be told from a stubbing stage, another one makes no difference. -/
theorem Simulates.stubbing_absorbed {R : sink.Method → StubbedMethod next.Method → Prop}
    (h : Simulates sink (next.stubbing inner) S R) (outer : String) :
    Simulates (sink.stubbing outer) (next.stubbing inner) S
      (fun m n => m.replaced = n.replaced ∧ R m.next n) where
  header := h.header
  field := h.field
  classAttribute := h.classAttribute
  finish := h.finish
  method decl := by
    change Alike _ S (openStubbed outer sink decl) (openStubbed inner next decl)
    have hopens : Alike R S (sink.method decl) (openStubbed inner next decl) := h.method decl
    have hreplaced : ∀ t n t', openStubbed inner next decl t = (.ok n, t') →
        n.replaced = !decl.access.isBodiless := fun _ _ _ => replaced_of_openStubbed
    cases hstub : stubBody decl outer with
    | error e =>
      rw [openStubbed_of_error hstub, openStubbed_of_error (stubBody_error_congr hstub inner)]
      exact Alike.throw (.stub e)
    | ok stub =>
      have hdecided := isSome_of_stubBody hstub
      rw [← bind_pure (openStubbed inner next decl)]
      cases stub with
      | none =>
        rw [openStubbed_of_none hstub]
        refine Alike.bind (hopens.of_results hreplaced) fun m n hm => ?_
        exact Alike.pure ⟨hdecided.trans hm.2.symm, hm.1⟩
      | some body =>
        have hsends : Alike R S (do
            let opened ← sink.method decl
            sink.within opened (sink.sendMethodEvents body.events))
            (openStubbed inner next decl) := by
          rw [← openStubbed_swallows hstub]
          exact Alike.bind hopens fun m n hm => within hm (Alike.forM h.inMethod body.events)
        rw [openStubbed_of_some hstub, ← bind_assoc]
        refine Alike.bind (hsends.of_results hreplaced) fun m n hm => ?_
        exact Alike.pure ⟨hdecided.trans hm.2.symm, hm.1⟩
  inMethod e := by
    rintro ⟨m, s⟩ ⟨n, t⟩ ⟨⟨hreplaced, hm⟩, hs⟩
    cases hdropped : m.replaced && e.isBodyPart with
    | true =>
      -- what the outer stage drops the inner one would have dropped too
      obtain ⟨hreplaced', he⟩ := (Bool.and_eq_true _ _).mp hdropped
      rw [inStubbed_dropped hreplaced' he, inStubbed_dropped (hreplaced.symm.trans hreplaced') he]
      exact .ok rfl ⟨⟨hreplaced, hm⟩, hs⟩
    | false =>
      have hstep := h.inMethod e (m.next, s) (n, t) ⟨hm, hs⟩
      cases hrun : sink.inMethod e (m.next, s) with
      | mk result p =>
        cases hrun' : (next.stubbing inner).inMethod e (n, t) with
        | mk result' q =>
          have hkept : q.1.replaced = n.replaced := replaced_of_inStubbed hrun'
          rw [hrun, hrun'] at hstep
          rw [inStubbed_passed hdropped hrun]
          cases hstep with
          | error e hmatched =>
            exact .error e ⟨⟨hreplaced.trans hkept.symm, hmatched.1⟩, hmatched.2⟩
          | ok heq hmatched => exact .ok heq ⟨⟨hreplaced.trans hkept.symm, hmatched.1⟩, hmatched.2⟩

/-! ## Chains -/

/-- Sinks that cannot be told apart cannot be told apart behind a chain. -/
theorem Simulates.chained {last : ClassSink σ} {other : ClassSink τ}
    {R : last.Method → other.Method → Prop} (h : Simulates last other S R) (stages : List Stage) :
    ∃ R', Simulates (chained stages last) (chained stages other) S R' := by
  induction stages with
  | nil => exact ⟨R, h⟩
  | cons stage stages ih =>
    obtain ⟨R', hrest⟩ := ih
    cases stage with
    | forwarding => exact ⟨R', hrest⟩
    | stubbing exceptionClass => exact ⟨_, hrest.stubbing exceptionClass⟩

/-- A chain without a stubbing stage is its last sink. -/
theorem collapsed_of_none {stages : List Stage} (h : lastStubbing stages = none)
    (last : ClassSink σ) : collapsed stages last = last := by
  unfold collapsed
  rw [h]

/-- A chain with stubbing stages is its last sink behind the last of them. -/
theorem collapsed_of_some {stages : List Stage} {exceptionClass : String}
    (h : lastStubbing stages = some (.stubbing exceptionClass)) (last : ClassSink σ) :
    collapsed stages last = last.stubbing exceptionClass := by
  unfold collapsed
  rw [h]
  rfl

/-- A chain cannot be told from what it comes down to. -/
theorem chained_simulates (stages : List Stage) (last : ClassSink σ) :
    ∃ R, Simulates (chained stages last) (collapsed stages last) Eq R := by
  induction stages with
  | nil => exact ⟨Eq, Simulates.refl last⟩
  | cons stage stages ih =>
    cases stage with
    | forwarding => exact ih
    | stubbing outer =>
      change ∃ R, Simulates ((chained stages last).stubbing outer) _ Eq R
      cases hinner : lastStubbing stages with
      | none =>
        rw [collapsed_of_none hinner] at ih
        rw [collapsed_of_some (lastStubbing_cons_of_none hinner outer)]
        obtain ⟨R, hrest⟩ := ih
        exact ⟨_, hrest.stubbing outer⟩
      | some stage =>
        obtain ⟨inner, rfl⟩ := exists_exceptionClass hinner
        rw [collapsed_of_some hinner] at ih
        rw [collapsed_of_some (lastStubbing_cons_of_some hinner (.stubbing outer))]
        obtain ⟨R, hrest⟩ := ih
        exact ⟨_, hrest.stubbing_absorbed outer⟩

/-- Whatever is sent to a chain is answered as by the one stage that the chain comes down to, and
the last sink is sent the same events, gives the same answers and ends in the same state. -/
theorem answers_chained (stages : List Stage) (last : ClassSink σ) (events : List ClassEvent)
    (s : σ) : ∃ answers seen s',
      (chained stages last).answers events s = (answers, s') ∧
        (collapsed stages last).answers events s = (answers, s') ∧
        (chained stages last.observed).answers events ([], s) = (answers, (seen, s')) ∧
        (collapsed stages last.observed).answers events ([], s) = (answers, (seen, s')) := by
  obtain ⟨R, hcollapses⟩ := chained_simulates stages last
  obtain ⟨R', hobserved⟩ := chained_simulates stages last.observed
  obtain ⟨R'', herased⟩ := (observed_simulates last).chained stages
  obtain ⟨answers, _, s', hrun, hrun', rfl⟩ := hcollapses.answers rfl events
  obtain ⟨_, _, ⟨seen, t⟩, hseen, hseen', rfl⟩ := hobserved.answers rfl events
  obtain ⟨_, _, _, hbehind, hplain, hlast⟩ := herased.answers rfl events
  cases hseen.symm.trans hbehind
  cases hrun.symm.trans hplain
  cases hlast
  exact ⟨answers, seen, _, hrun, hrun', hseen, hseen'⟩

end JvmStub
