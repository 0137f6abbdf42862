/-
`Stage.lean` -- the stage that replaces bodies, in front of any sink.

The stage decides on a method when it is declared, and no event inside the method
changes its mind: `replaced_of_openStubbed`, `replaced_of_inStubbed`. From then on an
event has one of two fates, `inStubbed_passed` and `inStubbed_dropped`.

Nothing here knows what stands behind the stage. Sinks that cannot be told apart
without the stage cannot be told apart with it, `Simulates.stubbing`.
-/
import JvmStub.Proofs.Event.Alike
import JvmStub.Stub.Stage

set_option autoImplicit false

namespace JvmStub

/-! ## The stub that is decided on -/

section

variable {decl : MethodDecl} {exceptionClass : String}

/-- A method has no stub exactly when it has no body. -/
theorem stubBody_of_bodiless (h : decl.access.isBodiless = true) :
    stubBody decl exceptionClass = .ok none := by
  unfold stubBody
  rw [if_pos h]
  rfl

/-- The stub of a method with a body: its descriptor can be read, and a constructor, which gives
nothing back and has a receiver, throws; any other method returns a zero. -/
theorem stubBody_eq_ok {stub : Option StubBody} (h : decl.access.isBodiless = false) :
    stubBody decl exceptionClass = .ok stub ↔ ∃ descriptor,
      MethodDescriptor.parse decl.descriptor = .ok descriptor ∧
        if decl.name = constructorName then
          descriptor.result = .void ∧ decl.access.isStatic = false ∧
            stub = some (.throwing exceptionClass
              (descriptor.argumentSlotCount decl.access.isStatic))
        else
          stub = some (.returningZero descriptor.result.category
            (descriptor.argumentSlotCount decl.access.isStatic)) := by
  unfold stubBody
  simp only [h, Bool.false_eq_true, if_false]
  rw [except_bind_eq_ok]
  refine exists_congr fun descriptor => ?_
  rw [mapError_eq_ok]
  refine and_congr_right fun _ => ?_
  by_cases hname : decl.name = constructorName
  · by_cases hvoid : descriptor.result = .void <;> cases hstatic : decl.access.isStatic <;>
      simp [hname, hvoid, pure, Except.pure, bind, Except.bind, throw, throwThe,
        MonadExceptOf.throw, eq_comm]
  · simp [hname, pure, Except.pure, eq_comm]

/-- The methods that get a stub are those that have a body. -/
theorem isSome_of_stubBody {stub : Option StubBody} (h : stubBody decl exceptionClass = .ok stub) :
    stub.isSome = !decl.access.isBodiless := by
  cases hbodiless : decl.access.isBodiless with
  | true =>
    rw [stubBody_of_bodiless hbodiless] at h
    cases h
    rfl
  | false =>
    obtain ⟨descriptor, -, hcases⟩ := (stubBody_eq_ok hbodiless).mp h
    split at hcases
    · rw [hcases.2.2]
      rfl
    · rw [hcases]
      rfl

/-- The class that constructors throw does not decide whether a method can be stubbed. -/
theorem stubBody_error_congr {e : StubError} (h : stubBody decl exceptionClass = .error e)
    (other : String) : stubBody decl other = .error e := by
  unfold stubBody at h ⊢
  split at h
  · cases h
  · rename_i hbody
    rw [if_neg hbody]
    rcases except_bind_eq_error.mp h with hparse | ⟨descriptor, hparse, h⟩
    · rw [hparse]
      rfl
    · rw [hparse]
      by_cases hname : decl.name = constructorName
      · -- past both checks of a constructor there is a stub and no error
        by_cases hvoid : descriptor.result = .void <;> cases hstatic : decl.access.isStatic <;>
          simp_all [pure, Except.pure, bind, Except.bind, throw, throwThe, MonadExceptOf.throw]
      · rw [if_neg hname] at h
        cases h

/-- Nothing but a body is told by the events of a stub. -/
theorem isBodyPart_of_events {body : StubBody} {e : MethodEvent} (h : e ∈ body.events) :
    e.isBodyPart = true := by
  unfold StubBody.events at h
  rcases List.mem_append.mp h with h | h
  · rcases List.mem_append.mp h with h | h
    · rw [List.mem_singleton.mp h]
      rfl
    · obtain ⟨i, -, rfl⟩ := List.mem_map.mp h
      rfl
  · rw [List.mem_singleton.mp h]
    rfl

end

section

variable {σ : Type} {next : ClassSink σ} {exceptionClass : String} {decl : MethodDecl}
  {opened : StubbedMethod next.Method} {s s' : σ}

/-! ## Opening a method -/

/-- A method that cannot be stubbed is refused, and the sink behind the stage is left alone. -/
theorem openStubbed_of_error {e : StubError} (h : stubBody decl exceptionClass = .error e) :
    ClassSink.openStubbed exceptionClass next decl = throw (.stub e) := by
  unfold ClassSink.openStubbed
  rw [h]

theorem openStubbed_of_none (h : stubBody decl exceptionClass = .ok none) :
    ClassSink.openStubbed exceptionClass next decl =
      (do return ⟨false, ← next.method decl⟩) := by
  unfold ClassSink.openStubbed
  rw [h]

/-- A method with a body is opened and then sent its stub. -/
theorem openStubbed_of_some {body : StubBody} (h : stubBody decl exceptionClass = .ok (some body)) :
    ClassSink.openStubbed exceptionClass next decl = (do
      let opened ← next.method decl
      return ⟨true, ← next.within opened (next.sendMethodEvents body.events)⟩) := by
  unfold ClassSink.openStubbed
  rw [h]

/-- The stage replaces the body of a method that has one. -/
theorem replaced_of_openStubbed
    (h : ClassSink.openStubbed exceptionClass next decl s = (.ok opened, s')) :
    opened.replaced = !decl.access.isBodiless := by
  cases hstub : stubBody decl exceptionClass with
  | error e =>
    rw [openStubbed_of_error hstub] at h
    cases h
  | ok stub =>
    rw [← isSome_of_stubBody hstub]
    cases stub with
    | none =>
      rw [openStubbed_of_none hstub] at h
      obtain ⟨m, mid, -, h⟩ := bind_eq_ok.mp h
      cases h
      rfl
    | some body =>
      rw [openStubbed_of_some hstub] at h
      obtain ⟨m, mid, -, h⟩ := bind_eq_ok.mp h
      obtain ⟨m', mid', -, h⟩ := bind_eq_ok.mp h
      cases h
      rfl

/-! ## Inside a method -/

/-- Part of a body is dropped where the stage has replaced the body. -/
theorem inStubbed_dropped {e : MethodEvent} (h : opened.replaced = true)
    (he : e.isBodyPart = true) :
    (next.stubbing exceptionClass).inMethod e (opened, s) = (.ok (), (opened, s)) := by
  change ClassSink.inStubbed next e (opened, s) = _
  unfold ClassSink.inStubbed
  dsimp only
  rw [h, he, Bool.and_self, if_pos rfl]

/-- Any other event passes. -/
theorem inStubbed_passed {e : MethodEvent} {m : next.Method} {result : Except Error Unit}
    (h : (opened.replaced && e.isBodyPart) = false)
    (hrun : next.inMethod e (opened.next, s) = (result, (m, s'))) :
    (next.stubbing exceptionClass).inMethod e (opened, s) =
      (result, (⟨opened.replaced, m⟩, s')) := by
  change ClassSink.inStubbed next e (opened, s) = _
  unfold ClassSink.inStubbed
  dsimp only
  rw [h, if_neg Bool.false_ne_true, hrun]
  rfl

/-- Events that are no parts of a body go through the stage. -/
theorem inStubbed_eq_ok (next : ClassSink σ) (exceptionClass : String) (replaced : Bool)
    {e : MethodEvent} (he : e.isBodyPart = false) {m : next.Method}
    {after : StubbedMethod next.Method × σ} :
    (next.stubbing exceptionClass).inMethod e (⟨replaced, m⟩, s) = (.ok (), after) ↔
      ∃ m' s', next.inMethod e (m, s) = (.ok (), (m', s')) ∧ after = (⟨replaced, m'⟩, s') := by
  have hpasses : (replaced && e.isBodyPart) = false := by rw [he, Bool.and_false]
  cases hrun : next.inMethod e (m, s) with
  | mk result state =>
    rw [inStubbed_passed hpasses hrun]
    constructor
    · intro h
      cases h
      exact ⟨_, _, rfl, rfl⟩
    · rintro ⟨m', s', h, rfl⟩
      cases h
      rfl

/-- An event that the stage passes on is refused where the sink behind the stage refuses it. -/
theorem inStubbed_eq_error (next : ClassSink σ) (exceptionClass : String) (replaced : Bool)
    {e : MethodEvent} (he : e.isBodyPart = false) {m : next.Method} {error : Error}
    {after : StubbedMethod next.Method × σ}
    (h : (next.stubbing exceptionClass).inMethod e (⟨replaced, m⟩, s) = (.error error, after)) :
    ∃ m', next.inMethod e (m, s) = (.error error, (m', after.2)) := by
  have hpasses : (replaced && e.isBodyPart) = false := by rw [he, Bool.and_false]
  cases hrun : next.inMethod e (m, s) with
  | mk result state =>
    rw [inStubbed_passed hpasses hrun] at h
    cases h
    exact ⟨state.1, rfl⟩

/-- Whether the body was replaced is settled when the method is opened. -/
theorem replaced_of_inStubbed {e : MethodEvent} {state : StubbedMethod next.Method × σ}
    {answer : Except Error Unit} (h : ClassSink.inStubbed next e (opened, s) = (answer, state)) :
    state.1.replaced = opened.replaced := by
  unfold ClassSink.inStubbed at h
  dsimp only at h
  split at h
  · cases h
    rfl
  · cases h
    rfl

/-- Events one after the other leave it at that too. -/
theorem replaced_of_forM {α : Type} {event : α → MethodEvent} {xs : List α}
    {state : StubbedMethod next.Method × σ}
    (h : (forM xs fun x => (next.stubbing exceptionClass).inMethod (event x)) (opened, s) =
      (.ok (), state)) : state.1.replaced = opened.replaced := by
  induction xs generalizing opened s with
  | nil =>
    cases h
    rfl
  | cons x xs ih =>
    rw [List.forM_cons] at h
    obtain ⟨⟨⟩, ⟨mid, t⟩, hfirst, hrest⟩ := bind_eq_ok.mp h
    have hkept : mid.replaced = opened.replaced := replaced_of_inStubbed hfirst
    rw [ih hrest, hkept]

/-- A method that has been replaced swallows a whole body. -/
theorem sendMethodEvents_dropped {events : List MethodEvent} (h : opened.replaced = true)
    (hevents : ∀ e ∈ events, e.isBodyPart = true) :
    (next.stubbing exceptionClass).sendMethodEvents events (opened, s) =
      (.ok (), (opened, s)) := by
  unfold ClassSink.sendMethodEvents
  induction events with
  | nil => rfl
  | cons e events ih =>
    obtain ⟨hfirst, hrest⟩ := List.forall_mem_cons.mp hevents
    rw [List.forM_cons]
    exact (bind_of_ok (inStubbed_dropped h hfirst)).trans (ih hrest)

end

/-! ## Two sinks behind the stage -/

/-- What cannot be told apart behind the stage cannot be told apart through it. -/
theorem Simulates.stubbing {σ τ : Type} {sink : ClassSink σ} {other : ClassSink τ}
    {S : σ → τ → Prop} {R : sink.Method → other.Method → Prop} (h : Simulates sink other S R)
    (exceptionClass : String) :
    Simulates (sink.stubbing exceptionClass) (other.stubbing exceptionClass) S
      (fun m n => m.replaced = n.replaced ∧ R m.next n.next) where
  header := h.header
  field := h.field
  classAttribute := h.classAttribute
  finish := h.finish
  method decl := by
    change Alike _ S (ClassSink.openStubbed exceptionClass sink decl)
      (ClassSink.openStubbed exceptionClass other decl)
    cases hstub : stubBody decl exceptionClass with
    | error e =>
      rw [openStubbed_of_error hstub, openStubbed_of_error hstub]
      exact Alike.throw (.stub e)
    | ok stub =>
      cases stub with
      | none =>
        rw [openStubbed_of_none hstub, openStubbed_of_none hstub]
        exact Alike.bind (h.method decl) fun m n hm => Alike.pure ⟨rfl, hm⟩
      | some body =>
        rw [openStubbed_of_some hstub, openStubbed_of_some hstub]
        refine Alike.bind (h.method decl) fun m n hm => ?_
        refine Alike.bind (within hm (Alike.forM h.inMethod body.events)) fun m' n' hm' => ?_
        exact Alike.pure ⟨rfl, hm'⟩
  inMethod e := by
    rintro ⟨m, s⟩ ⟨n, t⟩ ⟨⟨hreplaced, hm⟩, hs⟩
    -- both stages drop the event or both let it through, as they agree on what they have replaced
    cases hdropped : m.replaced && e.isBodyPart with
    | true =>
      obtain ⟨hreplaced', he⟩ := (Bool.and_eq_true _ _).mp hdropped
      rw [inStubbed_dropped hreplaced' he, inStubbed_dropped (hreplaced.symm.trans hreplaced') he]
      exact .ok rfl ⟨⟨hreplaced, hm⟩, hs⟩
    | false =>
      have hstep := h.inMethod e (m.next, s) (n.next, t) ⟨hm, hs⟩
      cases hrun : sink.inMethod e (m.next, s) with
      | mk result p =>
        cases hrun' : other.inMethod e (n.next, t) with
        | mk result' q =>
          rw [hrun, hrun'] at hstep
          rw [inStubbed_passed hdropped hrun, inStubbed_passed (hreplaced ▸ hdropped) hrun']
          cases hstep with
          | error e hmatched => exact .error e ⟨⟨hreplaced, hmatched.1⟩, hmatched.2⟩
          | ok heq hmatched => exact .ok heq ⟨⟨hreplaced, hmatched.1⟩, hmatched.2⟩

end JvmStub
