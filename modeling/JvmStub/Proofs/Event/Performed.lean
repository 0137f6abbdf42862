/-
`Performed.lean` -- how far a script gets.

A script is what is to be sent, place by place; where an event cannot be read, it has
the error in the place of the event. Who goes through a script goes past a place only
when the event there was accepted, so there are three ways in which it can end, and
`Performed` has one constructor for each: at the end of the script, at an event that is
refused, or at an error.

`Performs` says this of a step whose state keeps a transcript. It is closed under
sequences and loops, so for a sink that `Keeps` a transcript the script of a step is put
together from the scripts of its parts. Two sinks do: the recorder, and any sink that is
observed.
-/
import JvmStub.Event.Replay
import JvmStub.Proofs.Event.Observed

set_option autoImplicit false

namespace JvmStub

/-- The places of what is to be sent, each with the event that is sent there or with the error
that keeps it from being sent. -/
abbrev Script := List (Except ReadError Event)

/-- The transcript of events that were all accepted. -/
def Transcript.ofAccepted (events : List Event) : Transcript := events.map fun e => (e, .ok ())

/-- The events of a transcript, as part of a script. -/
def Transcript.sent (seen : Transcript) : Script := seen.map fun p => .ok p.1

/-- How a step can end that goes through a script, and what it has sent by then. -/
inductive Performed {α : Type} (script : Script) : Except Error α → Transcript → Prop
  /-- Everything was sent and accepted. -/
  | finished {a : α} (events : List Event) (h : script = events.map .ok) :
      Performed script (.ok a) (Transcript.ofAccepted events)
  /-- An event was refused. -/
  | refused (before : List Event) {e : Event} {after : Script} {error : Error}
      (h : script = before.map .ok ++ .ok e :: after) :
      Performed script (.error error) (Transcript.ofAccepted before ++ [(e, .error error)])
  /-- An event could not be read. -/
  | unread (before : List Event) {r : ReadError} {after : Script}
      (h : script = before.map .ok ++ .error r :: after) :
      Performed script (.error (.read r)) (Transcript.ofAccepted before)

/-- The step goes through the script; `log` is where its state keeps the transcript. -/
def Performs {τ α : Type} (log : τ → Transcript) (script : Script) (x : SinkM τ α) : Prop :=
  ∀ t, ∃ seen, log (x t).2 = log t ++ seen ∧ Performed script (x t).1 seen

/-! ## Steps and their scripts -/

section

variable {τ α β : Type} {log : τ → Transcript} {script script' : Script}

/-- What stands behind a script makes no difference to a step that fails before its end. -/
theorem Performed.append_of_error {e : Error} {seen : Transcript} (more : Script)
    (h : Performed (α := α) script (.error e) seen) :
    Performed (α := β) (script ++ more) (.error e) seen := by
  cases h with
  | refused before h => exact .refused _ (by rw [h, List.append_assoc, List.cons_append])
  | unread before h => exact .unread _ (by rw [h, List.append_assoc, List.cons_append])

/-- What was sent and accepted before stands in front, in the script as in the transcript. -/
theorem Performed.prepend {events : List Event} {result : Except Error α} {seen : Transcript}
    (h : Performed script result seen) :
    Performed (events.map .ok ++ script) result (Transcript.ofAccepted events ++ seen) := by
  unfold Transcript.ofAccepted
  cases h with
  | finished events h =>
    unfold Transcript.ofAccepted
    rw [← List.map_append]
    exact .finished _ (by rw [h, List.map_append])
  | refused before h =>
    unfold Transcript.ofAccepted
    rw [← List.append_assoc, ← List.map_append]
    exact .refused _ (by rw [h, List.map_append, List.append_assoc])
  | unread before h =>
    unfold Transcript.ofAccepted
    rw [← List.map_append]
    exact .unread _ (by rw [h, List.map_append, List.append_assoc])

theorem Performs.pure (a : α) : Performs log [] (pure a) :=
  fun t => ⟨[], (List.append_nil (log t)).symm, .finished [] rfl⟩

/-- Two steps go through their scripts one after the other. -/
theorem Performs.bind {x : SinkM τ α} {f : α → SinkM τ β} (hx : Performs log script x)
    (hf : ∀ a, Performs log script' (f a)) : Performs log (script ++ script') (x >>= f) := by
  intro t
  obtain ⟨seen, hlog, hperformed⟩ := hx t
  cases hrun : x t with
  | mk result t' =>
    rw [hrun] at hlog hperformed
    cases result with
    | error e =>
      rw [bind_of_error hrun]
      exact ⟨seen, hlog, hperformed.append_of_error script'⟩
    | ok a =>
      rw [bind_of_ok hrun]
      obtain ⟨more, hlog', hrest⟩ := hf a t'
      cases hperformed with
      | finished events h =>
        exact ⟨_, by rw [hlog', hlog, List.append_assoc], h ▸ hrest.prepend⟩

/-- Reading that fails ends the step at the place of the event that would have been sent next. -/
theorem performs_unread {γ : Type} (r : ReadError) (f : γ → SinkM τ α) (rest : Script) :
    Performs log (.error r :: rest) (reading (.error r) >>= f) := by
  intro t
  have hread : (reading (.error r) : SinkM τ γ) t = (.error (.read r), t) := rfl
  rw [bind_of_error hread]
  exact ⟨[], (List.append_nil (log t)).symm, .unread [] rfl⟩

/-- Reading that succeeds is no event. -/
theorem Performs.reading {γ : Type} {found : Except ReadError γ} {f : γ → SinkM τ α}
    {event : γ → Event} {rest : Script}
    (hf : ∀ x, Performs log (.ok (event x) :: rest) (f x)) :
    Performs log (found.map event :: rest) (JvmStub.reading found >>= f) := by
  cases found with
  | ok x => exact hf x
  | error r => exact performs_unread r f rest

/-- What is done for each entry of a list is told entry by entry. -/
theorem Performs.forM {γ : Type} {f : γ → SinkM τ PUnit} {part : γ → Script}
    (h : ∀ x, Performs log (part x) (f x)) (xs : List γ) :
    Performs log (xs.flatMap part) (forM xs f) := by
  induction xs with
  | nil => exact Performs.pure _
  | cons x xs ih => exact Performs.bind (h x) fun _ => ih

end

/-! ## Sinks that keep a transcript -/

/-- The sink puts every event that it is sent behind the transcript in its state, with its
answer. -/
structure ClassSink.Keeps {τ : Type} (sink : ClassSink τ) (log : τ → Transcript) : Prop where
  header : ∀ h, Performs log [.ok (.header h)] (sink.header h)
  field : ∀ f, Performs log [.ok (.field f)] (sink.field f)
  method : ∀ decl, Performs log [.ok (.method decl)] (sink.method decl)
  inMethod : ∀ e, Performs (fun p => log p.2) [.ok (.inMethod e)] (sink.inMethod e)
  classAttribute : ∀ a, Performs log [.ok (.attribute a)] (sink.classAttribute a)
  finish : Performs log [.ok .finish] sink.finish

/-- Steps on an open method go through the same script as the step that they make of the class. -/
theorem Performs.within {τ : Type} {log : τ → Transcript} {sink : ClassSink τ} {script : Script}
    {steps : SinkM (sink.Method × τ) Unit} (h : Performs (fun p => log p.2) script steps)
    (opened : sink.Method) : Performs log script (sink.within opened steps) := by
  intro t
  obtain ⟨seen, hlog, hperformed⟩ := h (opened, t)
  unfold ClassSink.within
  cases hrun : steps (opened, t) with
  | mk result state =>
    rw [hrun] at hlog hperformed
    cases hperformed with
    | finished events h => exact ⟨_, hlog, .finished _ h⟩
    | refused before h => exact ⟨_, hlog, .refused _ h⟩
    | unread before h => exact ⟨_, hlog, .unread _ h⟩

open ClassSink

/-- A step that is noted is told as its event. -/
theorem performs_noting {σ α : Type} (e : Event) (step : SinkM σ α) :
    Performs Prod.fst [.ok e] (noting e step) := by
  rintro ⟨seen, s⟩
  cases hrun : step s with
  | mk result s' =>
    rw [noting_run hrun]
    cases result with
    | ok a => exact ⟨[(e, .ok ())], rfl, .finished [e] rfl⟩
    | error error => exact ⟨[(e, .error error)], rfl, .refused [] rfl⟩

/-- A sink that is observed keeps a transcript of all that it is told. -/
theorem observed_keeps {σ : Type} (sink : ClassSink σ) : sink.observed.Keeps Prod.fst where
  header h := performs_noting (.header h) (sink.header h)
  field f := performs_noting (.field f) (sink.field f)
  method decl := performs_noting (.method decl) (sink.method decl)
  classAttribute a := performs_noting (.attribute a) (sink.classAttribute a)
  finish := performs_noting .finish sink.finish
  inMethod e := by
    rintro ⟨m, seen, s⟩
    cases hrun : sink.inMethod e (m, s) with
    | mk result state =>
      rw [observed_inMethod_run hrun]
      cases result with
      | ok u => exact ⟨[(.inMethod e, .ok ())], rfl, .finished [.inMethod e] rfl⟩
      | error error => exact ⟨[(.inMethod e, .error error)], rfl, .refused [] rfl⟩

/-- The recorder keeps no answers, since it accepts everything. -/
theorem recorder_keeps :
    recorder.Keeps fun events => Transcript.ofAccepted events.toList := by
  have hpush : ∀ (events : Array Event) e, Transcript.ofAccepted (events.push e).toList =
      Transcript.ofAccepted events.toList ++ Transcript.ofAccepted [e] := by
    intro events e
    rw [Array.toList_push]
    exact List.map_append
  constructor
  · exact fun h events => ⟨_, hpush events _, .finished [.header h] rfl⟩
  · exact fun f events => ⟨_, hpush events _, .finished [.field f] rfl⟩
  · exact fun decl events => ⟨_, hpush events _, .finished [.method decl] rfl⟩
  · exact fun e state => ⟨_, hpush state.2 _, .finished [.inMethod e] rfl⟩
  · exact fun a events => ⟨_, hpush events _, .finished [.attribute a] rfl⟩
  · exact fun events => ⟨_, hpush events _, .finished [.finish] rfl⟩

/-! ## What can be told from the transcript -/

section

variable {α : Type} {script : Script} {seen : Transcript} {events : List Event}

/-- In a transcript of accepted events, these are what was sent. -/
theorem sent_ofAccepted : (Transcript.ofAccepted events).sent = events.map .ok := by
  simp [Transcript.sent, Transcript.ofAccepted]

theorem forall_ofAccepted : ∀ p ∈ Transcript.ofAccepted events, p.2 = .ok () := by
  simp [Transcript.ofAccepted]

/-- What was sent is the beginning of the script. -/
theorem Performed.sent_prefix {result : Except Error α} (h : Performed script result seen) :
    seen.sent <+: script := by
  cases h with
  | finished events h => exact ⟨[], by rw [List.append_nil, sent_ofAccepted, h]⟩
  | @refused before e after error h =>
    refine ⟨after, ?_⟩
    have hsent : Transcript.sent (Transcript.ofAccepted before ++ [(e, .error error)]) =
        before.map .ok ++ [.ok e] := by
      rw [← sent_ofAccepted]
      exact List.map_append
    rw [hsent, h, List.append_assoc, List.singleton_append]
  | @unread before r after h =>
    rw [sent_ofAccepted, h]
    exact List.prefix_append _ _

/-- A refusal is the last thing in the transcript, and it is what the step comes to. -/
theorem Performed.of_refused {result : Except Error α} (h : Performed script result seen) {k : Nat}
    {e : Event} {error : Error} (hk : seen[k]? = some (e, .error error)) :
    seen.length = k + 1 ∧ result = .error error := by
  have haccepted : ∀ {events : List Event},
      (e, Except.error error) ∉ Transcript.ofAccepted events := fun hmem => by
    cases forall_ofAccepted _ hmem
  cases h with
  | finished events h => exact absurd (List.mem_of_getElem? hk) haccepted
  | unread before h => exact absurd (List.mem_of_getElem? hk) haccepted
  | @refused before e' after error' h =>
    rcases Nat.lt_or_ge k (Transcript.ofAccepted before).length with hlt | hge
    · rw [List.getElem?_append_left hlt] at hk
      exact absurd (List.mem_of_getElem? hk) haccepted
    · rw [List.getElem?_append_right hge, List.getElem?_singleton] at hk
      split at hk
      · next hzero =>
        cases hk
        refine ⟨?_, rfl⟩
        rw [List.length_append, List.length_singleton]
        omega
      · cases hk

/-- A step that fails although everything was accepted has come to an error in its script. -/
theorem Performed.of_accepted {result : Except Error α} (h : Performed script result seen)
    {error : Error} (herror : result = .error error) (hall : ∀ p ∈ seen, p.2 = .ok ()) :
    ∃ r, error = .read r ∧ script[seen.length]? = some (.error r) := by
  cases h with
  | finished events h => cases herror
  | refused before h =>
    have hlast := hall _ List.mem_concat_self
    cases hlast
  | @unread before r after h =>
    cases herror
    refine ⟨r, rfl, ?_⟩
    have hlen : (Transcript.ofAccepted before).length =
        (before.map Except.ok : Script).length := by
      simp [Transcript.ofAccepted]
    rw [h, hlen, List.getElem?_append_right (Nat.le_refl _), Nat.sub_self]
    rfl

/-- A step succeeds exactly when all of its script was sent and accepted. -/
theorem Performed.eq_ok_iff {result : Except Error Unit} (h : Performed script result seen) :
    result = .ok () ↔ seen.sent = script ∧ ∀ p ∈ seen, p.2 = .ok () := by
  cases result with
  | ok u =>
    cases h with
    | finished events h => exact iff_of_true rfl ⟨by rw [sent_ofAccepted, h], forall_ofAccepted⟩
  | error error =>
    refine iff_of_false (by simp) ?_
    rintro ⟨hsent, hall⟩
    -- something would have to stand behind the end of the script
    obtain ⟨r, -, hend⟩ := h.of_accepted rfl hall
    rw [← hsent, Transcript.sent, List.getElem?_eq_none (by simp)] at hend
    cases hend

/-- Where everything can be read, only a refusal ends a step before its end. -/
theorem Performed.of_events {result : Except Error α} (h : Performed (events.map .ok) result seen) :
    ((∃ a, result = .ok a) ∧ seen = Transcript.ofAccepted events) ∨
      ∃ before e after error, events = before ++ e :: after ∧ result = .error error ∧
        seen = Transcript.ofAccepted before ++ [(e, .error error)] := by
  have hinj : Function.Injective (Except.ok : Event → Except ReadError Event) :=
    fun _ _ => Except.ok.inj
  cases h with
  | finished sent h => exact .inl ⟨⟨_, rfl⟩, congrArg _ (List.map_injective_iff.mpr hinj h).symm⟩
  | @refused before e after error h =>
    obtain ⟨front, back, rfl, hfront, hback⟩ := List.map_eq_append_iff.mp h
    obtain ⟨e', rest, rfl, he, -⟩ := List.map_eq_cons_iff.mp hback
    rw [List.map_injective_iff.mpr hinj hfront, hinj he]
    exact .inr ⟨before, e, rest, error, rfl, rfl, rfl⟩
  | @unread before r after h =>
    have hmem : Except.error r ∈ events.map Except.ok := by
      rw [h]
      exact List.mem_append_right _ List.mem_cons_self
    obtain ⟨e, -, he⟩ := List.mem_map.mp hmem
    cases he

end

/-- Events that are sent up to the first refusal are all accepted, or the refused one is the last
in the transcript. -/
theorem sendMethodEvents_observed {σ : Type} {next : ClassSink σ} (events : List MethodEvent)
    (m : next.Method) (seen : Transcript) (s : σ) :
    (∃ m' s', next.observed.sendMethodEvents events (m, seen, s) =
      (.ok (), (m', seen ++ Transcript.accepted events, s'))) ∨
    ∃ before e after error m' s', events = before ++ e :: after ∧
      next.observed.sendMethodEvents events (m, seen, s) = (.error error,
        (m', seen ++ Transcript.accepted before ++ [(.inMethod e, .error error)], s')) := by
  have haccepted : ∀ events, Transcript.accepted events =
      Transcript.ofAccepted (events.map .inMethod) := by
    simp [Transcript.accepted, Transcript.ofAccepted]
  have hsend : Performs (fun p => p.2.1) ((events.map Event.inMethod).map .ok)
      (next.observed.sendMethodEvents events) := by
    rw [List.map_map, List.map_eq_flatMap]
    exact Performs.forM (observed_keeps next).inMethod events
  -- what was sent is the front of the events, up to the first refusal
  obtain ⟨sent, hlog, hperformed⟩ := hsend (m, seen, s)
  cases hrun : next.observed.sendMethodEvents events (m, seen, s) with
  | mk result state =>
    obtain ⟨m', seen', s'⟩ := state
    rw [hrun] at hlog hperformed
    obtain rfl : seen' = seen ++ sent := hlog
    obtain ⟨⟨u, rfl⟩, rfl⟩ | ⟨front, e, back, error, hevents, rfl, rfl⟩ := hperformed.of_events
    · exact .inl ⟨m', s', by rw [haccepted]⟩
    · obtain ⟨before, behind, rfl, rfl, hbehind⟩ := List.map_eq_append_iff.mp hevents
      obtain ⟨e', after, rfl, rfl, -⟩ := List.map_eq_cons_iff.mp hbehind
      refine .inr ⟨before, e', after, error, m', s', rfl, ?_⟩
      rw [haccepted, List.append_assoc]

end JvmStub
