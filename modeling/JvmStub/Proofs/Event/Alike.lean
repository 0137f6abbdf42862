/-
`Alike.lean` -- sinks that a sender cannot tell apart.

Whoever sends events to a sink sees its answers and nothing else. Two sinks are the
same to every sender if open methods and states of the one can be matched with those
of the other, so that matched ones answer every event alike and stay matched. The two
need not keep the same things: `Simulates` leaves open which states belong together.

`Alike` is this for a single step. It is closed under sequences, which is what lets a
stage be compared event by event: the events that a stage sends on its own are steps
like any others. The main statement is `Simulates.answers`.
-/
import JvmStub.Proofs.Event.Sending
import JvmStub.Proofs.Steps

set_option autoImplicit false

namespace JvmStub

/-! ## Steps -/

section

variable {σ τ α β γ δ : Type} {R : α → β → Prop} {R' : γ → δ → Prop} {S : σ → τ → Prop}

/-- The same refusal, or results that belong together; the states belong together either way. -/
inductive AlikeOutcome (R : α → β → Prop) (S : σ → τ → Prop) :
    Except Error α × σ → Except Error β × τ → Prop
  | ok {a : α} {b : β} {s : σ} {t : τ} (hr : R a b) (hs : S s t) :
      AlikeOutcome R S (.ok a, s) (.ok b, t)
  | error (e : Error) {s : σ} {t : τ} (hs : S s t) : AlikeOutcome R S (.error e, s) (.error e, t)

/-- Steps that have the same outcome wherever they start from states that belong together. -/
def Alike (R : α → β → Prop) (S : σ → τ → Prop) (x : SinkM σ α) (y : SinkM τ β) : Prop :=
  ∀ s t, S s t → AlikeOutcome R S (x s) (y t)

theorem Alike.refl (x : SinkM σ α) : Alike Eq Eq x x := by
  rintro s _ rfl
  cases x s with
  | mk result s' =>
    cases result with
    | error e => exact .error e rfl
    | ok a => exact .ok rfl rfl

theorem Alike.pure {a : α} {b : β} (h : R a b) :
    Alike R S (pure a : SinkM σ α) (pure b : SinkM τ β) := fun _ _ hs => .ok h hs

theorem Alike.throw (e : Error) : Alike R S (throw e : SinkM σ α) (throw e : SinkM τ β) :=
  fun _ _ hs => .error e hs

/-- Steps one after the other go alike when each pair of them does, from any results that belong
together. -/
theorem Alike.bind {x : SinkM σ α} {y : SinkM τ β} {f : α → SinkM σ γ} {g : β → SinkM τ δ}
    (hx : Alike R S x y) (hf : ∀ a b, R a b → Alike R' S (f a) (g b)) :
    Alike R' S (x >>= f) (y >>= g) := by
  intro s t hs
  have hfirst := hx s t hs
  cases hrun : x s with
  | mk result s' =>
    cases hrun' : y t with
    | mk result' t' =>
      rw [hrun, hrun'] at hfirst
      cases hfirst with
      | error e hs' =>
        rw [bind_of_error hrun, bind_of_error hrun']
        exact .error e hs'
      | @ok a b _ _ hr hs' =>
        rw [bind_of_ok hrun, bind_of_ok hrun']
        exact hf a b hr s' t' hs'

/-- What holds of all results on the one side is known of matched results. -/
theorem Alike.of_results {P : β → Prop} {x : SinkM σ α} {y : SinkM τ β} (h : Alike R S x y)
    (hy : ∀ t b t', y t = (.ok b, t') → P b) : Alike (fun a b => R a b ∧ P b) S x y := by
  intro s t hs
  have houtcome := h s t hs
  cases hrun : x s with
  | mk result s' =>
    cases hrun' : y t with
    | mk result' t' =>
      rw [hrun, hrun'] at houtcome
      cases houtcome with
      | error e hs' => exact .error e hs'
      | ok hr hs' => exact .ok ⟨hr, hy t _ t' hrun'⟩ hs'

/-- Steps for each entry of a list go alike when those for one entry do. -/
theorem Alike.forM {f : γ → SinkM σ PUnit} {g : γ → SinkM τ PUnit}
    (h : ∀ x, Alike Eq S (f x) (g x)) (xs : List γ) : Alike Eq S (forM xs f) (forM xs g) := by
  induction xs with
  | nil => exact Alike.pure rfl
  | cons x xs ih => exact Alike.bind (h x) fun _ _ _ => ih

end

/-! ## Sinks -/

/-- To a sender the one sink is the other: matched methods in states that belong together answer
alike. -/
structure Simulates {σ τ : Type} (sink : ClassSink σ) (other : ClassSink τ) (S : σ → τ → Prop)
    (R : sink.Method → other.Method → Prop) : Prop where
  header : ∀ h, Alike Eq S (sink.header h) (other.header h)
  field : ∀ f, Alike Eq S (sink.field f) (other.field f)
  method : ∀ decl, Alike R S (sink.method decl) (other.method decl)
  inMethod : ∀ e, Alike Eq (fun p q => R p.1 q.1 ∧ S p.2 q.2) (sink.inMethod e) (other.inMethod e)
  classAttribute : ∀ a, Alike Eq S (sink.classAttribute a) (other.classAttribute a)
  finish : Alike Eq S sink.finish other.finish

namespace Simulates

variable {σ τ : Type} {sink : ClassSink σ} {other : ClassSink τ} {S : σ → τ → Prop}
  {R : sink.Method → other.Method → Prop} {s : σ} {t : τ}

/-- A sink is itself to every sender. -/
theorem refl (sink : ClassSink σ) : Simulates sink sink Eq Eq where
  header _ := Alike.refl _
  field _ := Alike.refl _
  method _ := Alike.refl _
  classAttribute _ := Alike.refl _
  finish := Alike.refl _
  inMethod e := by
    rintro ⟨m, s⟩ ⟨n, t⟩ ⟨rfl, rfl⟩
    cases sink.inMethod e (m, s) with
    | mk result state =>
      cases result with
      | error error => exact .error error ⟨rfl, rfl⟩
      | ok u => exact .ok rfl ⟨rfl, rfl⟩

/-- Steps inside matched methods leave them matched. -/
theorem within {m : sink.Method} {n : other.Method} (hm : R m n)
    {x : SinkM (sink.Method × σ) Unit} {y : SinkM (other.Method × τ) Unit}
    (h : Alike Eq (fun p q => R p.1 q.1 ∧ S p.2 q.2) x y) :
    Alike R S (sink.within m x) (other.within n y) := by
  intro s t hs
  have hinside := h (m, s) (n, t) ⟨hm, hs⟩
  unfold ClassSink.within
  cases hrun : x (m, s) with
  | mk result p =>
    cases hrun' : y (n, t) with
    | mk result' q =>
      rw [hrun, hrun'] at hinside
      cases hinside with
      | error e hs' => exact .error e hs'.2
      | ok hr hs' => exact .ok hs'.1 hs'.2

/-- Sinks that go alike answer alike inside a method, event by event. -/
theorem answersInMethod (h : Simulates sink other S R) {m : sink.Method} {n : other.Method}
    (hm : R m n) (hs : S s t) (events : List MethodEvent) :
    ∃ answers p q, sink.answersInMethod events m s = (answers, p) ∧
      other.answersInMethod events n t = (answers, q) ∧ R p.1 q.1 ∧ S p.2 q.2 := by
  induction events using List.reverseRecOn with
  | nil => exact ⟨_, _, _, rfl, rfl, hm, hs⟩
  | append_singleton events e ih =>
    obtain ⟨answers, p, q, hrun, hrun', hmatched⟩ := ih
    have hstep := h.inMethod e p q hmatched
    cases hanswer : sink.inMethod e p with
    | mk result p' =>
      cases hanswer' : other.inMethod e q with
      | mk result' q' =>
        rw [hanswer, hanswer'] at hstep
        have hnext := answersInMethod_snoc hrun hanswer
        have hnext' := answersInMethod_snoc hrun' hanswer'
        cases hstep with
        | error e hmatched' => exact ⟨_, p', q', hnext, hnext', hmatched'⟩
        | ok heq hmatched' =>
          subst heq
          exact ⟨_, p', q', hnext, hnext', hmatched'⟩

/-- A step of a class that is alike on both sides is answered alike. -/
theorem piece {x : SinkM σ Unit} {y : SinkM τ Unit} (h : Alike Eq S x y) (hs : S s t) :
    (x s).1 = (y t).1 ∧ S (x s).2 (y t).2 := by
  have houtcome := h s t hs
  generalize x s = first at houtcome ⊢
  generalize y t = second at houtcome ⊢
  cases houtcome with
  | error e hs' => exact ⟨rfl, hs'⟩
  | ok heq hs' => exact ⟨congrArg Except.ok heq, hs'⟩

/-- Sinks that go alike answer a piece of a class alike. -/
theorem answer (h : Simulates sink other S R) (hs : S s t) (e : ClassEvent) :
    ∃ answer s' t', sink.answer e s = (answer, s') ∧ other.answer e t = (answer, t') ∧ S s' t' := by
  cases e with
  | header hd =>
    obtain ⟨hsame, hs'⟩ := piece (h.header hd) hs
    exact ⟨_, _, _, rfl, by rw [hsame]; rfl, hs'⟩
  | field f =>
    obtain ⟨hsame, hs'⟩ := piece (h.field f) hs
    exact ⟨_, _, _, rfl, by rw [hsame]; rfl, hs'⟩
  | «attribute» a =>
    obtain ⟨hsame, hs'⟩ := piece (h.classAttribute a) hs
    exact ⟨_, _, _, rfl, by rw [hsame]; rfl, hs'⟩
  | finish =>
    obtain ⟨hsame, hs'⟩ := piece h.finish hs
    exact ⟨_, _, _, rfl, by rw [hsame]; rfl, hs'⟩
  | method decl sent =>
    have hopened := h.method decl s t hs
    cases hrun : sink.method decl s with
    | mk result s' =>
      cases hrun' : other.method decl t with
      | mk result' t' =>
        rw [hrun, hrun'] at hopened
        cases hopened with
        | error e hs' => exact ⟨_, s', t', answer_of_method_error hrun, answer_of_method_error hrun', hs'⟩
        | ok hm hs' =>
          obtain ⟨answers, p, q, hinside, hinside', -, hlast⟩ := h.answersInMethod hm hs' sent
          exact ⟨_, p.2, q.2, answer_of_method_ok hrun hinside, answer_of_method_ok hrun' hinside',
            hlast⟩

/-- Matched sinks give the same answers to all events, and stay matched. -/
theorem answers (h : Simulates sink other S R) (hs : S s t) (events : List ClassEvent) :
    ∃ answers s' t', sink.answers events s = (answers, s') ∧
      other.answers events t = (answers, t') ∧ S s' t' := by
  induction events using List.reverseRecOn with
  | nil => exact ⟨_, s, t, rfl, rfl, hs⟩
  | append_singleton events e ih =>
    obtain ⟨before, mid, mid', hrun, hrun', hmid⟩ := ih
    obtain ⟨answer, s', t', hanswer, hanswer', hs'⟩ := h.answer hmid e
    exact ⟨_, s', t', answers_snoc hrun hanswer, answers_snoc hrun' hanswer', hs'⟩

end Simulates

end JvmStub
