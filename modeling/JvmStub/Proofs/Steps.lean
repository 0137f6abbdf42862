/-
`Steps.lean` -- running steps that keep a state and may fail.

Requests to a pool, events sent to a sink and decoders are all written in a
monad that threads a state through a computation that may stop. The proofs of
this library never take such a computation apart by hand: they run it one step
at a time with the lemmas below, forwards with `bind_of_ok` and `bind_of_error`,
and backwards, from a success to the successes of its parts, with `bind_eq_ok`.
-/
import JvmStub.ClassFile.Decoder
import JvmStub.Event.Sink
import Mathlib.Data.List.Forall2

set_option autoImplicit false

namespace JvmStub

section

variable {ε σ α β : Type}

/-! ## The state outlives a failure

This is the shape of `PoolM` and of `SinkM`. -/

/-- A step that succeeds hands its result and its state to the rest. -/
theorem bind_of_ok {x : ExceptT ε (StateM σ) α} {f : α → ExceptT ε (StateM σ) β} {s s' : σ} {a : α}
    (h : x s = (.ok a, s')) : (x >>= f) s = f a s' := by
  -- what `>>=` comes to when the state is given: the step runs, and its result decides
  change (match x s with | (r, s) => ExceptT.bindCont f r s) = _
  rw [h]
  rfl

/-- A step that fails leaves its state and its error as they are. -/
theorem bind_of_error {x : ExceptT ε (StateM σ) α} {f : α → ExceptT ε (StateM σ) β} {s s' : σ}
    {e : ε} (h : x s = (.error e, s')) : (x >>= f) s = (.error e, s') := by
  change (match x s with | (r, s) => ExceptT.bindCont f r s) = _
  rw [h]
  rfl

/-- A sequence succeeds exactly when its first step does and then its rest. -/
theorem bind_eq_ok {x : ExceptT ε (StateM σ) α} {f : α → ExceptT ε (StateM σ) β} {s s'' : σ}
    {b : β} :
    (x >>= f) s = (.ok b, s'') ↔ ∃ a s', x s = (.ok a, s') ∧ f a s' = (.ok b, s'') := by
  constructor
  · intro h
    cases hx : x s with
    | mk result s' =>
      cases result with
      | error e =>
        rw [bind_of_error hx] at h
        cases h
      | ok a =>
        rw [bind_of_ok hx] at h
        exact ⟨a, s', rfl, h⟩
  · rintro ⟨a, s', hx, hf⟩
    rw [bind_of_ok hx, hf]

/-- A sequence fails where its first step does, or else where its rest does. -/
theorem bind_eq_error {x : ExceptT ε (StateM σ) α} {f : α → ExceptT ε (StateM σ) β} {s s'' : σ}
    {e : ε} : (x >>= f) s = (.error e, s'') ↔
      x s = (.error e, s'') ∨ ∃ a s', x s = (.ok a, s') ∧ f a s' = (.error e, s'') := by
  cases hx : x s with
  | mk result s' =>
    cases result with
    | error e' =>
      rw [bind_of_error hx]
      constructor
      · intro h
        cases h
        exact .inl rfl
      · rintro (h | ⟨a, mid, hok, -⟩)
        · cases h
          rfl
        · cases hok
    | ok a =>
      rw [bind_of_ok hx]
      refine ⟨fun h => .inr ⟨a, s', rfl, h⟩, ?_⟩
      rintro (h | ⟨a', mid, hok, h⟩)
      · cases h
      · cases hok
        exact h

/-- Two sequences that begin alike run alike where their rests do. -/
theorem bind_congr_of_ok {x y : ExceptT ε (StateM σ) α} {f g : α → ExceptT ε (StateM σ) β} {s : σ}
    (hx : x s = y s) (hf : ∀ a s', y s = (.ok a, s') → f a s' = g a s') :
    (x >>= f) s = (y >>= g) s := by
  cases hrun : y s with
  | mk result s' =>
    rw [hrun] at hx
    cases result with
    | error e => rw [bind_of_error hx, bind_of_error hrun]
    | ok a => rw [bind_of_ok hx, bind_of_ok hrun, hf a s' hrun]

/-- A sequence does to the state what its parts do, also where it stops midway. -/
theorem bind_state {R : σ → σ → Prop} {x : ExceptT ε (StateM σ) α} {f : α → ExceptT ε (StateM σ) β}
    {s : σ} (htrans : ∀ {s₁ s₂ s₃}, R s₁ s₂ → R s₂ s₃ → R s₁ s₃) (hx : R s (x s).2)
    (hf : ∀ a s', x s = (.ok a, s') → R s' (f a s').2) : R s ((x >>= f) s).2 := by
  cases hrun : x s with
  | mk result s' =>
    rw [hrun] at hx
    cases result with
    | error e =>
      rw [bind_of_error hrun]
      exact hx
    | ok a =>
      rw [bind_of_ok hrun]
      exact htrans hx (hf a s' hrun)

@[simp] theorem pure_run (a : α) (s : σ) :
    (pure a : ExceptT ε (StateM σ) α) s = (.ok a, s) := rfl

@[simp] theorem get_run (s : σ) : (get : ExceptT ε (StateM σ) σ) s = (.ok s, s) := rfl

/-- Steps that run alike for every entry run alike for all of them. -/
theorem forM_congr {f g : α → ExceptT ε (StateM σ) PUnit} {xs : List α}
    (h : ∀ x ∈ xs, f x = g x) : forM xs f = forM xs g := by
  induction xs with
  | nil => rfl
  | cons x xs ih =>
    obtain ⟨hx, hxs⟩ := List.forall_mem_cons.mp h
    rw [List.forM_cons, List.forM_cons, hx, ih hxs]

/-- Steps inside a method succeed as they do on the method and the sink together. -/
theorem within_eq_ok {next : ClassSink σ} {m m' : next.Method}
    {steps : SinkM (next.Method × σ) Unit} {s s' : σ} :
    next.within m steps s = (.ok m', s') ↔ steps (m, s) = (.ok (), (m', s')) := by
  unfold ClassSink.within
  cases hrun : steps (m, s) with
  | mk result state =>
    cases result with
    | error e =>
      constructor
      · intro h
        cases h
      · intro h
        cases h
    | ok u =>
      constructor
      · intro h
        cases h
        rfl
      · intro h
        cases h
        rfl

/-- Steps that run alike on the method and the sink together run alike inside the method. -/
theorem within_congr {next : ClassSink σ} {m : next.Method}
    {steps steps' : SinkM (next.Method × σ) Unit} {s : σ} (h : steps (m, s) = steps' (m, s)) :
    next.within m steps s = next.within m steps' s := by
  unfold ClassSink.within
  rw [h]

/-- Steps inside a method fail as they do on the method and the sink together. -/
theorem within_eq_error {next : ClassSink σ} {m : next.Method} {steps : SinkM (next.Method × σ) Unit}
    {s s' : σ} {e : Error} :
    next.within m steps s = (.error e, s') ↔ ∃ m', steps (m, s) = (.error e, (m', s')) := by
  unfold ClassSink.within
  cases hrun : steps (m, s) with
  | mk result state =>
    cases result with
    | error e' =>
      constructor
      · intro h
        cases h
        exact ⟨state.1, rfl⟩
      · rintro ⟨m', h⟩
        cases h
        rfl
    | ok u =>
      constructor
      · intro h
        cases h
      · rintro ⟨m', h⟩
        cases h

/-! ## Steps without a state -/

/-- A sequence succeeds exactly when its first step does and then its rest. -/
theorem except_bind_eq_ok {x : Except ε α} {f : α → Except ε β} {b : β} :
    (x >>= f) = .ok b ↔ ∃ a, x = .ok a ∧ f a = .ok b := by
  cases x with
  | error e => simp [bind, Except.bind]
  | ok a => simp [bind, Except.bind]

/-- A sequence fails where its first step does, or else where its rest does. -/
theorem except_bind_eq_error {x : Except ε α} {f : α → Except ε β} {e : ε} :
    (x >>= f) = .error e ↔ x = .error e ∨ ∃ a, x = .ok a ∧ f a = .error e := by
  cases x with
  | error e' => simp [bind, Except.bind]
  | ok a => simp [bind, Except.bind]

/-- A change of the result is one of a success. -/
theorem except_map_eq_ok {x : Except ε α} {f : α → β} {b : β} :
    x.map f = .ok b ↔ ∃ a, x = .ok a ∧ f a = b := by
  cases x with
  | error e => simp [Except.map]
  | ok a => simp [Except.map]

/-- A change of the error keeps a success as it is. -/
@[simp] theorem mapError_eq_ok {δ : Type} {x : Except ε α} {f : ε → δ} {a : α} :
    x.mapError f = .ok a ↔ x = .ok a := by
  cases x with
  | error e => simp [Except.mapError]
  | ok a => simp [Except.mapError]

theorem mapError_eq_error {δ : Type} {x : Except ε α} {f : ε → δ} {d : δ} :
    x.mapError f = .error d ↔ ∃ e, x = .error e ∧ f e = d := by
  cases x with
  | error e => simp [Except.mapError]
  | ok a => simp [Except.mapError]

/-- A check of every entry succeeds exactly when each entry passes. -/
theorem except_forM_eq_ok {f : α → Except ε Unit} {xs : List α} :
    forM xs f = .ok () ↔ ∀ x ∈ xs, f x = .ok () := by
  induction xs with
  | nil => simp [pure, Except.pure]
  | cons x xs ih =>
    change (f x >>= fun _ => forM xs f) = .ok () ↔ _
    rw [except_bind_eq_ok, List.forall_mem_cons, ← ih]
    exact ⟨fun ⟨_, hx, hxs⟩ => ⟨hx, hxs⟩, fun ⟨hx, hxs⟩ => ⟨(), hx, hxs⟩⟩

/-- A check of every entry that fails has failed at one of them. -/
theorem except_forM_eq_error {f : α → Except ε Unit} {xs : List α} {e : ε}
    (h : forM xs f = .error e) : ∃ x ∈ xs, f x = .error e := by
  induction xs with
  | nil => simp [pure, Except.pure] at h
  | cons x xs ih =>
    change (f x >>= fun _ => forM xs f) = .error e at h
    rcases except_bind_eq_error.mp h with hx | ⟨u, -, hxs⟩
    · exact ⟨x, List.mem_cons_self, hx⟩
    · obtain ⟨y, hy, he⟩ := ih hxs
      exact ⟨y, List.mem_cons_of_mem x hy, he⟩

/-- A list of results is that of the entries, one by one. -/
theorem except_mapM_eq_ok {f : α → Except ε β} {xs : List α} {ys : List β} :
    xs.mapM f = .ok ys ↔ List.Forall₂ (fun x y => f x = .ok y) xs ys := by
  induction xs generalizing ys with
  | nil =>
    rw [List.mapM_nil, List.forall₂_nil_left_iff]
    exact ⟨fun h => by cases h; rfl, fun h => by rw [h]; rfl⟩
  | cons x xs ih =>
    rw [List.mapM_cons, except_bind_eq_ok, List.forall₂_cons_left_iff]
    constructor
    · rintro ⟨y, hx, h⟩
      -- the head has succeeded; what is left is the rest of the list and the result
      obtain ⟨ys', hxs, h⟩ := except_bind_eq_ok.mp h
      cases h
      exact ⟨y, ys', hx, ih.mp hxs, rfl⟩
    · rintro ⟨y, ys', hx, hxs, rfl⟩
      exact ⟨y, hx, except_bind_eq_ok.mpr ⟨ys', ih.mpr hxs, rfl⟩⟩

/-- Whatever stands on the right of matching lists has its match on the left. -/
theorem exists_of_forall₂_mem {R : α → β → Prop} {xs : List α} {ys : List β}
    (h : List.Forall₂ R xs ys) {y : β} (hy : y ∈ ys) : ∃ x ∈ xs, R x y := by
  induction h with
  | nil => simp at hy
  | @cons x y' xs ys hxy _ ih =>
    rcases List.mem_cons.mp hy with rfl | hy
    · exact ⟨x, List.mem_cons_self, hxy⟩
    · obtain ⟨x', hx', hR⟩ := ih hy
      exact ⟨x', List.mem_cons_of_mem x hx', hR⟩

/-- What is known of each entry on the left of matching lists is known without its match. -/
theorem forall_mem_of_forall₂ {α β : Type} {R : α → β → Prop} {P : α → Prop} {xs : List α}
    {ys : List β} (h : List.Forall₂ R xs ys) (hP : ∀ x y, R x y → P x) : ∀ x ∈ xs, P x := by
  intro x hx
  obtain ⟨y, -, hxy⟩ := exists_of_forall₂_mem h.flip hx
  exact hP x y hxy

/-- What matches something that matches, entry by entry, matches lists of such things. -/
theorem exists_forall₂ {α β γ : Type} {R : α → γ → Prop} {S : β → γ → Prop} {xs : List α}
    {ys : List β} (h : List.Forall₂ (fun x y => ∃ z, R x z ∧ S y z) xs ys) :
    ∃ zs, List.Forall₂ R xs zs ∧ List.Forall₂ S ys zs := by
  induction h with
  | nil => exact ⟨[], .nil, .nil⟩
  | cons hxy _ ih =>
    obtain ⟨z, hR, hS⟩ := hxy
    obtain ⟨zs, hRs, hSs⟩ := ih
    exact ⟨z :: zs, .cons hR hRs, .cons hS hSs⟩

/-- Lists that match entry by entry are mapped to one list where matching entries are. -/
theorem map_eq_of_forall₂ {α β γ : Type} {R : α → β → Prop} {f : α → γ} {g : β → γ} {xs : List α}
    {ys : List β} (hR : ∀ x y, R x y → f x = g y) (h : List.Forall₂ R xs ys) :
    xs.map f = ys.map g := by
  rw [← List.forall₂_eq_eq_eq, List.forall₂_map_left_iff, List.forall₂_map_right_iff]
  exact h.imp hR

/-! ## Decoders

A decoder that fails gives up its state. -/

/-- A decoder succeeds exactly when its first step does and then its rest. -/
theorem decoder_bind_eq_ok {d : Decoder α} {f : α → Decoder β} {c c'' : Cursor} {b : β} :
    (d >>= f) c = .ok (b, c'') ↔ ∃ a c', d c = .ok (a, c') ∧ f a c' = .ok (b, c'') := by
  change (d c >>= fun p => f p.1 p.2) = .ok (b, c'') ↔ _
  rw [except_bind_eq_ok]
  exact ⟨fun ⟨p, hd, hf⟩ => ⟨p.1, p.2, hd, hf⟩, fun ⟨a, c', hd, hf⟩ => ⟨(a, c'), hd, hf⟩⟩

/-- A decoder that succeeds hands its result and its place to the rest. -/
theorem decoder_bind_of_ok {d : Decoder α} {f : α → Decoder β} {c c' : Cursor} {a : α}
    (h : d c = .ok (a, c')) : (d >>= f) c = f a c' := by
  change (d c >>= fun p => f p.1 p.2) = f a c'
  rw [h]
  rfl

/-- A decoder that fails fails for all that comes behind it. -/
theorem decoder_bind_of_error {d : Decoder α} {f : α → Decoder β} {c : Cursor} {e : ReadError}
    (h : d c = .error e) : (d >>= f) c = .error e := by
  change (d c >>= fun p => f p.1 p.2) = .error e
  rw [h]
  rfl

@[simp] theorem decoder_pure (a : α) (c : Cursor) : (pure a : Decoder α) c = .ok (a, c) := rfl

end

end JvmStub
