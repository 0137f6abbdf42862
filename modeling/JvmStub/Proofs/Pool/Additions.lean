/-
`Additions.lean` -- what requests add to a pool, constant by constant.

A request for a constant that the pool holds adds nothing. So whatever requests are
made, in whatever order and however often, a constant that was not there is added
once at most, and the number of constants that are added is bounded by the number
of those that are ever asked for. `Gains` says which constants these can be, and
`Asks` says of a request that it gains no others.

A request that is refused leaves a full pool, and what was added before stays. But
it still had something to add: a constant that is not among those that were gained.
This one constant more is the difference between a pool that had room for all that
was ever asked for and one that had not.
-/
import JvmStub.Proofs.Pool.Interning
import Mathlib.Data.List.Nodup
import Mathlib.Data.List.Perm.Subperm

set_option autoImplicit false

namespace JvmStub

namespace ConstantPool

variable {P : ConstantPool → Constant → Prop} {pool later last : ConstantPool} {c : Constant}

/-- What holds of a constant in a pool holds of it in any later pool. -/
def Lasting (P : ConstantPool → Constant → Prop) : Prop :=
  ∀ ⦃pool later c⦄, pool.GrowsInto later → P pool c → P later c

/-- The later pool has more constants behind those of the earlier one: none that was there before,
none twice, and only such as `P` admits. -/
def Gains (P : ConstantPool → Constant → Prop) (pool later : ConstantPool) : Prop :=
  ∃ added, later.constants.toList = pool.constants.toList ++ added ∧ added.Nodup ∧
    ∀ c ∈ added, c ∉ pool.constants.toList ∧ P later c

/-- The pool is full and lacks a constant that `P` admits. -/
def Lacks (P : ConstantPool → Constant → Prop) (pool : ConstantPool) : Prop :=
  maxSize ≤ pool.size ∧ ∃ c, c ∉ pool.constants.toList ∧ P pool c

/-- A constant that is not found is nowhere in the pool. -/
theorem find?_eq_none : pool.find? c = none ↔ c ∉ pool.constants.toList := by
  have hlist : pool.constants.findIdx? (· == c) = pool.constants.toList.findIdx? (· == c) := by
    rw [← List.findIdx?_toArray, Array.toArray_toList]
  rw [find?, Option.map_eq_none_iff, hlist, List.findIdx?_eq_none_iff]
  constructor
  · intro h hmem
    have hdiffers := h c hmem
    rw [beq_self_eq_true] at hdiffers
    cases hdiffers
  · intro h found hfound
    rw [beq_eq_false_iff_ne]
    rintro rfl
    exact h hfound

theorem Gains.refl (P : ConstantPool → Constant → Prop) (pool : ConstantPool) :
    Gains P pool pool :=
  ⟨[], (List.append_nil _).symm, List.nodup_nil, by simp⟩

/-- What a pool gains comes behind what it has. -/
theorem Gains.growsInto (h : Gains P pool later) : pool.GrowsInto later := by
  obtain ⟨added, happend, -, -⟩ := h
  exact ⟨added, happend.symm⟩

/-- What is gained in two steps is gained: the second adds nothing that the first has added. -/
theorem Gains.trans (hP : Lasting P) (h : Gains P pool later) (h' : Gains P later last) :
    Gains P pool last := by
  have hg := h'.growsInto
  obtain ⟨added, happend, hnodup, hadded⟩ := h
  obtain ⟨added', happend', hnodup', hadded'⟩ := h'
  have hfresh : ∀ c ∈ added', c ∉ pool.constants.toList ∧ c ∉ added := by
    intro c hc
    have hnot := (hadded' c hc).1
    rw [happend, List.mem_append, not_or] at hnot
    exact hnot
  refine ⟨added ++ added', by rw [happend', happend, List.append_assoc], ?_, ?_⟩
  · refine List.nodup_append'.mpr ⟨hnodup, hnodup', fun c hc hc' => ?_⟩
    exact (hfresh c hc').2 hc
  · intro c hc
    rcases List.mem_append.mp hc with hc | hc
    · exact ⟨(hadded c hc).1, hP hg (hadded c hc).2⟩
    · exact ⟨(hfresh c hc).1, (hadded' c hc).2⟩

/-- What is gained under one condition is gained under a weaker one. -/
theorem Gains.imp {Q : ConstantPool → Constant → Prop} (h : Gains P pool later)
    (hpq : ∀ pool c, P pool c → Q pool c) : Gains Q pool later := by
  obtain ⟨added, happend, hnodup, hadded⟩ := h
  exact ⟨added, happend, hnodup, fun c hc => ⟨(hadded c hc).1, hpq later c (hadded c hc).2⟩⟩

/-- A pool that lacks some constants lacks them among others. -/
theorem Lacks.imp {Q : ConstantPool → Constant → Prop} (h : Lacks P pool)
    (hpq : ∀ pool c, P pool c → Q pool c) : Lacks Q pool := by
  obtain ⟨hfull, c, hfresh, hc⟩ := h
  exact ⟨hfull, c, hfresh, hpq pool c hc⟩

/-- A pool that became full before it had gained all that there is to gain had less room than that
when it was smaller. -/
theorem Gains.lt_of_lacks {cs : List Constant} (h : Gains P pool later) (hlacks : Lacks P later)
    (hcs : ∀ c, P later c → c ∈ cs) : maxSize < pool.size + cs.length := by
  obtain ⟨added, happend, hnodup, hadded⟩ := h
  obtain ⟨hfull, c, hfresh, hc⟩ := hlacks
  rw [happend, List.mem_append, not_or] at hfresh
  have hall : (c :: added).Nodup := List.nodup_cons.mpr ⟨hfresh.2, hnodup⟩
  have hsubset : (c :: added) ⊆ cs := by
    intro c' hc'
    rcases List.mem_cons.mp hc' with rfl | hc'
    · exact hcs _ hc
    · exact hcs c' (hadded c' hc').2
  have hlen := (List.subperm_of_subset hall hsubset).length_le
  have hsize := congrArg List.length happend
  rw [List.length_append, Array.length_toList, Array.length_toList] at hsize
  rw [List.length_cons] at hlen
  unfold size at hfull ⊢
  omega

end ConstantPool

namespace PoolM

open ConstantPool

variable {P : ConstantPool → Constant → Prop} {pool : ConstantPool} {c : Constant} {α β : Type}
  {x : PoolM α}

/-- The request gains only constants that `P` admits, also when it is refused, and then the pool is
full and lacks one of them. -/
structure Asks (P : ConstantPool → Constant → Prop) (x : PoolM α) (pool : ConstantPool) : Prop where
  gains : Gains P pool (x pool).2
  refused : ∀ e later, x pool = (.error e, later) → Lacks P later

/-- A request that is granted as the pool is asks for nothing. -/
theorem asks_of_granted {a : α} (h : x pool = (.ok a, pool)) : Asks P x pool where
  gains := by
    rw [h]
    exact Gains.refl P pool
  refused e later hrefused := by
    cases h.symm.trans hrefused

theorem asks_pure (a : α) : Asks P (pure a : PoolM α) pool := asks_of_granted rfl

/-- A sequence of requests asks for what its parts ask for. -/
theorem Asks.bind {f : α → PoolM β} (hP : Lasting P) (hx : Asks P x pool)
    (hf : ∀ a later, x pool = (.ok a, later) → Asks P (f a) later) : Asks P (x >>= f) pool where
  gains := bind_state (fun h h' => h.trans hP h') hx.gains fun a later h => (hf a later h).gains
  refused e last h := by
    rcases bind_eq_error.mp h with hfirst | ⟨a, later, hfirst, hrest⟩
    · exact hx.refused e last hfirst
    · exact (hf a later hfirst).refused e last hrest

/-- What is done with the answer asks for nothing. -/
theorem Asks.map (hP : Lasting P) (hx : Asks P x pool) (g : α → β) :
    Asks P (do return g (← x)) pool :=
  hx.bind hP fun a _ _ => asks_pure (g a)

/-- A request for some constants is one for these among others. -/
theorem Asks.imp {Q : ConstantPool → Constant → Prop} (hx : Asks P x pool)
    (hpq : ∀ pool c, P pool c → Q pool c) : Asks Q x pool where
  gains := hx.gains.imp hpq
  refused e later h := (hx.refused e later h).imp hpq

/-- Interning a constant asks for that constant. -/
theorem asks_intern (hP : Lasting P) (hnarrow : c.isWide = false) (hc : P pool c) :
    Asks P (intern c) pool := by
  obtain ⟨found, -, heq⟩ | ⟨hnone, -, heq⟩ | ⟨hnone, hfull, heq⟩ := intern_cases pool hnarrow
  · exact asks_of_granted heq
  · have happend : (pool.append c).constants.toList = pool.constants.toList ++ [c] := by
      simp [append, hnarrow]
    constructor
    · rw [heq]
      refine ⟨[c], happend, List.nodup_singleton c, fun c' hc' => ?_⟩
      rw [List.mem_singleton.mp hc']
      exact ⟨find?_eq_none.mp hnone, hP ⟨[c], happend.symm⟩ hc⟩
    · intro e later h
      cases heq.symm.trans h
  · constructor
    · rw [heq]
      exact Gains.refl P pool
    · intro e later h
      cases heq.symm.trans h
      exact ⟨hfull, c, find?_eq_none.mp hnone, hc⟩

end PoolM

end JvmStub
