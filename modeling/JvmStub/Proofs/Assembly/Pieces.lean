/-
`Pieces.lean` -- the pieces of a class file, told to an assembly.

The events of a class file remember the slots that its names were read from. An
assembly whose pool has grown from the class file's own finds each name still in
its slot, so no piece adds a constant and each lands where it was: the lemmas
here say what the assembly is after the header, a field, or an attribute of a
class file.
-/
import JvmStub.Assembly.Class
import JvmStub.Event.Replay
import JvmStub.Proofs.Pool.Interning

set_option autoImplicit false

namespace JvmStub

variable {cf later : ClassFile} {a : ClassAssembly}

/-! ## Names of a class file -/

/-- Resolving a name succeeds where its lookup does; only the error is another one. -/
theorem resolve_eq_ok {α : Type} {found : Except PoolError α} {x : α} :
    resolve found = .ok x ↔ found = .ok x := mapError_eq_ok

/-- Reading what can be read is no step. -/
theorem reading_of_ok {α σ : Type} {found : Except ReadError α} {x : α} (h : found = .ok x) :
    (reading found : SinkM σ α) = pure x := by
  subst h
  rfl

/-- Reading succeeds with what was found and touches nothing. -/
theorem reading_eq_ok {α σ : Type} {found : Except ReadError α} {x : α} {s s' : σ} :
    reading found s = (.ok x, s') ↔ found = .ok x ∧ s' = s := by
  rw [reading, Prod.mk.injEq, mapError_eq_ok, eq_comm (a := s)]

/-- Reading fails with a read error and touches nothing either. -/
theorem reading_eq_error {α σ : Type} {found : Except ReadError α} {e : Error} {s s' : σ} :
    reading found s = (.error e, s') ↔ ∃ r, found = .error r ∧ e = .read r ∧ s' = s := by
  rw [reading, Prod.mk.injEq, mapError_eq_error]
  constructor
  · rintro ⟨⟨r, hfound, rfl⟩, rfl⟩
    exact ⟨r, hfound, rfl, rfl⟩
  · rintro ⟨r, hfound, rfl, rfl⟩
    exact ⟨⟨r, hfound, rfl⟩, rfl⟩

/-- The superclass is missing exactly where its slot is zero. -/
def SuperNamed (cf : ClassFile) (superName : Option String) : Prop :=
  match superName with
  | none => cf.superClass = 0
  | some name => cf.superClass ≠ 0 ∧ cf.pool.className cf.superClass = .ok name

/-- Looking the superclass up, where there is one. -/
def lookUpSuper (cf : ClassFile) : Except ReadError (Option String) :=
  if cf.superClass = 0 then pure none else some <$> resolve (cf.pool.className cf.superClass)

/-- The superclass that is looked up is the one that the class names, and there is none behind the
slot zero. -/
theorem lookUpSuper_eq_ok {superName : Option String} :
    lookUpSuper cf = .ok superName ↔ SuperNamed cf superName := by
  unfold lookUpSuper
  by_cases hzero : cf.superClass = 0
  · rw [if_pos hzero]
    cases superName <;> simp [SuperNamed, hzero, pure, Except.pure]
  · rw [if_neg hzero]
    cases hname : cf.pool.className cf.superClass with
    | error e => cases superName <;> simp [SuperNamed, hzero, hname, resolve, Except.mapError]
    | ok name => cases superName <;> simp [SuperNamed, hzero, hname, resolve, Except.mapError]

/-- The header of a class file is made of the names that its slots lead to. -/
theorem header_eq_ok {h : ClassHeader} :
    cf.header = .ok h ↔ cf.pool.className cf.thisClass = .ok h.name ∧ SuperNamed cf h.superName ∧
      List.Forall₂ (fun slot name => cf.pool.className slot = .ok name) cf.interfaces.toList
        h.interfaces ∧
      h = { minor := cf.minor, major := cf.major, access := cf.access, name := h.name,
            superName := h.superName, interfaces := h.interfaces,
            slots := some ⟨cf.thisClass, cf.superClass, cf.interfaces.toList⟩ } := by
  have hsame : cf.header = (do
      let name ← resolve (cf.pool.className cf.thisClass)
      let superName ← lookUpSuper cf
      let interfaces ← cf.interfaces.toList.mapM fun slot => resolve (cf.pool.className slot)
      return { minor := cf.minor, major := cf.major, access := cf.access, name, superName,
               interfaces,
               slots := some ⟨cf.thisClass, cf.superClass, cf.interfaces.toList⟩ }) := by
    unfold ClassFile.header lookUpSuper
    by_cases hzero : cf.superClass = 0
    · simp only [if_pos hzero]
    · simp only [if_neg hzero]
  rw [hsame]
  constructor
  · intro heq
    obtain ⟨name, hname, heq⟩ := except_bind_eq_ok.mp heq
    obtain ⟨superName, hsuperName, heq⟩ := except_bind_eq_ok.mp heq
    obtain ⟨interfaces, hinterfaces, heq⟩ := except_bind_eq_ok.mp heq
    cases heq
    refine ⟨resolve_eq_ok.mp hname, lookUpSuper_eq_ok.mp hsuperName, ?_, rfl⟩
    simpa only [resolve_eq_ok] using except_mapM_eq_ok.mp hinterfaces
  · rintro ⟨hname, hsuperName, hinterfaces, heq⟩
    refine except_bind_eq_ok.mpr ⟨_, resolve_eq_ok.mpr hname, ?_⟩
    refine except_bind_eq_ok.mpr ⟨_, lookUpSuper_eq_ok.mpr hsuperName, ?_⟩
    refine except_bind_eq_ok.mpr ⟨h.interfaces, except_mapM_eq_ok.mpr ?_, by rw [heq]; rfl⟩
    simpa only [resolve_eq_ok] using hinterfaces

/-- A field is declared by the texts that its slots hold. -/
theorem fieldDecl_eq_ok {f : Member} {d : FieldDecl} :
    cf.fieldDecl f = .ok d ↔ cf.pool.utf8 f.nameSlot = .ok d.name ∧
      cf.pool.utf8 f.descriptorSlot = .ok d.descriptor ∧
      d = { access := f.access, name := d.name, descriptor := d.descriptor,
            attributes := f.attributes,
            slots := some { name := f.nameSlot, descriptor := f.descriptorSlot } } := by
  unfold ClassFile.fieldDecl
  constructor
  · intro heq
    obtain ⟨name, hname, heq⟩ := except_bind_eq_ok.mp heq
    obtain ⟨descriptor, hdescriptor, heq⟩ := except_bind_eq_ok.mp heq
    cases heq
    exact ⟨resolve_eq_ok.mp hname, resolve_eq_ok.mp hdescriptor, rfl⟩
  · rintro ⟨hname, hdescriptor, heq⟩
    refine except_bind_eq_ok.mpr ⟨_, resolve_eq_ok.mpr hname, ?_⟩
    exact except_bind_eq_ok.mpr ⟨_, resolve_eq_ok.mpr hdescriptor, by rw [heq]; rfl⟩

/-- A method is declared by the texts that its slots hold and by its parts. -/
theorem methodDecl_eq_ok {m : Member} {parts : MethodParts} {d : MethodDecl} :
    cf.methodDecl m parts = .ok d ↔ cf.pool.utf8 m.nameSlot = .ok d.name ∧
      cf.pool.utf8 m.descriptorSlot = .ok d.descriptor ∧
      d = { access := m.access, name := d.name, descriptor := d.descriptor,
            signature := parts.signature.map (·.1),
            exceptions := (parts.exceptions.getD []).map (·.1),
            slots := some { name := m.nameSlot, descriptor := m.descriptorSlot,
                            signature := parts.signature.map (·.2),
                            exceptions := (parts.exceptions.getD []).map (·.2) } } := by
  unfold ClassFile.methodDecl
  constructor
  · intro heq
    obtain ⟨name, hname, heq⟩ := except_bind_eq_ok.mp heq
    obtain ⟨descriptor, hdescriptor, heq⟩ := except_bind_eq_ok.mp heq
    cases heq
    exact ⟨resolve_eq_ok.mp hname, resolve_eq_ok.mp hdescriptor, rfl⟩
  · rintro ⟨hname, hdescriptor, heq⟩
    refine except_bind_eq_ok.mpr ⟨_, resolve_eq_ok.mpr hname, ?_⟩
    exact except_bind_eq_ok.mpr ⟨_, resolve_eq_ok.mpr hdescriptor, by rw [heq]; rfl⟩

/-- A method is declared with its own access flags. -/
theorem access_of_methodDecl {m : Member} {parts : MethodParts} {d : MethodDecl}
    (h : cf.methodDecl m parts = .ok d) : d.access = m.access := by
  rw [(methodDecl_eq_ok.mp h).2.2]

/-! ## Steps of an assembly -/

namespace ClassAssembly

/-- The header has come and the end has not. -/
def Open (a : ClassAssembly) : Prop := a.headerSeen = true ∧ a.ended = false

/-- The assembly with another pool. -/
def withPool (a : ClassAssembly) (pool : ConstantPool) : ClassAssembly :=
  { a with classFile := { a.classFile with pool } }

/-- The assembly with a method more. -/
def withMethod (a : ClassAssembly) (m : Member) : ClassAssembly :=
  { a with classFile := { a.classFile with methods := a.classFile.methods.push m } }

@[simp] theorem withPool_self (a : ClassAssembly) : a.withPool a.classFile.pool = a := rfl

@[simp] theorem withPool_withPool (a : ClassAssembly) (pool pool' : ConstantPool) :
    (a.withPool pool).withPool pool' = a.withPool pool' := rfl

theorem growing_of_ok {α : Type} {request : PoolM α} {x : α} {pool : ConstantPool}
    (h : request a.classFile.pool = (.ok x, pool)) :
    growing request a = (.ok x, a.withPool pool) := by
  simp [growing, h, withPool, Except.mapError]

theorem growing_of_error {α : Type} {request : PoolM α} {e : PoolError} {pool : ConstantPool}
    (h : request a.classFile.pool = (.error e, pool)) :
    growing request a = (.error (.write (.pool e)), a.withPool pool) := by
  simp [growing, h, withPool, Except.mapError]

/-- A request that is settled in the pool of the assembly leaves the assembly alone. -/
theorem growing_bind {α β : Type} {request : PoolM α} {x : α} {pool : ConstantPool}
    {rest : α → SinkM ClassAssembly β} (h : request pool = (.ok x, pool))
    (ha : a.classFile.pool = pool) : (growing request >>= rest) a = rest x a := by
  subst ha
  rw [bind_of_ok (growing_of_ok h), withPool_self]

/-- A class with a header and without an end takes any event. -/
theorem checkOpen_of_open (h : a.Open) (event : EventName) : checkOpen event a = (.ok (), a) := by
  unfold checkOpen
  rw [bind_of_ok (get_run a)]
  simp only [h.1, h.2, Bool.not_true, Bool.false_eq_true, if_false, pure_run]

/-- A table that its count can express passes. -/
theorem checkCount_of_le {σ : Type} {table : TableName} {count : Nat} (h : count ≤ maxCount)
    (s : σ) : checkCount table count s = (.ok (), s) := by
  unfold checkCount
  rw [if_neg (Nat.not_lt.mpr h)]
  rfl

theorem checkCount_of_lt {σ : Type} {table : TableName} {count : Nat} (h : maxCount < count)
    (s : σ) : checkCount table count s = (.error (.write (.tooMany table count)), s) := by
  unfold checkCount
  rw [if_pos h]
  rfl

theorem update_run (change : ClassFile → ClassFile) :
    update change a = (.ok (), { a with classFile := change a.classFile }) := rfl

/-- The class file under construction, with the header of another class file. -/
def withHeaderOf (a : ClassAssembly) (cf : ClassFile) : ClassAssembly where
  classFile :=
    { a.classFile with
      minor := cf.minor, major := cf.major, access := cf.access, thisClass := cf.thisClass,
      superClass := cf.superClass, interfaces := cf.interfaces }
  headerSeen := true
  ended := a.ended

/-- A header that was read from a class file puts the class file's own header in place. -/
theorem header_run {h : ClassHeader} (hh : cf.header = .ok h) (hended : a.ended = false)
    (hg : cf.pool.GrowsInto a.classFile.pool) (hcount : cf.interfaces.size ≤ maxCount) :
    header h a = (.ok (), a.withHeaderOf cf) := by
  obtain ⟨hname, hsuper, hinterfaces, heq⟩ := header_eq_ok.mp hh
  have hlen : h.interfaces.length ≤ maxCount := by
    rw [← hinterfaces.length_eq, Array.length_toList]
    exact hcount
  -- every name is asked for with the slot it was read from, which still holds it
  have hthis := PoolM.classAt_of_className (hg.className hname)
  have hclasses : PoolM.classesAt cf.interfaces.toList h.interfaces a.classFile.pool =
      (.ok cf.interfaces, a.classFile.pool) :=
    PoolM.classesAt_of_classNames (hinterfaces.imp fun slot name hslot => hg.className hslot)
  rw [heq]
  unfold header
  rw [bind_of_ok (get_run a)]
  simp only [hended, Bool.false_eq_true, if_false]
  rw [bind_of_ok (update_run _)]
  simp only [Option.map_some, Option.getD_some]
  refine Eq.trans (growing_bind hthis rfl) ?_
  rw [bind_of_ok (update_run _)]
  cases hname' : h.superName with
  | none =>
    simp only [SuperNamed, hname'] at hsuper
    refine Eq.trans (bind_of_ok (pure_run _ _)) ?_
    rw [bind_of_ok (update_run _), bind_of_ok (checkCount_of_le hlen _)]
    refine Eq.trans (growing_bind hclasses rfl) ?_
    rw [← hsuper]
    rfl
  | some name =>
    simp only [SuperNamed, hname'] at hsuper
    refine Eq.trans (growing_bind (PoolM.classAt_of_className (hg.className hsuper.2)) rfl) ?_
    rw [bind_of_ok (update_run _), bind_of_ok (checkCount_of_le hlen _)]
    refine Eq.trans (growing_bind hclasses rfl) ?_
    rfl

/-- The assembly with more fields. -/
def withFields (a : ClassAssembly) (fields : Array Member) : ClassAssembly :=
  { a with classFile := { a.classFile with fields := a.classFile.fields ++ fields } }

/-- The assembly with more attributes of the class. -/
def withAttributes (a : ClassAssembly) (attributes : Array Attribute) : ClassAssembly :=
  { a with classFile := { a.classFile with attributes := a.classFile.attributes ++ attributes } }

/-- A field that was read from a class file is put back as it was. -/
theorem field_run {f : Member} {d : FieldDecl} (hd : cf.fieldDecl f = .ok d) (ha : a.Open)
    (hg : cf.pool.GrowsInto a.classFile.pool) (hcount : a.classFile.fields.size < maxCount) :
    field d a = (.ok (), a.withFields #[f]) := by
  obtain ⟨hname, hdescriptor, heq⟩ := fieldDecl_eq_ok.mp hd
  rw [heq]
  unfold field
  rw [bind_of_ok (checkOpen_of_open ha _), bind_of_ok (get_run a),
    bind_of_ok (checkCount_of_le hcount _)]
  refine Eq.trans (growing_bind (PoolM.utf8At_of_utf8 (hg.utf8 hname)) rfl) ?_
  refine Eq.trans (growing_bind (PoolM.utf8At_of_utf8 (hg.utf8 hdescriptor)) rfl) ?_
  rw [update_run, withFields, Array.push_eq_append]

/-- An attribute of the class is put at the end. -/
theorem classAttribute_run {attr : Attribute} (ha : a.Open) :
    classAttribute attr a = (.ok (), a.withAttributes #[attr]) := by
  unfold classAttribute
  rw [bind_of_ok (checkOpen_of_open ha _), update_run, withAttributes, Array.push_eq_append]

/-- The end of a class with a header is accepted. -/
theorem finish_run (ha : a.Open) : finish a = (.ok (), { a with ended := true }) := by
  unfold finish
  rw [bind_of_ok (get_run a)]
  simp only [ha.1, ha.2, Bool.not_true, Bool.false_eq_true, if_false]
  rfl

end ClassAssembly

/-! ## All fields and all attributes of a class file -/

open ClassAssembly

/-- The fields of a class file are put back exactly when the names of each can be found. -/
theorem fields_eq_ok {fields : List Member} {after : ClassAssembly} (ha : a.Open)
    (hg : cf.pool.GrowsInto a.classFile.pool)
    (hcount : a.classFile.fields.size + fields.length ≤ maxCount) :
    (forM fields fun f => do field (← reading (cf.fieldDecl f))) a = (.ok (), after) ↔
      (∀ f ∈ fields, ∃ d, cf.fieldDecl f = .ok d) ∧ after = a.withFields fields.toArray := by
  induction fields generalizing a with
  | nil => simp [List.forM_nil, withFields, eq_comm]
  | cons f fields ih =>
    rw [List.length_cons] at hcount
    -- the first field takes one of the places that were left
    have hroom : (a.withFields #[f]).classFile.fields.size + fields.length ≤ maxCount := by
      simp only [withFields, Array.size_append, List.size_toArray, List.length_singleton]
      omega
    have hsame : a.withFields (f :: fields).toArray =
        (a.withFields #[f]).withFields fields.toArray := by
      simp [withFields]
    rw [List.forM_cons, List.forall_mem_cons, bind_eq_ok, hsame]
    constructor
    · rintro ⟨⟨⟩, mid, hfirst, hrest⟩
      obtain ⟨d, mid', hread, hfield⟩ := bind_eq_ok.mp hfirst
      obtain ⟨hd, hmid⟩ := reading_eq_ok.mp hread
      rw [hmid, field_run hd ha hg (by omega)] at hfield
      cases hfield
      obtain ⟨hall, rfl⟩ := (ih (a := a.withFields #[f]) ha hg hroom).mp hrest
      exact ⟨⟨⟨d, hd⟩, hall⟩, rfl⟩
    · rintro ⟨⟨⟨d, hd⟩, hall⟩, rfl⟩
      refine ⟨⟨⟩, a.withFields #[f], bind_eq_ok.mpr ⟨d, a, reading_eq_ok.mpr ⟨hd, rfl⟩, ?_⟩, ?_⟩
      · exact field_run hd ha hg (by omega)
      · exact (ih (a := a.withFields #[f]) ha hg hroom).mpr ⟨hall, rfl⟩

/-- Where they are not put back, it is because a name cannot be found, and no constant has been
added. -/
theorem fields_eq_error {fields : List Member} {e : Error} {after : ClassAssembly} (ha : a.Open)
    (hg : cf.pool.GrowsInto a.classFile.pool)
    (hcount : a.classFile.fields.size + fields.length ≤ maxCount)
    (h : (forM fields fun f => do field (← reading (cf.fieldDecl f))) a = (.error e, after)) :
    (∃ r, e = .read r) ∧ after.classFile.pool = a.classFile.pool := by
  induction fields generalizing a with
  | nil =>
    rw [List.forM_nil] at h
    cases h
  | cons f fields ih =>
    rw [List.length_cons] at hcount
    rw [List.forM_cons] at h
    have hput : ∀ d, cf.fieldDecl f = .ok d → field d a = (.ok (), a.withFields #[f]) :=
      fun d hd => field_run hd ha hg (by omega)
    rcases bind_eq_error.mp h with hfirst | ⟨⟨⟩, mid, hfirst, hrest⟩
    · rcases bind_eq_error.mp hfirst with hread | ⟨d, mid, hread, hfield⟩
      · obtain ⟨r, -, rfl, rfl⟩ := reading_eq_error.mp hread
        exact ⟨⟨r, rfl⟩, rfl⟩
      · obtain ⟨hd, rfl⟩ := reading_eq_ok.mp hread
        cases (hput d hd).symm.trans hfield
    · obtain ⟨d, mid', hread, hfield⟩ := bind_eq_ok.mp hfirst
      obtain ⟨hd, rfl⟩ := reading_eq_ok.mp hread
      cases (hput d hd).symm.trans hfield
      have hroom : (mid'.withFields #[f]).classFile.fields.size + fields.length ≤ maxCount := by
        simp only [withFields, Array.size_append, List.size_toArray, List.length_singleton]
        omega
      exact ih (a := mid'.withFields #[f]) ha hg hroom hrest

/-- The attributes of a class file are put back as they were. -/
theorem classAttributes_run {attributes : List Attribute} (ha : a.Open) :
    forM attributes classAttribute a = (.ok (), a.withAttributes attributes.toArray) := by
  induction attributes generalizing a with
  | nil => simp [List.forM_nil, withAttributes]
  | cons attr attributes ih =>
    rw [List.forM_cons, bind_of_ok (classAttribute_run ha), ih (a := a.withAttributes #[attr]) ha]
    simp [withAttributes]

end JvmStub
