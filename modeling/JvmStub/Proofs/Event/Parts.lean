/-
`Parts.lean` -- how the attributes of a method are told apart.

`MethodParts.Describe` says of a list of attributes what its parts are: the only
`Code` attribute, the text of the only `Signature`, the classes of the only
`Exceptions`, and the other attributes in their order. The main statement,
`parts_eq_ok`, is that telling a method's attributes apart succeeds with some
parts exactly when these describe the attributes.

The parts are told to a sink in one order, whether there is a body among them or not;
the last lemmas say which.
-/
import JvmStub.Event.Replay
import JvmStub.Proofs.ClassFile.Payloads
import JvmStub.Proofs.Pool.Growth
import Mathlib.Tactic.MkIffOfInductiveProp

set_option autoImplicit false

namespace JvmStub

variable {pool : ConstantPool} {parts parts' : MethodParts} {a : Attribute}

/-- An attribute is recognised by the text of its name. -/
theorem isNamed_iff {name : AttributeName} :
    a.isNamed pool name = true ↔ a.name pool = .ok name.text := ConstantPool.holdsUtf8_iff

/-- The attribute is none of those that are told apart. -/
def Attribute.isOther (pool : ConstantPool) (a : Attribute) : Bool :=
  !(a.isNamed pool .code || a.isNamed pool .signature || a.isNamed pool .exceptions)

/-- The attributes of the method that have this name, in their order. -/
def Member.attributesNamed (pool : ConstantPool) (name : AttributeName) (m : Member) :
    List Attribute :=
  m.attributes.toList.filter (Attribute.isNamed pool name)

/-- The attributes of the method that are not told apart, in their order. -/
def Member.otherAttributes (pool : ConstantPool) (m : Member) : List Attribute :=
  m.attributes.toList.filter (Attribute.isOther pool)

/-- The attribute lists at least one exception. -/
def Attribute.listsExceptions (a : Attribute) : Bool :=
  match decodeExceptions a.info with
  | .ok classes => !classes.isEmpty
  | .error _ => false

/-! ## Names -/

/-- Attributes that are told apart have different names, so none is recognised twice. -/
theorem AttributeName.text_inj {name other : AttributeName} :
    name.text = other.text ↔ name = other := by
  constructor
  · intro h
    cases name <;> cases other <;> first | rfl | exact absurd h (by decide)
  · rintro rfl
    rfl

/-- The name that an attribute resolves to decides which of the known names it has. -/
theorem isNamed_of_name {text : String} (h : a.name pool = .ok text) (name : AttributeName) :
    a.isNamed pool name = decide (text = name.text) := by
  rw [Bool.eq_iff_iff, isNamed_iff, h, decide_eq_true_iff, Except.ok.injEq]

/-- An attribute with one known name has no other. -/
theorem isNamed_of_isNamed {name : AttributeName} (h : a.isNamed pool name = true)
    (other : AttributeName) : a.isNamed pool other = decide (name = other) := by
  rw [isNamed_of_name (isNamed_iff.mp h), Bool.eq_iff_iff, decide_eq_true_iff, decide_eq_true_iff,
    AttributeName.text_inj]

/-! ## What the parts stand for -/

/-- The attribute's payload names the text that stands in the slot. -/
def IsSignature (pool : ConstantPool) (a : Attribute) (s : String × Slot) : Prop :=
  a.info = encodeSignature s.2 ∧ pool.utf8 s.2 = .ok s.1

/-- The attribute's payload lists the classes that stand in the slots. -/
def IsExceptions (pool : ConstantPool) (a : Attribute) (classes : List (String × Slot)) : Prop :=
  classes.length ≤ 65535 ∧ a.info = encodeExceptions (classes.map (·.2)).toArray ∧
    ∀ c ∈ classes, pool.className c.2 = .ok c.1

/-- The parts are those of the attributes. -/
@[mk_iff]
structure MethodParts.Describe (pool : ConstantPool) (parts : MethodParts)
    (attributes : List Attribute) : Prop where
  named : ∀ a ∈ attributes, ∃ text, a.name pool = .ok text
  code : attributes.filter (Attribute.isNamed pool .code) = parts.code.toList
  signature : List.Forall₂ (IsSignature pool)
    (attributes.filter (Attribute.isNamed pool .signature)) parts.signature.toList
  exceptions : List.Forall₂ (IsExceptions pool)
    (attributes.filter (Attribute.isNamed pool .exceptions)) parts.exceptions.toList
  others : attributes.filter (Attribute.isOther pool) = parts.others.toList

/-! ## Adding one attribute -/

theorem refuseSecond_eq_ok {name : AttributeName} {seen : Bool} {u : Unit} :
    refuseSecond name seen = .ok u ↔ seen = false := by
  cases seen <;> simp [refuseSecond]

/-- The classes of an `Exceptions` attribute are looked up slot by slot. -/
theorem mapM_className_eq_ok {slots : List Slot} {classes : List (String × Slot)} :
    (slots.mapM fun slot => do return (← resolve (pool.className slot), slot)) = .ok classes ↔
      slots = classes.map (·.2) ∧ ∀ c ∈ classes, pool.className c.2 = .ok c.1 := by
  rw [except_mapM_eq_ok]
  have hstep : ∀ (slot : Slot) (c : String × Slot),
      (do return (← resolve (pool.className slot), slot) : Except ReadError (String × Slot)) =
        .ok c ↔ slot = c.2 ∧ pool.className c.2 = .ok c.1 := by
    intro slot c
    rw [except_bind_eq_ok]
    constructor
    · rintro ⟨text, htext, h⟩
      cases h
      exact ⟨rfl, mapError_eq_ok.mp htext⟩
    · rintro ⟨rfl, hc⟩
      exact ⟨c.1, mapError_eq_ok.mpr hc, rfl⟩
  constructor
  · intro h
    induction h with
    | nil => simp
    | cons hc _ ih =>
      obtain ⟨rfl, hclass⟩ := (hstep _ _).mp hc
      rw [List.map_cons, ← ih.1]
      exact ⟨rfl, List.forall_mem_cons.mpr ⟨hclass, ih.2⟩⟩
  · rintro ⟨rfl, hall⟩
    rw [List.forall₂_map_left_iff, List.forall₂_same]
    exact fun c hc => (hstep _ _).mpr ⟨rfl, hall c hc⟩

/-- A body is added where there is none yet. -/
theorem add_of_code (h : a.isNamed pool .code = true) :
    parts.add pool a = .ok parts' ↔
      parts.code = none ∧ parts' = { parts with code := some a } := by
  unfold MethodParts.add
  rw [isNamed_iff.mp h]
  change (do refuseSecond .code parts.code.isSome; return { parts with code := some a }) =
    .ok parts' ↔ _
  rw [except_bind_eq_ok]
  constructor
  · rintro ⟨u, hfirst, h⟩
    cases h
    exact ⟨by simpa using refuseSecond_eq_ok.mp hfirst, rfl⟩
  · rintro ⟨hnone, rfl⟩
    exact ⟨(), refuseSecond_eq_ok.mpr (by simp [hnone]), rfl⟩

/-- A generic signature is added where there is none yet and its payload names a text. -/
theorem add_of_signature (h : a.isNamed pool .signature = true) :
    parts.add pool a = .ok parts' ↔ parts.signature = none ∧
      ∃ s, IsSignature pool a s ∧ parts' = { parts with signature := some s } := by
  unfold MethodParts.add
  rw [isNamed_iff.mp h]
  change (do
      let slot ← decodeSignature a.info
      let text ← resolve (pool.utf8 slot)
      refuseSecond .signature parts.signature.isSome
      return { parts with signature := some (text, slot) }) = .ok parts' ↔ _
  rw [except_bind_eq_ok]
  constructor
  · rintro ⟨slot, hslot, h⟩
    obtain ⟨text, htext, h⟩ := except_bind_eq_ok.mp h
    obtain ⟨u, hfirst, h⟩ := except_bind_eq_ok.mp h
    cases h
    refine ⟨by simpa using refuseSecond_eq_ok.mp hfirst, (text, slot), ⟨?_, ?_⟩, rfl⟩
    · exact decodeSignature_eq_ok.mp hslot
    · exact mapError_eq_ok.mp htext
  · rintro ⟨hnone, ⟨text, slot⟩, ⟨hinfo, htext⟩, rfl⟩
    refine ⟨slot, decodeSignature_eq_ok.mpr hinfo, ?_⟩
    refine except_bind_eq_ok.mpr ⟨text, mapError_eq_ok.mpr htext, ?_⟩
    exact except_bind_eq_ok.mpr ⟨(), refuseSecond_eq_ok.mpr (by simp [hnone]), rfl⟩

/-- Declared exceptions are added where there are none yet and their payload lists classes. -/
theorem add_of_exceptions (h : a.isNamed pool .exceptions = true) :
    parts.add pool a = .ok parts' ↔ parts.exceptions = none ∧
      ∃ classes, IsExceptions pool a classes ∧
        parts' = { parts with exceptions := some classes } := by
  unfold MethodParts.add
  rw [isNamed_iff.mp h]
  change (do
      refuseSecond .exceptions parts.exceptions.isSome
      let slots ← decodeExceptions a.info
      let classes ← slots.toList.mapM fun slot => do return (← resolve (pool.className slot), slot)
      return { parts with exceptions := some classes }) = .ok parts' ↔ _
  rw [except_bind_eq_ok]
  constructor
  · rintro ⟨u, hfirst, h⟩
    obtain ⟨slots, hslots, h⟩ := except_bind_eq_ok.mp h
    obtain ⟨classes, hclasses, h⟩ := except_bind_eq_ok.mp h
    cases h
    obtain ⟨hsize, hinfo⟩ := decodeExceptions_eq_ok.mp hslots
    obtain ⟨hmap, hall⟩ := mapM_className_eq_ok.mp hclasses
    refine ⟨by simpa using refuseSecond_eq_ok.mp hfirst, classes, ⟨?_, ?_, hall⟩, rfl⟩
    · rw [← List.length_map, ← hmap, Array.length_toList]
      exact hsize
    · rw [← hmap, Array.toArray_toList]
      exact hinfo
  · rintro ⟨hnone, classes, ⟨hlen, hinfo, hall⟩, rfl⟩
    refine ⟨(), refuseSecond_eq_ok.mpr (by simp [hnone]), ?_⟩
    refine except_bind_eq_ok.mpr ⟨(classes.map (·.2)).toArray, ?_, ?_⟩
    · exact decodeExceptions_eq_ok.mpr ⟨by simpa using hlen, hinfo⟩
    · exact except_bind_eq_ok.mpr ⟨classes, mapM_className_eq_ok.mpr ⟨rfl, hall⟩, rfl⟩

/-- Any other attribute is added behind those that are there, if its name can be read. -/
theorem add_of_other (h : a.isOther pool = true) :
    parts.add pool a = .ok parts' ↔
      (∃ text, a.name pool = .ok text) ∧ parts' = { parts with others := parts.others.push a } := by
  unfold MethodParts.add
  rw [except_bind_eq_ok]
  have hnone : ∀ text, a.name pool = .ok text → text ≠ AttributeName.code.text ∧
      text ≠ AttributeName.signature.text ∧ text ≠ AttributeName.exceptions.text := by
    intro text htext
    simpa [Attribute.isOther, isNamed_of_name htext, and_assoc] using h
  constructor
  · rintro ⟨text, htext, h⟩
    obtain ⟨hcode, hsignature, hexceptions⟩ := hnone text (mapError_eq_ok.mp htext)
    rw [if_neg hcode, if_neg hsignature, if_neg hexceptions] at h
    cases h
    exact ⟨⟨text, mapError_eq_ok.mp htext⟩, rfl⟩
  · rintro ⟨⟨text, htext⟩, rfl⟩
    obtain ⟨hcode, hsignature, hexceptions⟩ := hnone text htext
    refine ⟨text, mapError_eq_ok.mpr htext, ?_⟩
    rw [if_neg hcode, if_neg hsignature, if_neg hexceptions]
    rfl

/-! ## Describing one attribute more -/

/-- The kinds of attribute: each is told apart by its own case of `add`. -/
theorem kind_cases (pool : ConstantPool) (a : Attribute) :
    a.isNamed pool .code = true ∨ a.isNamed pool .signature = true ∨
      a.isNamed pool .exceptions = true ∨ a.isOther pool = true := by
  unfold Attribute.isOther
  cases a.isNamed pool .code <;> cases a.isNamed pool .signature <;>
    cases a.isNamed pool .exceptions <;> simp

/-- An attribute that is told apart is none of the others. -/
theorem isOther_of_isNamed {name : AttributeName} (h : a.isNamed pool name = true)
    (hname : name ≠ .bootstrapMethods) : a.isOther pool = false := by
  cases name <;> simp_all [Attribute.isOther]

theorem isNamed_of_isOther {name : AttributeName} (h : a.isOther pool = true)
    (hname : name ≠ .bootstrapMethods) : a.isNamed pool name = false := by
  cases name <;> simp_all [Attribute.isOther]

theorem exists_name_of_isNamed {name : AttributeName} (h : a.isNamed pool name = true) :
    ∃ text, a.name pool = .ok text := ⟨_, isNamed_iff.mp h⟩

/-- The attributes that are no bodies are the exceptions, the signature and the others. -/
theorem perm_filter_not_code (pool : ConstantPool) (attributes : List Attribute) :
    (attributes.filter fun a => !a.isNamed pool .code).Perm
      (attributes.filter (Attribute.isNamed pool .exceptions) ++
        attributes.filter (Attribute.isNamed pool .signature) ++
          attributes.filter (Attribute.isOther pool)) := by
  induction attributes with
  | nil => exact .nil
  | cons a attributes ih =>
    simp only [List.filter_cons]
    -- the first attribute is of one of four kinds, and is moved to the front of its section
    obtain h | h | h | h := kind_cases pool a
    · simpa [isNamed_of_isNamed h, isOther_of_isNamed h] using ih
    · simp only [isNamed_of_isNamed h, isOther_of_isNamed h, reduceCtorEq, decide_true,
        decide_false, Bool.not_false, if_true, if_false, Bool.false_eq_true, ne_eq,
        not_false_eq_true, List.append_assoc, List.cons_append]
      refine (ih.cons a).trans ?_
      rw [List.append_assoc]
      exact List.perm_middle.symm
    · simpa [isNamed_of_isNamed h, isOther_of_isNamed h] using ih
    · have hnot : ∀ name, name ≠ .bootstrapMethods → a.isNamed pool name = false :=
        fun name hname => isNamed_of_isOther h hname
      simp only [hnot .code (by simp), hnot .signature (by simp), hnot .exceptions (by simp), h,
        Bool.not_false, if_true, Bool.false_eq_true, if_false]
      exact (ih.cons a).trans List.perm_middle.symm

/-- Every attribute is a body, a list of exceptions, a signature or none of these. -/
theorem length_eq_of_kinds (pool : ConstantPool) (m : Member) :
    m.attributes.size = (m.attributesNamed pool .code).length +
      ((m.attributesNamed pool .exceptions).length + (m.attributesNamed pool .signature).length +
        (m.otherAttributes pool).length) := by
  have hrest := (perm_filter_not_code pool m.attributes.toList).length_eq
  rw [List.length_append, List.length_append] at hrest
  rw [← Array.length_toList, List.length_eq_length_filter_add (Attribute.isNamed pool .code), hrest]
  rfl

/-- A list with one entry at its end is that of an option exactly when it holds nothing else. -/
theorem append_singleton_eq_toList {α : Type} {xs : List α} {x : α} {o : Option α} :
    xs ++ [x] = o.toList ↔ o = some x ∧ xs = [] := by
  cases o with
  | none => simp
  | some y =>
    rw [Option.toList_some, List.append_eq_singleton_iff]
    simp [eq_comm, and_comm]

/-- The attributes of one kind stand for at most one part, so the last of them is the only one. -/
theorem forall₂_append_singleton {α β : Type} {R : α → β → Prop} {xs : List α} {x : α}
    {o : Option β} :
    List.Forall₂ R (xs ++ [x]) o.toList ↔ (∃ y, R x y ∧ o = some y) ∧ xs = [] := by
  cases o with
  | none => simp
  | some y =>
    cases xs with
    | nil => simp
    | cons x' xs => simp

/-- A list that matches an option holds one entry at most. -/
theorem length_le_one_of_forall₂ {α β : Type} {R : α → β → Prop} {xs : List α} {o : Option β}
    (h : List.Forall₂ R xs o.toList) : xs.length ≤ 1 := by
  rw [h.length_eq]
  exact Option.length_toList_le

/-- A list that matches one entry holds one entry. -/
theorem eq_singleton_of_forall₂ {α β : Type} {R : α → β → Prop} {xs : List α} {y : β}
    (h : List.Forall₂ R xs [y]) : ∃ x, xs = [x] ∧ R x y := by
  obtain ⟨x, rest, hxy, hrest, rfl⟩ := List.forall₂_cons_right_iff.mp h
  rw [List.forall₂_nil_right_iff.mp hrest]
  exact ⟨x, rfl, hxy⟩

section

variable {attributes : List Attribute}

/-- What the parts of a list say about one attribute at its end: the part that the attribute
belongs to holds it, and without it the parts are those of the rest. -/
theorem describe_append_code (h : a.isNamed pool .code = true) :
    parts.Describe pool (attributes ++ [a]) ↔ parts.code = some a ∧
      ({ parts with code := none } : MethodParts).Describe pool attributes := by
  have hname := exists_name_of_isNamed h
  have hother := isOther_of_isNamed h (by simp)
  simp only [MethodParts.describe_iff, List.filter_append, List.filter_singleton,
    isNamed_of_isNamed h, hother, reduceCtorEq, decide_true, decide_false, cond_true, cond_false,
    List.append_nil, List.forall_mem_append, List.forall_mem_singleton, hname,
    append_singleton_eq_toList, Option.toList_none]
  grind

/-- Parts are those of some attributes with a generic signature behind them when they have it and
are otherwise those of the attributes before it. -/
theorem describe_append_signature (h : a.isNamed pool .signature = true) :
    parts.Describe pool (attributes ++ [a]) ↔
      (∃ s, IsSignature pool a s ∧ parts.signature = some s) ∧
        ({ parts with signature := none } : MethodParts).Describe pool attributes := by
  have hname := exists_name_of_isNamed h
  have hother := isOther_of_isNamed h (by simp)
  simp only [MethodParts.describe_iff, List.filter_append, List.filter_singleton,
    isNamed_of_isNamed h, hother, reduceCtorEq, decide_true, decide_false, cond_true, cond_false,
    List.append_nil, List.forall_mem_append, List.forall_mem_singleton, hname,
    forall₂_append_singleton, Option.toList_none, List.forall₂_nil_right_iff]
  grind

/-- With declared exceptions behind them it is the same. -/
theorem describe_append_exceptions (h : a.isNamed pool .exceptions = true) :
    parts.Describe pool (attributes ++ [a]) ↔
      (∃ classes, IsExceptions pool a classes ∧ parts.exceptions = some classes) ∧
        ({ parts with exceptions := none } : MethodParts).Describe pool attributes := by
  have hname := exists_name_of_isNamed h
  have hother := isOther_of_isNamed h (by simp)
  simp only [MethodParts.describe_iff, List.filter_append, List.filter_singleton,
    isNamed_of_isNamed h, hother, reduceCtorEq, decide_true, decide_false, cond_true, cond_false,
    List.append_nil, List.forall_mem_append, List.forall_mem_singleton, hname,
    forall₂_append_singleton, Option.toList_none, List.forall₂_nil_right_iff]
  grind

/-- Another attribute is the last of the others. -/
theorem describe_append_other (h : a.isOther pool = true) :
    parts.Describe pool (attributes ++ [a]) ↔ (∃ text, a.name pool = .ok text) ∧
      ∃ others, parts.others = others.push a ∧
        ({ parts with others := others } : MethodParts).Describe pool attributes := by
  have hnot : ∀ name, name ≠ .bootstrapMethods → a.isNamed pool name = false :=
    fun name hname => isNamed_of_isOther h hname
  simp only [MethodParts.describe_iff, List.filter_append, List.filter_singleton,
    hnot .code (by simp), hnot .signature (by simp), hnot .exceptions (by simp), h, cond_true,
    cond_false, List.append_nil, List.forall_mem_append, List.forall_mem_singleton]
  constructor
  · rintro ⟨⟨hn, hname⟩, hc, hs, he, ho⟩
    refine ⟨hname, (attributes.filter (Attribute.isOther pool)).toArray, ?_, hn, hc, hs, he, rfl⟩
    apply Array.toList_inj.mp
    rw [← ho, Array.toList_push]
  · rintro ⟨hname, others, hpush, hn, hc, hs, he, ho⟩
    refine ⟨⟨hn, hname⟩, hc, hs, he, ?_⟩
    rw [ho, hpush, Array.toList_push]

/-- The parts of a list with one attribute more are those of the list with the attribute added. -/
theorem describe_append_singleton :
    parts'.Describe pool (attributes ++ [a]) ↔
      ∃ parts, MethodParts.Describe pool parts attributes ∧ parts.add pool a = .ok parts' := by
  -- one case for each case of `add`
  obtain h | h | h | h := kind_cases pool a
  · rw [describe_append_code h]
    simp only [add_of_code h]
    constructor
    · rintro ⟨hcode, hrest⟩
      exact ⟨_, hrest, rfl, by rw [← hcode]⟩
    · rintro ⟨parts, hrest, hnone, rfl⟩
      refine ⟨rfl, ?_⟩
      rwa [← hnone]
  · rw [describe_append_signature h]
    simp only [add_of_signature h]
    constructor
    · rintro ⟨⟨s, hs, hsignature⟩, hrest⟩
      exact ⟨_, hrest, rfl, s, hs, by rw [← hsignature]⟩
    · rintro ⟨parts, hrest, hnone, s, hs, rfl⟩
      refine ⟨⟨s, hs, rfl⟩, ?_⟩
      rwa [← hnone]
  · rw [describe_append_exceptions h]
    simp only [add_of_exceptions h]
    constructor
    · rintro ⟨⟨classes, hclasses, hexceptions⟩, hrest⟩
      exact ⟨_, hrest, rfl, classes, hclasses, by rw [← hexceptions]⟩
    · rintro ⟨parts, hrest, hnone, classes, hclasses, rfl⟩
      refine ⟨⟨classes, hclasses, rfl⟩, ?_⟩
      rwa [← hnone]
  · rw [describe_append_other h]
    simp only [add_of_other h]
    constructor
    · rintro ⟨hname, others, hpush, hrest⟩
      exact ⟨_, hrest, hname, by rw [← hpush]⟩
    · rintro ⟨parts, hrest, hname, rfl⟩
      exact ⟨hname, parts.others, rfl, hrest⟩

/-! ## Describing all attributes -/

/-- Without attributes there are no parts. -/
theorem describe_nil : parts.Describe pool [] ↔ parts = {} := by
  cases parts with
  | mk code signature exceptions others =>
    cases code <;> cases signature <;> cases exceptions <;>
      simp [MethodParts.describe_iff, eq_comm]

/-- Adding the attributes one by one gives the parts that describe them. The induction takes the
last attribute off, as the loop has added it last. -/
theorem foldlM_add_eq_ok :
    attributes.foldlM (MethodParts.add pool) {} = .ok parts ↔ parts.Describe pool attributes := by
  -- the fold adds the last attribute to the parts of those in front of it
  induction attributes using List.reverseRecOn generalizing parts with
  | nil =>
    rw [List.foldlM_nil, describe_nil]
    exact ⟨fun h => by cases h; rfl, fun h => by rw [h]; rfl⟩
  | append_singleton attributes a ih =>
    rw [List.foldlM_append, except_bind_eq_ok, describe_append_singleton]
    simp only [ih, List.foldlM_cons, List.foldlM_nil, bind_pure]

end

/-- Telling the attributes of a method apart succeeds with the parts that describe them. -/
theorem parts_eq_ok {m : Member} :
    m.parts pool = .ok parts ↔ parts.Describe pool m.attributes.toList := foldlM_add_eq_ok

/-! ## In a later pool

An attribute whose name can be found has the same name in every later pool. -/

section

variable {later : ConstantPool} {attributes : List Attribute}

/-- What an attribute is recognised as stays, once its name can be read. -/
theorem isNamed_of_growsInto (hg : pool.GrowsInto later) {text : String}
    (h : a.name pool = .ok text) (name : AttributeName) :
    a.isNamed later name = a.isNamed pool name := by
  have hlater : a.name later = .ok text := hg.utf8 h
  rw [isNamed_of_name h, isNamed_of_name hlater]

theorem isOther_of_growsInto (hg : pool.GrowsInto later) {text : String}
    (h : a.name pool = .ok text) : a.isOther later = a.isOther pool := by
  simp only [Attribute.isOther, isNamed_of_growsInto hg h]

/-- Attributes that share a known name have no other. -/
theorem filter_isNamed_of_named {name : AttributeName}
    (h : ∀ a ∈ attributes, a.isNamed pool name = true) (other : AttributeName) :
    attributes.filter (Attribute.isNamed pool other) = if name = other then attributes else [] := by
  by_cases hname : name = other
  · rw [if_pos hname, List.filter_eq_self]
    rw [← hname]
    exact h
  · rw [if_neg hname, List.filter_eq_nil_iff]
    intro a ha
    simp [isNamed_of_isNamed (h a ha), hname]

/-- Attributes that are told apart leave none for the others. -/
theorem filter_isOther_of_named {name : AttributeName}
    (h : ∀ a ∈ attributes, a.isNamed pool name = true) (hname : name ≠ .bootstrapMethods) :
    attributes.filter (Attribute.isOther pool) = [] := by
  rw [List.filter_eq_nil_iff]
  intro a ha
  simp [isOther_of_isNamed (h a ha) hname]

theorem filter_isNamed_of_other (h : ∀ a ∈ attributes, a.isOther pool = true)
    {name : AttributeName} (hname : name ≠ .bootstrapMethods) :
    attributes.filter (Attribute.isNamed pool name) = [] := by
  rw [List.filter_eq_nil_iff]
  intro a ha
  simp [isNamed_of_isOther (h a ha) hname]

/-- Of attributes that stand in sections, one for each kind, each kind is found in its own
section. -/
theorem filter_of_sections {code exceptions signature others : List Attribute}
    (hcode : ∀ a ∈ code, a.isNamed pool .code = true)
    (hexceptions : ∀ a ∈ exceptions, a.isNamed pool .exceptions = true)
    (hsignature : ∀ a ∈ signature, a.isNamed pool .signature = true)
    (hothers : ∀ a ∈ others, a.isOther pool = true) :
    (code ++ exceptions ++ signature ++ others).filter (Attribute.isNamed pool .code) = code ∧
      (code ++ exceptions ++ signature ++ others).filter (Attribute.isNamed pool .exceptions) =
          exceptions ∧
        (code ++ exceptions ++ signature ++ others).filter (Attribute.isNamed pool .signature) =
            signature ∧
          (code ++ exceptions ++ signature ++ others).filter (Attribute.isOther pool) = others := by
  simp only [List.filter_append, filter_isNamed_of_named hcode,
    filter_isNamed_of_named hexceptions, filter_isNamed_of_named hsignature,
    filter_isNamed_of_other hothers, filter_isOther_of_named hcode,
    filter_isOther_of_named hexceptions, filter_isOther_of_named hsignature,
    List.filter_eq_self.mpr hothers, ne_eq, reduceCtorEq, not_false_eq_true, if_true, if_false,
    List.append_nil, List.nil_append, and_self]

/-- Attributes that stand in sections, one for each kind, are told apart by their sections. -/
theorem describe_of_sections {code exceptions signature others : List Attribute}
    (hcode : ∀ a ∈ code, a.isNamed pool .code = true)
    (hexceptions : ∀ a ∈ exceptions, a.isNamed pool .exceptions = true)
    (hsignature : ∀ a ∈ signature, a.isNamed pool .signature = true)
    (hothers : ∀ a ∈ others, a.isOther pool = true ∧ ∃ text, a.name pool = .ok text)
    (hbody : code = parts.code.toList)
    (hlisted : List.Forall₂ (IsExceptions pool) exceptions parts.exceptions.toList)
    (hsigned : List.Forall₂ (IsSignature pool) signature parts.signature.toList)
    (hrest : others = parts.others.toList) :
    parts.Describe pool (code ++ exceptions ++ signature ++ others) := by
  -- each section is what the filter for its kind finds in the whole
  obtain ⟨hfirst, hsecond, hthird, hfourth⟩ :=
    filter_of_sections hcode hexceptions hsignature fun a ha => (hothers a ha).1
  constructor
  · intro a ha
    simp only [List.mem_append] at ha
    rcases ha with ((ha | ha) | ha) | ha
    · exact exists_name_of_isNamed (hcode a ha)
    · exact exists_name_of_isNamed (hexceptions a ha)
    · exact exists_name_of_isNamed (hsignature a ha)
    · exact (hothers a ha).2
  · rw [hfirst, hbody]
  · rwa [hthird]
  · rwa [hsecond]
  · rw [hfourth, hrest]

end

/-! ## Telling the parts -/

section

variable {σ : Type} {receiver : ClassSink σ} {parts : MethodParts}

/-- Without its body, a method is told by its other attributes and its end. -/
theorem replayParts_skipping :
    ClassFile.replayParts true receiver parts =
      (do
        forM parts.others.toList fun attr => receiver.inMethod (.attribute attr)
        receiver.inMethod .finish) := by
  unfold ClassFile.replayParts
  cases parts.code <;> simp

/-- A method that has no body is told the same with bodies and without. -/
theorem replayParts_of_code_eq_none (h : parts.code = none) (skipCode : Bool) :
    ClassFile.replayParts skipCode receiver parts = ClassFile.replayParts true receiver parts := by
  unfold ClassFile.replayParts
  rw [h]

/-- With its body, a method is told by its other attributes, the body, and its end. -/
theorem replayParts_of_code {a : Attribute} (h : parts.code = some a) :
    ClassFile.replayParts false receiver parts =
      (do
        forM parts.others.toList fun attr => receiver.inMethod (.attribute attr)
        let code ← reading (Code.decode a.info)
        receiver.inMethod (.body code)
        receiver.inMethod .finish) := by
  unfold ClassFile.replayParts
  rw [h]
  rfl

end

end JvmStub
