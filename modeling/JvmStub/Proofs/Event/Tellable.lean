/-
`Tellable.lean` -- the class files that can be told.

Telling a class file takes its names out of the pool and its methods apart, and
stops at the first thing that cannot be done. `ClassFile.Tellable` lists what has
to be right, slot by slot and payload by payload, without a word about events:
the names of the class, of its members and of their attributes can be found, no
method has two attributes of a kind that is taken apart, and the payloads of
these attributes can be read. The lemmas here show that this is the same as what
the header, the declarations and the parts ask for.
-/
import JvmStub.Proofs.Assembly.Pieces
import JvmStub.Proofs.Event.Parts

set_option autoImplicit false

namespace JvmStub

/-- The name and the descriptor of a field or method can be found. -/
structure Member.Named (pool : ConstantPool) (m : Member) : Prop where
  name : ∃ text, pool.utf8 m.nameSlot = .ok text
  descriptor : ∃ text, pool.utf8 m.descriptorSlot = .ok text

/-- The payload is the slot of a text. -/
def Attribute.NamesText (pool : ConstantPool) (a : Attribute) : Prop :=
  ∃ slot, decodeSignature a.info = .ok slot ∧ ∃ text, pool.utf8 slot = .ok text

/-- The payload is a list of slots of classes. -/
def Attribute.ListsClasses (pool : ConstantPool) (a : Attribute) : Prop :=
  ∃ slots, decodeExceptions a.info = .ok slots ∧
    ∀ slot ∈ slots.toList, ∃ name, pool.className slot = .ok name

/-- The method's attributes can be told apart. -/
structure Member.Apart (pool : ConstantPool) (m : Member) : Prop where
  named : ∀ a ∈ m.attributes.toList, ∃ text, a.name pool = .ok text
  codeOnce : (m.attributesNamed pool .code).length ≤ 1
  signatureOnce : (m.attributesNamed pool .signature).length ≤ 1
  exceptionsOnce : (m.attributesNamed pool .exceptions).length ≤ 1
  signature : ∀ a ∈ m.attributesNamed pool .signature, a.NamesText pool
  exceptions : ∀ a ∈ m.attributesNamed pool .exceptions, a.ListsClasses pool

/-- The method can be told with its body. -/
structure Member.Tellable (pool : ConstantPool) (m : Member) : Prop extends
    Member.Named pool m, Member.Apart pool m where
  code : ∀ a ∈ m.attributesNamed pool .code, ∃ code, Code.decode a.info = .ok code

/-- The class file can be told with its bodies. A superclass of zero is none. -/
structure ClassFile.Tellable (cf : ClassFile) : Prop where
  thisClass : ∃ name, cf.pool.className cf.thisClass = .ok name
  superClass : cf.superClass ≠ 0 → ∃ name, cf.pool.className cf.superClass = .ok name
  interfaces : ∀ slot ∈ cf.interfaces.toList, ∃ name, cf.pool.className slot = .ok name
  fields : ∀ f ∈ cf.fields.toList, f.Named cf.pool
  methods : ∀ m ∈ cf.methods.toList, m.Tellable cf.pool

/-! ## Lists that hold one entry at most -/

section

variable {α β : Type} {R : α → β → Prop} {xs : List α}

/-- Entries that each have a match have a list of matches. -/
theorem exists_forall₂_iff : (∃ ys, List.Forall₂ R xs ys) ↔ ∀ x ∈ xs, ∃ y, R x y := by
  induction xs with
  | nil => exact ⟨fun _ x hx => absurd hx List.not_mem_nil, fun _ => ⟨[], .nil⟩⟩
  | cons x xs ih =>
    rw [List.forall_mem_cons, ← ih]
    constructor
    · rintro ⟨_, h⟩
      obtain ⟨y, ys, hxy, hrest, rfl⟩ := List.forall₂_cons_left_iff.mp h
      exact ⟨⟨y, hxy⟩, ys, hrest⟩
    · rintro ⟨⟨y, hxy⟩, ys, hrest⟩
      exact ⟨y :: ys, .cons hxy hrest⟩

/-- A list is that of an option where it holds one entry at most. -/
theorem exists_eq_toList_iff : (∃ o : Option α, xs = o.toList) ↔ xs.length ≤ 1 := by
  constructor
  · rintro ⟨o, rfl⟩
    exact Option.length_toList_le
  · intro hlen
    cases xs with
    | nil => exact ⟨none, rfl⟩
    | cons x rest =>
      rw [List.length_cons] at hlen
      have hrest : rest = [] := List.eq_nil_of_length_eq_zero (by omega)
      exact ⟨some x, by rw [hrest, Option.toList_some]⟩

/-- One entry at most, with a match, is matched by an option. -/
theorem exists_forall₂_toList_iff :
    (∃ o : Option β, List.Forall₂ R xs o.toList) ↔ xs.length ≤ 1 ∧ ∀ x ∈ xs, ∃ y, R x y := by
  constructor
  · rintro ⟨o, h⟩
    exact ⟨length_le_one_of_forall₂ h, exists_forall₂_iff.mp ⟨o.toList, h⟩⟩
  · rintro ⟨hlen, hall⟩
    obtain ⟨ys, h⟩ := exists_forall₂_iff.mpr hall
    rw [h.length_eq] at hlen
    obtain ⟨o, rfl⟩ := exists_eq_toList_iff.mpr hlen
    exact ⟨o, h⟩

end

variable {pool : ConstantPool} {cf : ClassFile} {m : Member} {a : Attribute}

/-! ## What the parts of a method ask for -/

/-- A generic signature can be told when its payload names a text. -/
theorem exists_isSignature_iff : (∃ s, IsSignature pool a s) ↔ a.NamesText pool := by
  constructor
  · rintro ⟨⟨text, slot⟩, hinfo, htext⟩
    exact ⟨slot, decodeSignature_eq_ok.mpr hinfo, text, htext⟩
  · rintro ⟨slot, hslot, text, htext⟩
    exact ⟨(text, slot), decodeSignature_eq_ok.mp hslot, htext⟩

theorem exists_isExceptions_iff : (∃ classes, IsExceptions pool a classes) ↔ a.ListsClasses pool := by
  constructor
  · rintro ⟨classes, hlen, hinfo, hall⟩
    refine ⟨(classes.map (·.2)).toArray, ?_, ?_⟩
    · exact decodeExceptions_eq_ok.mpr ⟨by simpa using hlen, hinfo⟩
    · rw [List.toList_toArray, List.forall_mem_map]
      exact fun c hc => ⟨c.1, hall c hc⟩
  · rintro ⟨slots, hslots, hall⟩
    obtain ⟨hlen, hinfo⟩ := decodeExceptions_eq_ok.mp hslots
    obtain ⟨names, hnames⟩ := exists_forall₂_iff.mpr hall
    -- the classes are the names, each with the slot it was found in
    have hslots' : (names.zip slots.toList).map (·.2) = slots.toList :=
      List.map_snd_zip (Nat.le_of_eq hnames.length_eq)
    refine ⟨names.zip slots.toList, ?_, ?_, ?_⟩
    · rw [List.length_zip, hnames.length_eq.symm, Nat.min_self, Array.length_toList]
      exact hlen
    · rw [hslots', Array.toArray_toList]
      exact hinfo
    · intro c hc
      exact List.forall₂_zip hnames.flip hc

/-- The attributes of a method are described by some parts exactly when they can be told apart. -/
theorem exists_describe_iff :
    (∃ parts : MethodParts, parts.Describe pool m.attributes.toList) ↔ m.Apart pool := by
  constructor
  · rintro ⟨parts, h⟩
    obtain ⟨hsigned, hsignature⟩ := exists_forall₂_toList_iff.mp ⟨_, h.signature⟩
    obtain ⟨hlisted, hexceptions⟩ := exists_forall₂_toList_iff.mp ⟨_, h.exceptions⟩
    refine ⟨h.named, exists_eq_toList_iff.mp ⟨_, h.code⟩, hsigned, hlisted, ?_, ?_⟩
    · exact fun a ha => exists_isSignature_iff.mp (hsignature a ha)
    · exact fun a ha => exists_isExceptions_iff.mp (hexceptions a ha)
  · intro h
    obtain ⟨code, hcode⟩ := exists_eq_toList_iff.mpr h.codeOnce
    obtain ⟨signature, hsignature⟩ := exists_forall₂_toList_iff.mpr
      ⟨h.signatureOnce, fun a ha => exists_isSignature_iff.mpr (h.signature a ha)⟩
    obtain ⟨exceptions, hexceptions⟩ := exists_forall₂_toList_iff.mpr
      ⟨h.exceptionsOnce, fun a ha => exists_isExceptions_iff.mpr (h.exceptions a ha)⟩
    exact ⟨⟨code, signature, exceptions, (m.otherAttributes pool).toArray⟩,
      h.named, hcode, hsignature, hexceptions, rfl⟩

/-! ## What the declarations ask for -/

theorem exists_fieldDecl_iff : (∃ d, cf.fieldDecl m = .ok d) ↔ m.Named cf.pool := by
  constructor
  · rintro ⟨d, hd⟩
    obtain ⟨hname, hdescriptor, -⟩ := fieldDecl_eq_ok.mp hd
    exact ⟨⟨_, hname⟩, ⟨_, hdescriptor⟩⟩
  · rintro ⟨⟨name, hname⟩, ⟨descriptor, hdescriptor⟩⟩
    let d : FieldDecl :=
      { access := m.access, name, descriptor, attributes := m.attributes,
        slots := some { name := m.nameSlot, descriptor := m.descriptorSlot } }
    exact ⟨d, fieldDecl_eq_ok.mpr ⟨hname, hdescriptor, rfl⟩⟩

/-- A method can be declared when its name and its type can be read, whatever its other parts are.
-/
theorem exists_methodDecl_iff {parts : MethodParts} :
    (∃ d, cf.methodDecl m parts = .ok d) ↔ m.Named cf.pool := by
  constructor
  · rintro ⟨d, hd⟩
    obtain ⟨hname, hdescriptor, -⟩ := methodDecl_eq_ok.mp hd
    exact ⟨⟨_, hname⟩, ⟨_, hdescriptor⟩⟩
  · rintro ⟨⟨name, hname⟩, ⟨descriptor, hdescriptor⟩⟩
    let d : MethodDecl :=
      { access := m.access, name, descriptor, signature := parts.signature.map (·.1),
        exceptions := (parts.exceptions.getD []).map (·.1),
        slots := some { name := m.nameSlot, descriptor := m.descriptorSlot,
                        signature := parts.signature.map (·.2),
                        exceptions := (parts.exceptions.getD []).map (·.2) } }
    exact ⟨d, methodDecl_eq_ok.mpr ⟨hname, hdescriptor, rfl⟩⟩

/-- A superclass can be told when it has a name, or when there is none. -/
theorem exists_superNamed_iff : (∃ superName, SuperNamed cf superName) ↔
    (cf.superClass ≠ 0 → ∃ name, cf.pool.className cf.superClass = .ok name) := by
  constructor
  · rintro ⟨superName, h⟩ hsuper
    cases superName with
    | none => exact absurd h hsuper
    | some name => exact ⟨name, h.2⟩
  · intro h
    by_cases hsuper : cf.superClass = 0
    · exact ⟨none, hsuper⟩
    · obtain ⟨name, hname⟩ := h hsuper
      exact ⟨some name, hsuper, hname⟩

/-- A header can be told when all classes in it have names. -/
theorem exists_header_iff : (∃ h, cf.header = .ok h) ↔
    (∃ name, cf.pool.className cf.thisClass = .ok name) ∧
      (cf.superClass ≠ 0 → ∃ name, cf.pool.className cf.superClass = .ok name) ∧
        ∀ slot ∈ cf.interfaces.toList, ∃ name, cf.pool.className slot = .ok name := by
  rw [← exists_superNamed_iff, ← exists_forall₂_iff]
  constructor
  · rintro ⟨h, hh⟩
    obtain ⟨hname, hsuper, hinterfaces, -⟩ := header_eq_ok.mp hh
    exact ⟨⟨_, hname⟩, ⟨_, hsuper⟩, ⟨_, hinterfaces⟩⟩
  · rintro ⟨⟨name, hname⟩, ⟨superName, hsuper⟩, ⟨interfaces, hinterfaces⟩⟩
    let h : ClassHeader :=
      { minor := cf.minor, major := cf.major, access := cf.access, name, superName, interfaces,
        slots := some ⟨cf.thisClass, cf.superClass, cf.interfaces.toList⟩ }
    exact ⟨h, header_eq_ok.mpr ⟨hname, hsuper, hinterfaces, rfl⟩⟩

end JvmStub
