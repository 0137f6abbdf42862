/-
`Normalisation.lean` -- what telling a class file to an assembly makes of it.

A class file that is told with its bodies to an assembly that starts with its own
pool comes out as it was, pool and all, but for the attributes of its methods.
These are put into a fixed order, the body, the declared exceptions, the generic
signature, the others; an empty list of exceptions is left out; and the first
three are named by the lowest slot that holds their name. `ClassFile.normalised`
is that form, said without a word about events or assemblies.

The main statement is an equivalence: the telling succeeds exactly for the class
files that are `Tellable`, and then with the normal form. The refusals that an
assembly has of its own, for want of room or for too many entries, never come:
every constant that is asked for is there, and no table grows.
-/
import JvmStub.Proofs.Assembly.MethodEvents
import JvmStub.Proofs.Assembly.Telling
import JvmStub.Proofs.Event.Tellable

set_option autoImplicit false

namespace JvmStub

open ClassAssembly ConstantPool MethodAssembly

/-! ## The normal form -/

/-- The method with its attributes in their fixed order. -/
def Member.normalised (pool : ConstantPool) (m : Member) : Member :=
  { m with
    attributes :=
      ((m.attributesNamed pool .code).map (Attribute.under pool .code) ++
        ((m.attributesNamed pool .exceptions).filter Attribute.listsExceptions).map
          (Attribute.under pool .exceptions) ++
        (m.attributesNamed pool .signature).map (Attribute.under pool .signature) ++
        m.otherAttributes pool).toArray }

/-- The class file with the attributes of its methods in their fixed order. -/
def ClassFile.normalised (cf : ClassFile) : ClassFile :=
  { cf with methods := cf.methods.map (Member.normalised cf.pool) }

variable {pool : ConstantPool} {cf : ClassFile} {m : Member} {parts : MethodParts}

/-! ## Putting in order what is in order -/

/-- An attribute goes on being recognised under the lowest slot of its name. -/
theorem isNamed_under {name : AttributeName} {a : Attribute} (hn : pool.Numbered)
    (h : a.isNamed pool name = true) : (a.under pool name).isNamed pool name = true :=
  isNamed_iff.mpr (isLowestUtf8_textSlot hn (isNamed_iff.mp h)).1

/-- Attributes of one name keep it under its lowest slot. -/
theorem isNamed_map_under {name : AttributeName} {attributes : List Attribute} (hn : pool.Numbered)
    (h : ∀ a ∈ attributes, a.isNamed pool name = true) :
    ∀ a ∈ attributes.map (Attribute.under pool name), a.isNamed pool name = true := by
  rw [List.forall_mem_map]
  exact fun a ha => isNamed_under hn (h a ha)

/-- The lowest slot is found again, so moving attributes under it once is enough. -/
theorem map_under_under (name : AttributeName) (attributes : List Attribute) :
    (attributes.map (Attribute.under pool name)).map (Attribute.under pool name) =
      attributes.map (Attribute.under pool name) := by
  rw [List.map_map]
  rfl

/-- The slot of its name does not change what an attribute lists. -/
theorem listsExceptions_under (pool : ConstantPool) (name : AttributeName) (a : Attribute) :
    (a.under pool name).listsExceptions = a.listsExceptions := rfl

/-- In the normal form of a method, each kind of attribute stands in its own section. -/
theorem sections_normalised (hn : pool.Numbered) (m : Member) :
    (m.normalised pool).attributesNamed pool .code =
        (m.attributesNamed pool .code).map (Attribute.under pool .code) ∧
      (m.normalised pool).attributesNamed pool .exceptions =
          ((m.attributesNamed pool .exceptions).filter Attribute.listsExceptions).map
            (Attribute.under pool .exceptions) ∧
        (m.normalised pool).attributesNamed pool .signature =
            (m.attributesNamed pool .signature).map (Attribute.under pool .signature) ∧
          (m.normalised pool).otherAttributes pool = m.otherAttributes pool := by
  have hnamed : ∀ name, ∀ a ∈ m.attributesNamed pool name, a.isNamed pool name = true :=
    fun name a ha => List.of_mem_filter ha
  refine filter_of_sections (isNamed_map_under hn (hnamed .code)) ?_
    (isNamed_map_under hn (hnamed .signature)) fun a ha => List.of_mem_filter ha
  exact isNamed_map_under hn fun a ha => hnamed .exceptions a (List.mem_of_mem_filter ha)

/-- The normal form of a method is in normal form. -/
theorem normalised_normalised (hn : pool.Numbered) (m : Member) :
    (m.normalised pool).normalised pool = m.normalised pool := by
  obtain ⟨hcode, hexceptions, hsignature, hothers⟩ := sections_normalised hn m
  -- what lists exceptions still does under another name slot
  have hlists : ∀ a ∈ ((m.attributesNamed pool .exceptions).filter Attribute.listsExceptions).map
      (Attribute.under pool .exceptions), a.listsExceptions = true := by
    rw [List.forall_mem_map]
    intro a ha
    exact (listsExceptions_under pool .exceptions a).trans (List.of_mem_filter ha)
  have hattributes : ((m.normalised pool).normalised pool).attributes =
      (m.normalised pool).attributes := by
    change List.toArray _ = List.toArray _
    rw [hcode, hexceptions, hsignature, hothers, List.filter_eq_self.mpr hlists, map_under_under,
      map_under_under, map_under_under]
  change ({ m.normalised pool with attributes := ((m.normalised pool).normalised pool).attributes } :
    Member) = _
  rw [hattributes]

/-- The normal form of a class file is in normal form. -/
theorem ClassFile.normalised_normalised (hn : cf.pool.Numbered) :
    cf.normalised.normalised = cf.normalised := by
  have hmethods : (cf.methods.map (Member.normalised cf.pool)).map (Member.normalised cf.pool) =
      cf.methods.map (Member.normalised cf.pool) := by
    rw [Array.map_map]
    exact Array.map_congr_left fun m _ => JvmStub.normalised_normalised hn m
  exact congrArg (fun methods => ({ cf with methods } : ClassFile)) hmethods

/-! ## Telling a method -/

/-- The attributes that an assembly writes for a method are those of its normal form. -/
theorem normalised_of_describe (h : parts.Describe pool m.attributes.toList) :
    m.normalised pool =
      { m with
        attributes :=
          (parts.code.toList.map (Attribute.under pool .code) ++ parts.leading pool ++
            parts.others.toList).toArray } := by
  have hcode : m.attributesNamed pool .code = parts.code.toList := h.code
  have hothers : m.otherAttributes pool = parts.others.toList := h.others
  rw [Member.normalised, MethodParts.leading, h.exceptionsAttribute_eq, h.signatureAttribute_eq,
    hcode, hothers, ← List.append_assoc]

/-- The normal form of a method has no more attributes than the method. -/
theorem size_normalised_le (pool : ConstantPool) (m : Member) :
    (m.normalised pool).attributes.size ≤ m.attributes.size := by
  have hkinds := length_eq_of_kinds pool m
  have hlisted := List.length_filter_le Attribute.listsExceptions (m.attributesNamed pool .exceptions)
  simp only [Member.normalised, List.size_toArray, List.length_append, List.length_map]
  omega

section

variable {a after : ClassAssembly} {method : MethodAssembly} {code : Option Code} {name : String}

/-- The body that a method's payload is read as; without a payload there is none. -/
inductive ReadsCode (parts : MethodParts) : Option Code → Prop
  | absent (hcode : parts.code = none) : ReadsCode parts none
  | present {a : Attribute} {code : Code} (hcode : parts.code = some a)
      (hread : Code.decode a.info = .ok code) : ReadsCode parts (some code)

/-- Attributes that are sent to a method go behind those it has. -/
theorem receiveAttributes_run (attributes : List Attribute) (hopen : method.ended = false) :
    (forM attributes fun attr => receive (.attribute attr)) (method, a) =
      (.ok (), ({ method with forwarded := method.forwarded ++ attributes }, a)) := by
  induction attributes generalizing method with
  | nil => simp [List.forM_nil]
  | cons attr attributes ih =>
    rw [List.forM_cons, bind_of_ok (receiveAttribute_run hopen), ih (by exact hopen)]
    simp

theorem receiveBody_run (hopen : method.ended = false) (habsent : method.body = .absent)
    (code : Code) : receive (.body code) (method, a) = (.ok (), (method.withBody code, a)) := by
  change receiveBody code (method, a) = _
  unfold receiveBody
  rw [bind_of_ok (checkOpen_run hopen _), bind_of_ok (checkNoBody_of_absent habsent)]
  rfl

/-- The body of a method is written back as it was read, under the lowest slot of its name. -/
theorem codeRequest_of_reads (h : parts.Describe cf.pool m.attributes.toList)
    (hg : cf.pool.GrowsInto pool) (hread : ReadsCode parts code) :
    codeRequest code pool =
      (.ok (parts.code.toList.map (Attribute.under cf.pool .code)), pool) := by
  cases hread with
  | absent hcode =>
    rw [hcode]
    rfl
  | @present attr code hcode hread =>
    have hnamed : attr.isNamed cf.pool .code = true := by
      have hmem : attr ∈ m.attributes.toList.filter (Attribute.isNamed cf.pool .code) := by
        rw [h.code, hcode]
        exact List.mem_singleton_self attr
      exact List.of_mem_filter hmem
    obtain ⟨-, hinfo⟩ := Code.decode_eq_ok.mp hread
    have hslot := PoolM.addUtf8_of_utf8 hg (isNamed_iff.mp hnamed)
    rw [hcode]
    refine (bind_of_ok hslot).trans ?_
    rw [← hinfo]
    rfl

/-- The assembly of a method when all but its end has come. -/
def told (pool : ConstantPool) (m : Member) (parts : MethodParts) (name : String)
    (code : Option Code) : MethodAssembly :=
  { begun pool m parts name with
    forwarded := parts.others
    body := (code.map BodyState.complete).getD .absent }

/-- All other attributes of a method are sent one by one. -/
theorem others_run : (forM parts.others.toList fun attr => sink.inMethod (.attribute attr))
    (begun pool m parts name, a) = (.ok (), (told pool m parts name none, a)) := by
  have hsame : (begun pool m parts name).forwarded ++ parts.others.toList = parts.others := by
    simp [begun]
  refine (receiveAttributes_run parts.others.toList rfl).trans ?_
  rw [hsame]
  rfl

/-- At its end, a method is put into the class in normal form. -/
theorem finish_told (name : String) (h : parts.Describe cf.pool m.attributes.toList) (hfits : m.Fits)
    (hg : cf.pool.GrowsInto a.classFile.pool) (hread : ReadsCode parts code) :
    receive .finish (told cf.pool m parts name code, a) =
      (.ok (), ({ told cf.pool m parts name code with ended := true },
        a.withMethod (m.normalised cf.pool))) := by
  have hform := normalised_of_describe h
  have hle : (m.normalised cf.pool).attributes.size ≤ maxCount :=
    Nat.le_trans (size_normalised_le cf.pool m) hfits.1
  -- the assembly keeps three arrays, where the normal form has one list
  have hattributes : (parts.code.toList.map (Attribute.under cf.pool .code)).toArray ++
      (told cf.pool m parts name code).leading ++ (told cf.pool m parts name code).forwarded =
        (m.normalised cf.pool).attributes := by
    rw [hform]
    simp [told, begun]
  refine (finish_eq_ok rfl rfl).mpr ⟨_, _, codeRequest_of_reads h hg hread, ?_, ?_⟩
  · rwa [hattributes]
  · rw [hattributes, withPool_self]
    rfl

/-- What is inside a method whose body has been read is put into the class in normal form. -/
theorem replayParts_of_reads (h : parts.Describe cf.pool m.attributes.toList) (hfits : m.Fits)
    (hg : cf.pool.GrowsInto a.classFile.pool) (hread : ReadsCode parts code) :
    ClassFile.replayParts false sink parts (begun cf.pool m parts name, a) =
      (.ok (), ({ told cf.pool m parts name code with ended := true },
        a.withMethod (m.normalised cf.pool))) := by
  have hfinish := finish_told name h hfits hg hread
  cases hread with
  | absent hcode =>
    rw [replayParts_of_code_eq_none hcode, replayParts_skipping, bind_of_ok others_run]
    exact hfinish
  | @present attr c hcode hread =>
    have hbody : receive (.body c) (told cf.pool m parts name none, a) =
        (.ok (), (told cf.pool m parts name (some c), a)) := receiveBody_run rfl rfl c
    rw [replayParts_of_code hcode, bind_of_ok others_run, reading_of_ok hread, pure_bind]
    exact (bind_of_ok hbody).trans hfinish

/-- A method whose inside has been told has no body that cannot be read. -/
theorem exists_reads_of_replayParts {state : MethodAssembly × ClassAssembly}
    (h : ClassFile.replayParts false sink parts (begun pool m parts name, a) = (.ok (), state)) :
    ∃ code, ReadsCode parts code := by
  cases hcode : parts.code with
  | none => exact ⟨none, .absent hcode⟩
  | some attr =>
    rw [replayParts_of_code hcode, bind_of_ok others_run] at h
    obtain ⟨code, mid, hread, -⟩ := bind_eq_ok.mp h
    exact ⟨some code, .present hcode (reading_eq_ok.mp hread).1⟩

/-- The body of a method can be read when all attributes of that name can, of which there is one at
most. -/
theorem exists_reads_iff (h : parts.Describe pool m.attributes.toList) :
    (∃ code, ReadsCode parts code) ↔
      ∀ attr ∈ m.attributesNamed pool .code, ∃ code, Code.decode attr.info = .ok code := by
  have hlisted : m.attributesNamed pool .code = parts.code.toList := h.code
  rw [hlisted]
  constructor
  · rintro ⟨code, hread⟩ attr hattr
    cases hread with
    | absent hcode => simp [hcode] at hattr
    | present hcode hread =>
      rw [hcode, Option.toList_some, List.mem_singleton] at hattr
      rw [hattr]
      exact ⟨_, hread⟩
  · intro hall
    cases hcode : parts.code with
    | none => exact ⟨none, .absent hcode⟩
    | some attr =>
      obtain ⟨code, hread⟩ := hall attr (by rw [hcode]; exact List.mem_singleton_self attr)
      exact ⟨some code, .present hcode hread⟩

/-- A method is told to an assembly exactly when it can be told, and then it is put into the class
in normal form. -/
theorem replayMethod_sink_eq_ok (ha : a.Open) (hg : cf.pool.GrowsInto a.classFile.pool)
    (hcount : a.classFile.methods.size < maxCount) (hfits : m.Fits) :
    cf.replayMethod false sink m a = (.ok (), after) ↔
      m.Tellable cf.pool ∧ after = a.withMethod (m.normalised cf.pool) := by
  rw [replayMethod_iff]
  constructor
  · rintro ⟨parts, decl, hdescribe, hdecl, opened, mid, hopened, closed, hinside⟩
    cases (begin_run hdescribe hdecl ha hg hcount).symm.trans hopened
    obtain ⟨code, hread⟩ := exists_reads_of_replayParts hinside
    cases (replayParts_of_reads hdescribe hfits hg hread).symm.trans hinside
    exact ⟨⟨exists_methodDecl_iff.mp ⟨decl, hdecl⟩, exists_describe_iff.mp ⟨parts, hdescribe⟩,
      (exists_reads_iff hdescribe).mp ⟨code, hread⟩⟩, rfl⟩
  · rintro ⟨htellable, rfl⟩
    obtain ⟨parts, hdescribe⟩ := exists_describe_iff.mpr htellable.toApart
    have hdeclared : ∃ decl, cf.methodDecl m parts = .ok decl :=
      exists_methodDecl_iff.mpr htellable.toNamed
    obtain ⟨decl, hdecl⟩ := hdeclared
    obtain ⟨code, hread⟩ := (exists_reads_iff hdescribe).mpr htellable.code
    exact ⟨parts, decl, hdescribe, hdecl, _, a, begin_run hdescribe hdecl ha hg hcount, _,
      replayParts_of_reads hdescribe hfits hg hread⟩

/-- The methods of a class file are told exactly when each of them can be. -/
theorem replayMethods_sink_eq_ok {methods : List Member} (ha : a.Open)
    (hg : cf.pool.GrowsInto a.classFile.pool)
    (hcount : a.classFile.methods.size + methods.length ≤ maxCount)
    (hfits : ∀ m ∈ methods, m.Fits) :
    forM methods (cf.replayMethod false sink) a = (.ok (), after) ↔
      (∀ m ∈ methods, m.Tellable cf.pool) ∧
        after = a.withMethods (methods.map (Member.normalised cf.pool)).toArray := by
  -- each method is put behind those before it, so the induction is over all assemblies
  induction methods generalizing a with
  | nil =>
    constructor
    · intro h
      cases h
      exact ⟨by simp, by simp [withMethods]⟩
    · rintro ⟨-, rfl⟩
      simp [List.forM_nil, withMethods]
  | cons m methods ih =>
    obtain ⟨hm, hmethods⟩ := List.forall_mem_cons.mp hfits
    rw [List.length_cons] at hcount
    have hroom : (a.withMethod (m.normalised cf.pool)).classFile.methods.size + methods.length ≤
        maxCount := by
      simp only [withMethod, Array.size_push]
      omega
    have hsame : a.withMethods ((m :: methods).map (Member.normalised cf.pool)).toArray =
        (a.withMethod (m.normalised cf.pool)).withMethods
          (methods.map (Member.normalised cf.pool)).toArray := by
      simp [withMethods, withMethod]
    have hrest := ih (a := a.withMethod (m.normalised cf.pool)) ha hg hroom hmethods
    rw [List.forM_cons, bind_eq_ok, List.forall_mem_cons, hsame]
    constructor
    · rintro ⟨⟨⟩, mid, hfirst, h⟩
      obtain ⟨htellable, rfl⟩ := (replayMethod_sink_eq_ok ha hg (by omega) hm).mp hfirst
      obtain ⟨hall, rfl⟩ := hrest.mp h
      exact ⟨⟨htellable, hall⟩, rfl⟩
    · rintro ⟨⟨htellable, hall⟩, rfl⟩
      exact ⟨⟨⟩, _, (replayMethod_sink_eq_ok ha hg (by omega) hm).mpr ⟨htellable, rfl⟩,
        hrest.mpr ⟨hall, rfl⟩⟩

end

/-! ## Telling a class file -/

/-- What the header, the fields and the methods of a class file ask for is what the whole of it asks
for. -/
theorem tellable_iff :
    cf.Tellable ↔ cf.Resolves ∧ ∀ m ∈ cf.methods.toList, m.Tellable cf.pool := by
  constructor
  · intro h
    refine ⟨⟨exists_header_iff.mpr ⟨h.thisClass, h.superClass, h.interfaces⟩, fun f hf => ?_⟩,
      h.methods⟩
    exact exists_fieldDecl_iff.mpr (h.fields f hf)
  · rintro ⟨⟨hheader, hfields⟩, hmethods⟩
    obtain ⟨hname, hsuper, hinterfaces⟩ := exists_header_iff.mp hheader
    exact ⟨hname, hsuper, hinterfaces, fun f hf => exists_fieldDecl_iff.mp (hfields f hf), hmethods⟩

/-- A class file that fits is told exactly when it can be, and comes out in normal form. -/
theorem replay_sink_eq_ok (hfits : cf.Fits) {after : ClassAssembly} :
    cf.replay false sink (ofPool cf.pool) = (.ok (), after) ↔
      cf.Tellable ∧ after = ⟨cf.normalised, true, true⟩ := by
  have hmethods : ∀ built, forM cf.methods.toList (cf.replayMethod false sink) (headed cf) =
      (.ok (), built) ↔ ∃ pool members,
        (pool = cf.pool ∧ (∀ m ∈ cf.methods.toList, m.Tellable cf.pool) ∧
          members = cf.methods.toList.map (Member.normalised cf.pool)) ∧
        built = ((headed cf).withPool pool).withMethods members.toArray := by
    intro built
    rw [replayMethods_sink_eq_ok (open_headed cf) (GrowsInto.refl cf.pool)
      (methods_headed_le hfits) hfits.methods.2]
    constructor
    · rintro ⟨hall, rfl⟩
      exact ⟨cf.pool, _, ⟨rfl, hall, rfl⟩, rfl⟩
    · rintro ⟨pool, members, ⟨rfl, hall, rfl⟩, rfl⟩
      exact ⟨hall, rfl⟩
  rw [replay_eq_ok_of buildsClass_sink hfits hmethods, tellable_iff, and_assoc]
  refine and_congr_right fun _ => ?_
  have hsame : ({ cf with
      methods := (cf.methods.toList.map (Member.normalised cf.pool)).toArray } : ClassFile) =
        cf.normalised := by
    rw [ClassFile.normalised, ← Array.toList_map, Array.toArray_toList]
  constructor
  · rintro ⟨pool, members, ⟨rfl, hall, rfl⟩, rfl⟩
    exact ⟨hall, by rw [hsame]⟩
  · rintro ⟨hall, rfl⟩
    exact ⟨cf.pool, _, ⟨rfl, hall, rfl⟩, by rw [hsame]⟩

/-- Telling a class file that was read, with its bodies, to an assembly that starts with its pool
puts it into normal form. It succeeds exactly where the class file can be told; a normal form is its
own normal form; and so the class files that come out as they were are those in normal form. -/
theorem replay_sink_of_decode {bytes : Bytes} (hdecode : ClassFile.decode bytes = .ok cf) :
    ((∃ after, cf.replay false sink (ofPool cf.pool) = (.ok (), after)) ↔ cf.Tellable) ∧
      (cf.Tellable →
        cf.replay false sink (ofPool cf.pool) = (.ok (), ⟨cf.normalised, true, true⟩)) ∧
      cf.normalised.normalised = cf.normalised ∧
      (cf.Tellable → (cf.replay false sink (ofPool cf.pool) = (.ok (), ⟨cf, true, true⟩) ↔
        cf.normalised = cf)) := by
  have hfits := ClassFile.fits_of_decode hdecode
  have hrun : cf.Tellable →
      cf.replay false sink (ofPool cf.pool) = (.ok (), ⟨cf.normalised, true, true⟩) :=
    fun htellable => (replay_sink_eq_ok hfits).mpr ⟨htellable, rfl⟩
  refine ⟨⟨?_, fun h => ⟨_, hrun h⟩⟩, hrun, ClassFile.normalised_normalised hfits.numbered, ?_⟩
  · rintro ⟨after, h⟩
    exact ((replay_sink_eq_ok hfits).mp h).1
  · intro htellable
    rw [hrun htellable]
    constructor
    · intro h
      exact congrArg (fun run => run.2.classFile) h
    · intro h
      rw [h]

/-- A class whose method has its attributes in disorder. The name of its body stands twice in the
pool, and its list of exceptions is empty. -/
def disorderedClass : ClassFile where
  magic := classMagic
  minor := 0
  major := 52
  pool :=
    ⟨#[.utf8 "A", .classRef 1, .utf8 "m", .utf8 "()V", .utf8 "Code", .utf8 "Code",
      .utf8 "Exceptions", .utf8 "Signature", .utf8 "Deprecated"]⟩
  access := 0x0021
  thisClass := 2
  superClass := 0
  interfaces := #[]
  fields := #[]
  methods :=
    #[⟨0x0009, 3, 4, #[⟨9, []⟩, ⟨8, encodeSignature 4⟩, ⟨7, encodeExceptions #[]⟩,
      ⟨6, Code.encode ⟨0, 0, [177], #[], #[]⟩⟩]⟩]
  attributes := #[]

/-- The class in normal form. -/
def orderedClass : ClassFile :=
  { disorderedClass with
    methods :=
      #[⟨0x0009, 3, 4, #[⟨5, Code.encode ⟨0, 0, [177], #[], #[]⟩⟩, ⟨8, encodeSignature 4⟩, ⟨9, []⟩]⟩] }

/-- A class file with attributes out of order is told, and comes out in its normal form. -/
theorem replay_sink_of_decode_disordered :
    ClassFile.decode disorderedClass.encode = .ok disorderedClass ∧ disorderedClass.Tellable ∧
      disorderedClass.normalised = orderedClass ∧ orderedClass.normalised = orderedClass ∧
      disorderedClass.replay false sink (ofPool disorderedClass.pool) =
        (.ok (), ⟨orderedClass, true, true⟩) := by
  have hdecode : ClassFile.decode disorderedClass.encode = .ok disorderedClass := by decide +kernel
  have hform : disorderedClass.normalised = orderedClass := by decide +kernel
  have hrun : @Eq (Except Error Unit × ClassAssembly)
      (disorderedClass.replay false sink (ofPool disorderedClass.pool))
      (.ok (), ⟨orderedClass, true, true⟩) := by decide +kernel
  obtain ⟨hiff, htold, hagain, -⟩ := replay_sink_of_decode hdecode
  have htellable := hiff.mp ⟨_, hrun⟩
  rw [hform] at hagain
  exact ⟨hdecode, htellable, hform, hagain, by rw [htold htellable, hform]⟩

end JvmStub
