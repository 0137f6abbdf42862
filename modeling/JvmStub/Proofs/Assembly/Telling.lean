/-
`Telling.lean` -- a class file, told to an assembly.

What a class file says besides its methods reaches the assembly unchanged,
whether the assembly itself or a stage in front of it is told: a sink that passes
header, fields, attributes and end on to the assembly `BuildsClass`. So all that
is to be said about telling a class file is said about telling its methods. The
two main statements turn what telling the methods comes to into what telling the
class file comes to, one for a telling that succeeds and one for a telling that
stops.
-/
import JvmStub.Proofs.Assembly.Methods
import JvmStub.Proofs.ClassFile.RoundTrip

set_option autoImplicit false

namespace JvmStub

open ClassAssembly ConstantPool

/-! ## A method -/

section

variable {σ : Type} {receiver : ClassSink σ} {cf : ClassFile} {m : Member} {skipCode : Bool}
  {s s' : σ} {e : Error}

/-- A method is told exactly when its attributes can be told apart, its names can be found, and the
receiver takes its declaration and then what is inside it. -/
theorem replayMethod_iff : cf.replayMethod skipCode receiver m s = (.ok (), s') ↔
    ∃ parts decl, parts.Describe cf.pool m.attributes.toList ∧ cf.methodDecl m parts = .ok decl ∧
      ∃ opened mid, receiver.method decl s = (.ok opened, mid) ∧
        ∃ closed, ClassFile.replayParts skipCode receiver parts (opened, mid) =
          (.ok (), (closed, s')) := by
  unfold ClassFile.replayMethod
  constructor
  · intro h
    obtain ⟨parts, s₁, hread, h⟩ := bind_eq_ok.mp h
    obtain ⟨hparts, hsame⟩ := reading_eq_ok.mp hread
    rw [hsame] at h
    obtain ⟨decl, s₂, hread, h⟩ := bind_eq_ok.mp h
    obtain ⟨hdecl, hsame⟩ := reading_eq_ok.mp hread
    rw [hsame] at h
    obtain ⟨opened, mid, hopened, h⟩ := bind_eq_ok.mp h
    obtain ⟨closed, last, hwithin, h⟩ := bind_eq_ok.mp h
    cases h
    exact ⟨parts, decl, parts_eq_ok.mp hparts, hdecl, opened, mid, hopened, closed,
      within_eq_ok.mp hwithin⟩
  · rintro ⟨parts, decl, hdescribe, hdecl, opened, mid, hopened, closed, hinside⟩
    rw [reading_of_ok (parts_eq_ok.mpr hdescribe), pure_bind, reading_of_ok hdecl, pure_bind,
      bind_of_ok hopened]
    exact bind_of_ok (within_eq_ok.mpr hinside)

/-- Where it is not told, it could not be read, and then nothing has happened, or the receiver has
refused its declaration or something inside it. -/
theorem replayMethod_refused (h : cf.replayMethod skipCode receiver m s = (.error e, s')) :
    (∃ r, (m.parts cf.pool >>= cf.methodDecl m) = .error r ∧ e = .read r ∧ s' = s) ∨
      ∃ parts decl, parts.Describe cf.pool m.attributes.toList ∧ cf.methodDecl m parts = .ok decl ∧
        (receiver.method decl s = (.error e, s') ∨
          ∃ opened mid, receiver.method decl s = (.ok opened, mid) ∧
            ∃ closed, ClassFile.replayParts skipCode receiver parts (opened, mid) =
              (.error e, (closed, s'))) := by
  unfold ClassFile.replayMethod at h
  -- the steps in their order: the parts, the declaration, the opening, the events inside
  rcases bind_eq_error.mp h with hread | ⟨parts, s₁, hread, h⟩
  · obtain ⟨r, hparts, he, hs⟩ := reading_eq_error.mp hread
    exact .inl ⟨r, except_bind_eq_error.mpr (.inl hparts), he, hs⟩
  obtain ⟨hparts, hsame⟩ := reading_eq_ok.mp hread
  rw [hsame] at h
  rcases bind_eq_error.mp h with hread | ⟨decl, s₂, hread, h⟩
  · obtain ⟨r, hdecl, he, hs⟩ := reading_eq_error.mp hread
    exact .inl ⟨r, except_bind_eq_error.mpr (.inr ⟨parts, hparts, hdecl⟩), he, hs⟩
  obtain ⟨hdecl, hsame⟩ := reading_eq_ok.mp hread
  rw [hsame] at h
  refine .inr ⟨parts, decl, parts_eq_ok.mp hparts, hdecl, ?_⟩
  rcases bind_eq_error.mp h with hopened | ⟨opened, mid, hopened, h⟩
  · exact .inl hopened
  rcases bind_eq_error.mp h with hwithin | ⟨closed, last, -, h⟩
  · exact .inr ⟨opened, mid, hopened, within_eq_error.mp hwithin⟩
  · cases h

end

/-! ## The class around the methods -/

/-- The assembly with more methods. -/
def ClassAssembly.withMethods (a : ClassAssembly) (methods : Array Member) : ClassAssembly :=
  { a with classFile := { a.classFile with methods := a.classFile.methods ++ methods } }

/-- The assembly that starts with a class file's pool, once the header and the fields are in. -/
def ClassAssembly.headed (cf : ClassFile) : ClassAssembly :=
  ((ofPool cf.pool).withHeaderOf cf).withFields cf.fields

/-- The sink passes on to an assembly what concerns the class and none of its methods. -/
structure ClassSink.BuildsClass (s : ClassSink ClassAssembly) : Prop where
  header : s.header = ClassAssembly.header
  field : s.field = ClassAssembly.field
  classAttribute : s.classAttribute = ClassAssembly.classAttribute
  finish : s.finish = ClassAssembly.finish

theorem buildsClass_sink : ClassAssembly.sink.BuildsClass := ⟨rfl, rfl, rfl, rfl⟩

/-- The names of the class file's header and of its fields can be found. -/
structure ClassFile.Resolves (cf : ClassFile) : Prop where
  header : ∃ h, cf.header = .ok h
  fields : ∀ f ∈ cf.fields.toList, ∃ d, cf.fieldDecl f = .ok d

section

variable {cf : ClassFile} {s : ClassSink ClassAssembly} {skipCode : Bool} {after : ClassAssembly}

theorem open_headed (cf : ClassFile) : (headed cf).Open := ⟨rfl, rfl⟩

/-- All methods of a class file that fits find their place. -/
theorem methods_headed_le (hfits : cf.Fits) :
    (headed cf).classFile.methods.size + cf.methods.toList.length ≤ maxCount := by
  simpa [headed, withFields, withHeaderOf, ofPool, ClassFile.empty, maxCount] using hfits.methods.1

/-- The fields of a class file that fits can be told to a new assembly. -/
theorem fields_le (hfits : cf.Fits) :
    ((ofPool cf.pool).withHeaderOf cf).classFile.fields.size + cf.fields.toList.length ≤
      maxCount := by
  simpa [withHeaderOf, ofPool, ClassFile.empty, maxCount] using hfits.fields.1

/-- The header of a class file that fits is received where its names can be found. -/
theorem header_ofPool (hfits : cf.Fits) {h : ClassHeader} (hh : cf.header = .ok h) :
    ClassAssembly.header h (ofPool cf.pool) = (.ok (), (ofPool cf.pool).withHeaderOf cf) :=
  header_run hh rfl (GrowsInto.refl cf.pool) hfits.interfaces

/-- Nothing is missing when the attributes and the end have come. -/
theorem finished_headed (hfits : cf.Fits) (pool : ConstantPool) (members : List Member) :
    ({ ((((headed cf).withPool pool).withMethods members.toArray).withAttributes
        cf.attributes.toList.toArray) with ended := true } : ClassAssembly) =
      ⟨{ cf with pool, methods := members.toArray }, true, true⟩ := by
  simp [headed, withAttributes, withMethods, withPool, withFields, withHeaderOf, ofPool,
    ClassFile.empty, hfits.magic]

/-- A class file that fits is told exactly when the names of its header and fields can be found and
its methods can be told; the assembly then holds it with the pool and the methods that these came
to. -/
theorem replay_eq_ok_of {P : ConstantPool → List Member → Prop} (hs : s.BuildsClass)
    (hfits : cf.Fits)
    (hmethods : ∀ built, forM cf.methods.toList (cf.replayMethod skipCode s) (headed cf) =
        (.ok (), built) ↔
      ∃ pool members, P pool members ∧
        built = ((headed cf).withPool pool).withMethods members.toArray) :
    cf.replay skipCode s (ofPool cf.pool) = (.ok (), after) ↔
      cf.Resolves ∧ ∃ pool members, P pool members ∧
        after = ⟨{ cf with pool, methods := members.toArray }, true, true⟩ := by
  have hopen : ((ofPool cf.pool).withHeaderOf cf).Open := ⟨rfl, rfl⟩
  have hbuilt : ∀ (pool : ConstantPool) (members : List Member),
      (((headed cf).withPool pool).withMethods members.toArray).Open := fun _ _ => ⟨rfl, rfl⟩
  unfold ClassFile.replay
  rw [bind_eq_ok, hs.header, hs.field, hs.classAttribute, hs.finish]
  constructor
  · rintro ⟨h, a₀, hread, hrest⟩
    obtain ⟨hh, rfl⟩ := reading_eq_ok.mp hread
    -- header, fields, methods, attributes, end: each leaves an assembly that is known
    rw [bind_of_ok (header_ofPool hfits hh)] at hrest
    obtain ⟨⟨⟩, a₂, hsecond, hrest⟩ := bind_eq_ok.mp hrest
    obtain ⟨hall, rfl⟩ := (fields_eq_ok hopen (GrowsInto.refl cf.pool) (fields_le hfits)).mp hsecond
    obtain ⟨⟨⟩, a₃, hthird, hrest⟩ := bind_eq_ok.mp hrest
    obtain ⟨pool, members, hP, rfl⟩ := (hmethods a₃).mp hthird
    rw [bind_of_ok (classAttributes_run (hbuilt pool members))] at hrest
    cases (finish_run (by exact hbuilt pool members)).symm.trans hrest
    exact ⟨⟨⟨h, hh⟩, hall⟩, pool, members, hP, finished_headed hfits pool members⟩
  · rintro ⟨⟨⟨h, hh⟩, hall⟩, pool, members, hP, rfl⟩
    refine ⟨h, ofPool cf.pool, reading_eq_ok.mpr ⟨hh, rfl⟩, ?_⟩
    refine bind_eq_ok.mpr ⟨⟨⟩, _, header_ofPool hfits hh, ?_⟩
    refine bind_eq_ok.mpr ⟨⟨⟩, _,
      (fields_eq_ok hopen (GrowsInto.refl cf.pool) (fields_le hfits)).mpr ⟨hall, rfl⟩, ?_⟩
    refine bind_eq_ok.mpr ⟨⟨⟩, _, (hmethods _).mpr ⟨pool, members, hP, rfl⟩, ?_⟩
    refine bind_eq_ok.mpr ⟨⟨⟩, _, classAttributes_run (hbuilt pool members), ?_⟩
    rw [← finished_headed hfits pool members]
    exact finish_run (hbuilt pool members)

/-- A class file that fits is refused because a name of its header or of a field cannot be found,
and then no constant has been added, or because a method cannot be told. -/
theorem replay_eq_error_of (hs : s.BuildsClass) (hfits : cf.Fits) {e : Error}
    (h : cf.replay skipCode s (ofPool cf.pool) = (.error e, after))
    (hmethods : ∀ built, forM cf.methods.toList (cf.replayMethod skipCode s) (headed cf) =
        (.ok (), built) → built.Open) :
    ((∃ r, e = .read r) ∧ after.classFile.pool = cf.pool) ∨
      forM cf.methods.toList (cf.replayMethod skipCode s) (headed cf) = (.error e, after) := by
  have hopen : ((ofPool cf.pool).withHeaderOf cf).Open := ⟨rfl, rfl⟩
  unfold ClassFile.replay at h
  rw [hs.header, hs.field, hs.classAttribute, hs.finish] at h
  rcases bind_eq_error.mp h with hread | ⟨header, a₀, hread, h⟩
  · obtain ⟨r, -, rfl, rfl⟩ := reading_eq_error.mp hread
    exact .inl ⟨⟨r, rfl⟩, rfl⟩
  obtain ⟨hh, rfl⟩ := reading_eq_ok.mp hread
  rw [bind_of_ok (header_ofPool hfits hh)] at h
  rcases bind_eq_error.mp h with hfields | ⟨⟨⟩, a₂, hfields, h⟩
  · exact .inl (fields_eq_error hopen (GrowsInto.refl cf.pool) (fields_le hfits) hfields)
  obtain ⟨-, rfl⟩ := (fields_eq_ok hopen (GrowsInto.refl cf.pool) (fields_le hfits)).mp hfields
  rcases bind_eq_error.mp h with hfailed | ⟨⟨⟩, a₃, hdone, h⟩
  · exact .inr hfailed
  -- an open assembly takes the attributes and the end
  have ha := hmethods a₃ hdone
  rw [bind_of_ok (classAttributes_run ha)] at h
  cases (finish_run (by exact ha)).symm.trans h

end

end JvmStub
