/-
`Tables.lean` -- tables behind two-byte counts.

An assembly counts what goes into a table of interfaces, of fields, of methods or
of a method's attributes, and refuses one entry too many. Five tables it takes as
they come: the attributes of the class and of a field, the declared exceptions of
a method, and the two tables inside a whole body. The main statement is that these
five are the only ones whose count can be wrong: after any events, whatever they
were answered, the bytes that come out are those of a file whose tables have the
entries that were accepted, and every count in it is the number of entries behind
it exactly when no table of the five that was accepted is too large. One that is
too large is written with all its entries behind a count that has been cut.
-/
import JvmStub.Proofs.Assembly.Written

set_option autoImplicit false

namespace JvmStub

open ConstantPool

variable {a : ClassAssembly}

/-- A new assembly holds what it has accepted, whatever the texts of the events were. -/
theorem holds_of_new {events : List ClassEvent} {answers : Array Answer}
    (hrun : ClassAssembly.sink.answers events .empty = (answers, a)) :
    Holds (fun _ => True) .empty a (taken events answers.toList) := by
  have hnone : ConstantPool.empty.Numbered := by simp [Numbered, ConstantPool.empty, size]
  exact holds_of_answers hnone (fun _ => trivial) (fun _ _ _ _ => trivial) hrun

/-- A class that was told event by event comes out as a file whose tables have the entries that were
accepted, and all its counts are right exactly when the tables that are not checked fit. -/
theorem counts_of_answers {events : List ClassEvent} {answers : Array Answer} {bytes : Bytes}
    (hrun : ClassAssembly.sink.answers events .empty = (answers, a))
    (hbytes : a.bytes = .ok bytes) :
    ∃ w : WrittenClass, bytes = w.bytes ∧ w.Shows a.classFile (taken events answers.toList) ∧
      Holds (fun _ => True) .empty a (taken events answers.toList) ∧
        (Honest w.tables ↔ (taken events answers.toList).UncheckedFit) := by
  have hholds := holds_of_new hrun
  obtain ⟨w, hencode, hshows, hhonest⟩ := hholds.written
  have hsame : bytes = a.classFile.encode := (bytes_eq_ok.mp hbytes).2
  exact ⟨w, hsame.trans hencode, hshows, hholds, hhonest⟩

/-! ## A class with entries in every table -/

/-- A body with a handler and an attribute, and what comes behind it in a method. -/
def tabledBody : List MethodEvent :=
  [.body ⟨1, 1, [177], #[⟨0, 1, 0, 0⟩], #[⟨1, [7]⟩]⟩, .attribute ⟨1, []⟩, .finish]

/-- A header with two interfaces, a field with an attribute, a method that declares an exception and
has a body with a handler and an attribute, an abstract method, and two attributes. -/
def tabledEvents : List ClassEvent :=
  [.header ⟨0, 52, 0x0421, "A", none, ["I", "J"], none⟩,
    .field ⟨2, "x", "I", #[⟨1, []⟩], none⟩,
    .method ⟨1, "run", "()V", none, ["E"], none⟩ tabledBody,
    .method ⟨0x0401, "stop", "()V", none, [], none⟩ [.finish],
    .attribute ⟨1, []⟩, .attribute ⟨3, [5]⟩]

/-- What an assembly makes of them. -/
def tabledRun : Array Answer × ClassAssembly := ClassAssembly.sink.answers tabledEvents .empty

/-- The bytes that come out. -/
def tabledBytes : Bytes :=
  [0xCA, 0xFE, 0xBA, 0xBE, 0, 0, 0, 52] ++ tabledRun.2.classFile.pool.encode ++
    [0x04, 0x21, 0, 2, 0, 0] ++
    -- two interfaces
    [0, 2, 0, 4, 0, 6] ++
    -- a field with an attribute
    [0, 1, 0, 2, 0, 7, 0, 3, 0, 1] ++ [0, 1, 0, 0, 0, 0] ++
    -- two methods, the first with three attributes
    [0, 2, 0, 1, 0, 8, 0, 9, 0, 3] ++
    -- its body, with a handler and an attribute
    [0, 13, 0, 0, 0, 28, 0, 1, 0, 1, 0, 0, 0, 1, 177] ++ [0, 1, 0, 0, 0, 1, 0, 0, 0, 0] ++
    [0, 1, 0, 1, 0, 0, 0, 1, 7] ++
    -- an exception that it declares, and the attribute that it was sent
    [0, 12, 0, 0, 0, 4, 0, 1, 0, 11] ++ [0, 1, 0, 0, 0, 0] ++
    -- the second, without attributes
    [4, 1, 0, 14, 0, 9, 0, 0] ++
    -- two attributes of the class
    [0, 2, 0, 1, 0, 0, 0, 0, 0, 3, 0, 0, 0, 1, 5]

/-- These events come out as these bytes, and the counts in them are right. -/
theorem counts_of_answers_tabled : tabledRun.2.bytes = .ok tabledBytes ∧
    ∃ w : WrittenClass, tabledBytes = w.bytes ∧
      w.Shows tabledRun.2.classFile (taken tabledEvents tabledRun.1.toList) ∧
      Holds (fun _ => True) .empty tabledRun.2 (taken tabledEvents tabledRun.1.toList) ∧
        (Honest w.tables ↔ (taken tabledEvents tabledRun.1.toList).UncheckedFit) ∧
          Honest w.tables := by
  have hbytes : tabledRun.2.bytes = .ok tabledBytes := by decide +kernel
  have hrun : ClassAssembly.sink.answers tabledEvents .empty = (tabledRun.1, tabledRun.2) := rfl
  obtain ⟨w, hw, hshows, hholds, hhonest⟩ := counts_of_answers hrun hbytes
  refine ⟨hbytes, w, hw, hshows, hholds, hhonest, hhonest.mpr ⟨?_, ?_, ?_⟩⟩
  · decide +kernel
  · decide +kernel
  · have hmethods : (taken tabledEvents tabledRun.1.toList).methods =
        [⟨⟨1, "run", "()V", none, ["E"], none⟩, tabledBody, tabledBody⟩,
          ⟨⟨0x0401, "stop", "()V", none, [], none⟩, [.finish], [.finish]⟩] := by
      decide +kernel
    rw [hmethods]
    have hbody : ∀ code, .body code ∈ tabledBody →
        code = ⟨1, 1, [177], #[⟨0, 1, 0, 0⟩], #[⟨1, [7]⟩]⟩ := by
      simp [tabledBody]
    refine List.forall_mem_cons.mpr ⟨⟨by decide, ?_, ?_⟩,
      List.forall_mem_singleton.mpr ⟨by decide, by simp, by simp⟩⟩
    · intro code hcode
      rw [hbody code hcode]
      decide
    · intro code hcode
      rw [hbody code hcode]
      decide

/-! ## A class with too many attributes -/

/-- A header that names nothing but its class. -/
def plainHeader : ClassHeader where
  minor := 0
  major := 52
  access := 0
  name := "A"
  superName := none
  interfaces := []
  slots := none

/-- The assembly of a class that has been told nothing but this header. -/
def plainAssembly : ClassAssembly where
  classFile := { ClassFile.empty with pool := ⟨#[.utf8 "A", .classRef 1]⟩, thisClass := 2 }
  headerSeen := true
  ended := false

/-- The header is accepted, and brings two constants. -/
theorem answers_plainHeader : ClassAssembly.sink.answers [.header plainHeader] .empty =
    (#[.piece (.ok ())], plainAssembly) := by
  have hheader : @Eq (Except Error Unit × ClassAssembly)
      (ClassAssembly.header plainHeader .empty) (.ok (), plainAssembly) := by decide +kernel
  simp only [ClassSink.answers, List.foldl_cons, List.foldl_nil, ClassSink.answer,
    ClassAssembly.sink, hheader]
  rfl

/-- An attribute is accepted without being counted. -/
theorem answer_attribute (ha : a.Open) (attr : Attribute) :
    ClassAssembly.sink.answer (.attribute attr) a =
      (.piece (.ok ()), a.withAttributes #[attr]) := by
  simp only [ClassSink.answer, ClassAssembly.sink, ClassAssembly.classAttribute_run ha]

/-- Any attributes are accepted and all are kept, however many they are. -/
theorem answers_attributes (attributes : List Attribute) : ∃ answers,
    ClassAssembly.sink.answers (.header plainHeader :: attributes.map .attribute) .empty =
      (answers, plainAssembly.withAttributes attributes.toArray) ∧
    ∀ x ∈ answers.toList, x = .piece (.ok ()) := by
  induction attributes using List.reverseRecOn with
  | nil => exact ⟨_, answers_plainHeader, by simp⟩
  | append_singleton attributes attr ih =>
    obtain ⟨answers, hrun, hall⟩ := ih
    have hanswer := answer_attribute (a := plainAssembly.withAttributes attributes.toArray)
      ⟨rfl, rfl⟩ attr
    refine ⟨answers.push (.piece (.ok ())), ?_, ?_⟩
    · rw [List.map_append, ← List.cons_append]
      have hrun' := answers_snoc hrun hanswer
      simpa [ClassAssembly.withAttributes] using hrun'
    · simpa [or_imp, forall_and] using hall

/-- The bytes of the header. -/
def plainFront : Bytes :=
  [0xCA, 0xFE, 0xBA, 0xBE, 0, 0, 0, 52, 0, 3, 1, 0, 1, 65, 7, 0, 1, 0, 0, 0, 2, 0, 0]

/-- The bytes up to the superclass, field by field. -/
theorem plainFront_eq : plainFront = Bytes.u4 classMagic ++ (Bytes.u2 0 ++ (Bytes.u2 52 ++
    (ConstantPool.encode ⟨#[.utf8 "A", .classRef 1]⟩ ++ (Bytes.u2 0 ++ (Bytes.u2 2 ++
      Bytes.u2 0))))) := by
  decide +kernel

/-- The file that comes of the header with some attributes behind it. -/
def plainFile (attributes : List Attribute) : WrittenClass where
  front := plainFront
  interfaces := ⟨0, []⟩
  fields := ⟨0, []⟩
  methods := ⟨0, []⟩
  attributes := .of (attributes.map Attribute.written)

/-- The class comes out as this file, however many attributes it has. -/
theorem bytes_plainFile (attributes : List Attribute) :
    (plainAssembly.withAttributes attributes.toArray).bytes = .ok (plainFile attributes).bytes := by
  have hattributes : attributes.toArray.toList =
      (attributes.map Attribute.written).map WrittenAttribute.flat := by
    rw [map_flat_map_written]
  refine bytes_eq_ok.mpr ⟨rfl, ?_⟩
  rw [WrittenClass.bytes, plainFile, plainFront_eq, ClassFile.encode]
  simp only [ClassAssembly.withAttributes, plainAssembly, ClassFile.empty, Array.empty_append,
    List.append_assoc, encodeAttributes_eq_written hattributes]
  rfl

/-- The tables of that file have what was told. -/
theorem shows_plainFile {attributes : List Attribute} {answers : Array Answer}
    (hrun : ClassAssembly.sink.answers (.header plainHeader :: attributes.map .attribute) .empty =
      (answers, plainAssembly.withAttributes attributes.toArray)) :
    (plainFile attributes).Shows (plainAssembly.withAttributes attributes.toArray).classFile
      (taken (.header plainHeader :: attributes.map .attribute) answers.toList) := by
  have hholds := holds_of_new hrun
  constructor
  · exact plainFront_eq
  · rfl
  · rw [List.forall₂_nil_left_iff.mp hholds.fields]
    exact .nil
  · rw [List.forall₂_nil_left_iff.mp hholds.methods]
    exact .nil
  · rw [← hholds.attributes]
    simp [plainFile, WrittenTable.of, ClassAssembly.withAttributes, plainAssembly, ClassFile.empty]

/-- A class with one attribute more than can be counted: none is refused, all are written, and the
count in front of them is zero. -/
theorem not_counts_of_replicate : ∃ answers a bytes, ∃ w : WrittenClass,
    ClassAssembly.sink.answers
        (.header plainHeader :: (List.replicate 65536 ⟨1, []⟩).map .attribute) .empty =
      (answers, a) ∧ (∀ x ∈ answers.toList, x = .piece (.ok ())) ∧ a.bytes = .ok bytes ∧
      bytes = w.bytes ∧
      w.Shows a.classFile (taken
        (.header plainHeader :: (List.replicate 65536 ⟨1, []⟩).map .attribute) answers.toList) ∧
      w.attributes = ⟨0, List.replicate 65536 ⟨1, .raw []⟩⟩ ∧ ¬ Honest w.tables := by
  obtain ⟨answers, hrun, hall⟩ := answers_attributes (List.replicate 65536 ⟨1, []⟩)
  have hcut : ∀ n, WrittenTable.of ((List.replicate n (⟨1, []⟩ : Attribute)).map Attribute.written) =
      ⟨UInt16.ofNat n, List.replicate n ⟨1, .raw []⟩⟩ := by
    intro n
    rw [List.map_replicate, WrittenTable.of, List.length_replicate]
    rfl
  refine ⟨answers, _, _, plainFile _, hrun, hall, bytes_plainFile _, rfl, shows_plainFile hrun,
    hcut 65536, fun hhonest => ?_⟩
  have hcount := hhonest _ (List.mem_append_right _ List.mem_cons_self)
  rw [plainFile, hcut, WrittenTable.sizes, List.length_replicate] at hcount
  cases hcount

end JvmStub
