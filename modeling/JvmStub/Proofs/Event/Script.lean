/-
`Script.lean` -- what a replay sends, and where it stops.

A class file fixes what a replay of it sends, piece by piece, before any sink is known:
the header, the fields, for each method its declaration, its other attributes, its body
and its end, then the attributes of the class, and the end. Where a slot leads nowhere or
a body cannot be read, there is an error in the place of the event.

That a replay goes through this script is proved for every sink that keeps a transcript.
A sink that does not is observed, which it does not notice; so `script_of_replay` speaks
of any sink, and of the transcript that stands beside it.
-/
import JvmStub.Proofs.Assembly.Pieces
import JvmStub.Proofs.Event.Parts
import JvmStub.Proofs.Event.Performed

set_option autoImplicit false

namespace JvmStub

/-! ## The script of a class file -/

namespace ClassFile

/-- The declaration of a method, once its attributes are told apart. -/
def declaration (cf : ClassFile) (m : Member) : Except ReadError MethodDecl := do
  cf.methodDecl m (← m.parts cf.pool)

/-- The body of a method that has one, unless bodies are left out. -/
def bodyScript (cf : ClassFile) (skipCode : Bool) (m : Member) : Script :=
  if skipCode then []
  else (m.attributesNamed cf.pool .code).head?.toList.map fun a =>
    (Code.decode a.info).map fun code => .inMethod (.body code)

/-- What is inside a method: the attributes that are sent as such, its body, and its end. -/
def insideScript (cf : ClassFile) (skipCode : Bool) (m : Member) : Script :=
  (m.otherAttributes cf.pool).map (fun a => .ok (.inMethod (.attribute a))) ++
    cf.bodyScript skipCode m ++ [.ok (.inMethod .finish)]

/-- A method: its declaration and what is inside. -/
def methodScript (cf : ClassFile) (skipCode : Bool) (m : Member) : Script :=
  (cf.declaration m).map .method :: cf.insideScript skipCode m

/-- All that a replay sends, with the bodies of methods or without. A field goes out in one event,
with its name and descriptor as texts, its access flags and all its attributes; a method goes out
in several. -/
def script (cf : ClassFile) (skipCode : Bool) : Script :=
  cf.header.map .header ::
    (cf.fields.toList.map (fun f => (cf.fieldDecl f).map .field) ++
      cf.methods.toList.flatMap (cf.methodScript skipCode) ++
        cf.attributes.toList.map (fun a => .ok (.attribute a)) ++ [.ok .finish])

end ClassFile

/-! ## Replays go through it -/

section

variable {τ : Type} {sink : ClassSink τ} {log : τ → Transcript} {cf : ClassFile}
  {parts : MethodParts} {skipCode : Bool}

/-- What is inside a method, once its attributes are told apart. -/
theorem performs_replayParts {m : Member} (h : sink.Keeps log)
    (hparts : parts.Describe cf.pool m.attributes.toList) :
    Performs (fun p => log p.2) (cf.insideScript skipCode m)
      (ClassFile.replayParts skipCode sink parts) := by
  have hothers : Performs (fun p => log p.2)
      ((m.otherAttributes cf.pool).map fun a => .ok (.inMethod (.attribute a)))
      (forM parts.others.toList fun a => sink.inMethod (.attribute a)) := by
    rw [Member.otherAttributes, hparts.others, List.map_eq_flatMap]
    exact Performs.forM (fun a => h.inMethod (.attribute a)) _
  have hcode : m.attributesNamed cf.pool .code = parts.code.toList := hparts.code
  unfold ClassFile.insideScript ClassFile.bodyScript
  rw [List.append_assoc, hcode]
  cases skipCode with
  | true =>
    rw [replayParts_skipping]
    exact hothers.bind fun _ => h.inMethod .finish
  | false =>
    cases hattr : parts.code with
    | none =>
      rw [replayParts_of_code_eq_none hattr, replayParts_skipping]
      exact hothers.bind fun _ => h.inMethod .finish
    | some a =>
      rw [replayParts_of_code hattr]
      refine hothers.bind fun _ => ?_
      exact Performs.reading fun code =>
        (h.inMethod (.body code)).bind fun _ => h.inMethod .finish

/-- Telling a method goes through its script. -/
theorem performs_replayMethod (h : sink.Keeps log) (m : Member) :
    Performs log (cf.methodScript skipCode m) (cf.replayMethod skipCode sink m) := by
  unfold ClassFile.replayMethod ClassFile.methodScript ClassFile.declaration
  cases hparts : m.parts cf.pool with
  | error r => exact performs_unread r _ _
  | ok parts =>
    rw [reading_of_ok rfl, pure_bind]
    refine Performs.reading fun decl => ?_
    have hinside : Performs (fun p => log p.2) (cf.insideScript skipCode m)
        (ClassFile.replayParts skipCode sink parts) :=
      performs_replayParts h (parts_eq_ok.mp hparts)
    have hrest : ∀ opened, Performs log (cf.insideScript skipCode m)
        (sink.within opened (ClassFile.replayParts skipCode sink parts) >>= fun _ => pure ()) :=
      fun opened => by
        simpa only [List.append_nil] using (hinside.within opened).bind fun _ => Performs.pure ()
    exact (h.method decl).bind hrest

/-- A replay goes through the script of the class file. -/
theorem performs_replay (h : sink.Keeps log) (cf : ClassFile) (skipCode : Bool) :
    Performs log (cf.script skipCode) (cf.replay skipCode sink) := by
  have hfields : Performs log (cf.fields.toList.map fun f => (cf.fieldDecl f).map .field)
      (forM cf.fields.toList fun f => do sink.field (← reading (cf.fieldDecl f))) := by
    rw [List.map_eq_flatMap]
    exact Performs.forM (fun f => Performs.reading fun d => h.field d) _
  have hmethods : Performs log (cf.methods.toList.flatMap (cf.methodScript skipCode))
      (forM cf.methods.toList (cf.replayMethod skipCode sink)) :=
    Performs.forM (performs_replayMethod h) _
  have hattributes : Performs log (cf.attributes.toList.map fun a => .ok (.attribute a))
      (forM cf.attributes.toList sink.classAttribute) := by
    rw [List.map_eq_flatMap]
    exact Performs.forM h.classAttribute _
  unfold ClassFile.replay ClassFile.script
  refine Performs.reading fun hd => ?_
  rw [List.append_assoc, List.append_assoc]
  exact (h.header hd).bind fun _ => hfields.bind fun _ => hmethods.bind fun _ =>
    hattributes.bind fun _ => h.finish

end

/-! ## The sink itself

The transcript makes no difference to a replay. -/

section

variable {σ τ : Type} {sink : ClassSink σ} {other : ClassSink τ} {S : σ → τ → Prop}
  {R : sink.Method → other.Method → Prop}

/-- Reading a part of the class file does not depend on the sink. -/
theorem Alike.reading {α : Type} (found : Except ReadError α) :
    Alike Eq S (JvmStub.reading found) (JvmStub.reading found) := by
  intro s t hs
  cases found with
  | ok a => exact .ok rfl hs
  | error r => exact .error (.read r) hs

/-- Sinks that go alike are told the parts of a method alike. -/
theorem Simulates.replayParts (h : Simulates sink other S R) (skipCode : Bool)
    (parts : MethodParts) :
    Alike Eq (fun p q => R p.1 q.1 ∧ S p.2 q.2) (ClassFile.replayParts skipCode sink parts)
      (ClassFile.replayParts skipCode other parts) := by
  have hothers := Alike.forM (fun a => h.inMethod (.attribute a)) parts.others.toList
  have hskipped : Alike Eq (fun p q => R p.1 q.1 ∧ S p.2 q.2)
      (ClassFile.replayParts true sink parts) (ClassFile.replayParts true other parts) := by
    rw [replayParts_skipping, replayParts_skipping]
    exact hothers.bind fun _ _ _ => h.inMethod .finish
  cases skipCode with
  | true => exact hskipped
  | false =>
    cases hattr : parts.code with
    | none => rwa [replayParts_of_code_eq_none hattr false, replayParts_of_code_eq_none hattr false]
    | some a =>
      rw [replayParts_of_code hattr, replayParts_of_code hattr]
      refine hothers.bind fun _ _ _ => (Alike.reading _).bind ?_
      rintro code _ rfl
      exact (h.inMethod (.body code)).bind fun _ _ _ => h.inMethod .finish

/-- Sinks that go alike are told a method alike. -/
theorem Simulates.replayMethod (h : Simulates sink other S R) (cf : ClassFile) (skipCode : Bool)
    (m : Member) :
    Alike Eq S (cf.replayMethod skipCode sink m) (cf.replayMethod skipCode other m) := by
  unfold ClassFile.replayMethod
  refine (Alike.reading _).bind ?_
  rintro parts _ rfl
  refine (Alike.reading _).bind ?_
  rintro decl _ rfl
  refine (h.method decl).bind fun opened opened' hopened => ?_
  exact (Simulates.within hopened (h.replayParts skipCode parts)).bind fun _ _ _ => Alike.pure rfl

/-- A class file is told alike to sinks that answer alike. -/
theorem Simulates.replay (h : Simulates sink other S R) (cf : ClassFile) (skipCode : Bool) :
    Alike Eq S (cf.replay skipCode sink) (cf.replay skipCode other) := by
  have hfields : Alike Eq S
      (forM cf.fields.toList fun f => do sink.field (← JvmStub.reading (cf.fieldDecl f)))
      (forM cf.fields.toList fun f => do other.field (← JvmStub.reading (cf.fieldDecl f))) := by
    refine Alike.forM (fun f => (Alike.reading _).bind ?_) _
    rintro d _ rfl
    exact h.field d
  have hmethods := Alike.forM (h.replayMethod cf skipCode) cf.methods.toList
  have hattributes := Alike.forM h.classAttribute cf.attributes.toList
  unfold ClassFile.replay
  refine (Alike.reading _).bind ?_
  rintro hd _ rfl
  exact (h.header hd).bind fun _ _ _ => hfields.bind fun _ _ _ => hmethods.bind fun _ _ _ =>
    hattributes.bind fun _ _ _ => h.finish

end

/-- A replay sends a beginning of the script, in its order. It succeeds exactly when it has sent all
of it and all was accepted. Where an event is refused, it was the last one sent, and its refusal is
the outcome; where none is, the replay stops only at what cannot be read. -/
theorem script_of_replay {σ : Type} (cf : ClassFile) (skipCode : Bool) (sink : ClassSink σ)
    (s : σ) :
    ∃ outcome seen s', cf.replay skipCode sink s = (outcome, s') ∧
      cf.replay skipCode sink.observed ([], s) = (outcome, (seen, s')) ∧
      seen.sent <+: cf.script skipCode ∧
      (outcome = .ok () ↔ seen.sent = cf.script skipCode ∧ ∀ p ∈ seen, p.2 = .ok ()) ∧
      (∀ k e error, seen[k]? = some (e, .error error) →
        seen.length = k + 1 ∧ outcome = .error error) ∧
      ∀ error, outcome = .error error → (∀ p ∈ seen, p.2 = .ok ()) →
        ∃ r, error = .read r ∧ (cf.script skipCode)[seen.length]? = some (.error r) := by
  obtain ⟨houtcome, hstate⟩ :=
    Simulates.piece ((observed_simulates sink).replay cf skipCode) (show ([], s).2 = s from rfl)
  obtain ⟨seen, hseen, hperformed⟩ := performs_replay (observed_keeps sink) cf skipCode ([], s)
  rw [houtcome] at hperformed
  exact ⟨(cf.replay skipCode sink s).1, seen, (cf.replay skipCode sink s).2, rfl,
    Prod.ext houtcome (Prod.ext hseen hstate), hperformed.sent_prefix, hperformed.eq_ok_iff,
    fun k e error hk => hperformed.of_refused hk,
    fun error herror hall => hperformed.of_accepted herror hall⟩

/-- A class with a field and two methods, the second of which has a body. -/
def counterClass : ClassFile where
  magic := classMagic
  minor := 0
  major := 52
  pool :=
    ⟨#[.utf8 "Counter", .classRef 1, .utf8 "n", .utf8 "I", .utf8 "next", .utf8 "()I", .utf8 "reset",
      .utf8 "()V", .utf8 "Code", .utf8 "Deprecated"]⟩
  access := 0x0421
  thisClass := 2
  superClass := 0
  interfaces := #[]
  fields := #[⟨0x0002, 3, 4, #[⟨10, []⟩]⟩]
  methods :=
    #[⟨0x0401, 5, 6, #[⟨10, []⟩]⟩,
      ⟨0x0009, 7, 8, #[⟨9, Code.encode ⟨0, 0, [Opcode.vreturn.code], #[], #[]⟩⟩]⟩]
  attributes := #[⟨10, []⟩]

/-- Its replay, to a sink that accepts everything. -/
example : (counterClass.replay false ClassSink.recorder #[]).2 =
    #[.header ⟨0, 52, 0x0421, "Counter", none, [], some ⟨2, 0, []⟩⟩,
      .field ⟨0x0002, "n", "I", #[⟨10, []⟩], some ⟨3, 4, none, []⟩⟩,
      .method ⟨0x0401, "next", "()I", none, [], some ⟨5, 6, none, []⟩⟩,
      .inMethod (.attribute ⟨10, []⟩), .inMethod .finish,
      .method ⟨0x0009, "reset", "()V", none, [], some ⟨7, 8, none, []⟩⟩,
      .inMethod (.body ⟨0, 0, [Opcode.vreturn.code], #[], #[]⟩), .inMethod .finish,
      .attribute ⟨10, []⟩, .finish] := by
  decide +kernel

end JvmStub
