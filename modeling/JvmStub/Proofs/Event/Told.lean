/-
`Told.lean` -- what a class file is told as.

A replay is a flat sequence of events. `ToldClass` is what such a sequence says,
piece by piece: a header, fields, methods with their attributes and at most one
body each, and attributes. `ClassFile.Tells` relates a class file to what it says
once every slot has been resolved. The script of the class file is then that
sequence, and since the recorder refuses nothing, a replay to it gets to the end:
the main statement, `replay_recorder`, is that it records all pieces, each once and
in their order.
-/
import JvmStub.Proofs.Event.Script

set_option autoImplicit false

namespace JvmStub

/-- A method as it is told: its declaration, its attributes and its body, if it has one. -/
structure ToldMethod where
  decl : MethodDecl
  attributes : List Attribute
  code : Option Code

/-- A class as it is told. -/
structure ToldClass where
  header : ClassHeader
  fields : List FieldDecl
  methods : List ToldMethod
  attributes : List Attribute

/-- What is told between the declaration of a method and that of the next member. -/
def ToldMethod.inside (t : ToldMethod) : List MethodEvent :=
  t.attributes.map .attribute ++ t.code.toList.map .body ++ [.finish]

/-- The events that a method is told by. -/
def ToldMethod.events (t : ToldMethod) : List Event := .method t.decl :: t.inside.map .inMethod

/-- The events that a class is told by. -/
def ToldClass.events (t : ToldClass) : List Event :=
  .header t.header :: (t.fields.map .field ++ t.methods.flatMap ToldMethod.events ++
    t.attributes.map .attribute ++ [.finish])

/-- The method of a class file says this, once its attributes are told apart. -/
structure ClassFile.TellsMethod (cf : ClassFile) (m : Member) (t : ToldMethod)
    (parts : MethodParts) : Prop where
  apart : m.parts cf.pool = .ok parts
  decl : cf.methodDecl m parts = .ok t.decl
  attributes : parts.others.toList = t.attributes
  code : List.Forall₂ (fun a code => Code.decode a.info = .ok code) parts.code.toList t.code.toList

/-- The class file says this. -/
structure ClassFile.Tells (cf : ClassFile) (t : ToldClass) : Prop where
  header : cf.header = .ok t.header
  fields : List.Forall₂ (fun f d => cf.fieldDecl f = .ok d) cf.fields.toList t.fields
  methods : List.Forall₂ (fun m t => ∃ parts, cf.TellsMethod m t parts) cf.methods.toList t.methods
  attributes : cf.attributes.toList = t.attributes

variable {cf : ClassFile}

/-! ## The script of what is told -/

/-- A method with its body is told by the events of what it says. -/
theorem methodScript_of_tells {m : Member} {t : ToldMethod} {parts : MethodParts}
    (h : cf.TellsMethod m t parts) : cf.methodScript false m = t.events.map .ok := by
  have hdescribe : parts.Describe cf.pool m.attributes.toList := parts_eq_ok.mp h.apart
  have hothers : m.otherAttributes cf.pool = t.attributes := hdescribe.others.trans h.attributes
  have hcode : m.attributesNamed cf.pool .code = parts.code.toList := hdescribe.code
  have hbody : cf.bodyScript false m =
      t.code.toList.map fun code => .ok (.inMethod (.body code)) := by
    have hhead : parts.code.toList.head?.toList = parts.code.toList := by
      cases parts.code <;> rfl
    unfold ClassFile.bodyScript
    rw [if_neg Bool.false_ne_true, hcode, hhead]
    exact map_eq_of_forall₂ (fun a code hdecode => by rw [hdecode]; rfl) h.code
  have hdecl : cf.declaration m = .ok t.decl := by
    rw [ClassFile.declaration, h.apart]
    exact h.decl
  unfold ClassFile.methodScript ClassFile.insideScript
  rw [hdecl, hbody, hothers]
  simp [Except.map, ToldMethod.events, ToldMethod.inside, Function.comp_def]

/-- A class file with its bodies is told by the events of what it says. -/
theorem script_of_tells {t : ToldClass} (h : cf.Tells t) :
    cf.script false = t.events.map .ok := by
  have hfields : cf.fields.toList.map (fun f => (cf.fieldDecl f).map Event.field) =
      t.fields.map fun d => .ok (.field d) :=
    map_eq_of_forall₂ (fun f d hd => by rw [hd]; rfl) h.fields
  have hmethods : cf.methods.toList.map (cf.methodScript false) =
      t.methods.map fun t => t.events.map .ok :=
    map_eq_of_forall₂ (fun m t ⟨_, ht⟩ => methodScript_of_tells ht) h.methods
  unfold ClassFile.script
  rw [h.header, hfields, List.flatMap_def, hmethods, h.attributes]
  simp [Except.map, ToldClass.events, List.flatMap_def, List.map_flatten, Function.comp_def]

/-! ## Recording -/

/-- Replaying a class file with its bodies tells what it says, each piece once and in its place. -/
theorem replay_recorder (s : Array Event) {t : ToldClass} (h : cf.Tells t) :
    cf.replay false .recorder s = (.ok (), s ++ t.events) := by
  obtain ⟨seen, hlog, hperformed⟩ := performs_replay recorder_keeps cf false s
  rw [script_of_tells h] at hperformed
  cases hrun : cf.replay false .recorder s with
  | mk result s' =>
    rw [hrun] at hlog hperformed
    dsimp only at hlog hperformed
    obtain ⟨⟨u, rfl⟩, rfl⟩ | ⟨before, e, after, error, -, -, rfl⟩ := hperformed.of_events
    · have hevents : s'.toList = s.toList ++ t.events := by
        simpa [Transcript.ofAccepted, Function.comp_def] using congrArg (List.map Prod.fst) hlog
      exact congrArg (Prod.mk _) (Array.ext' (by simpa using hevents))
    · -- a refusal cannot stand in what the recorder keeps
      have hmem : (e, Except.error error) ∈ Transcript.ofAccepted s'.toList := by
        rw [hlog]
        simp
      cases forall_ofAccepted _ hmem

end JvmStub
