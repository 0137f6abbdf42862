/-
`Stops.lean` -- where a run stops before its result is checked.

A class that is not stubbed stops at one place, and `StubStop` says what can stand
there: something of a method cannot be read, its stub is refused, the pool has no
room for the stub, or the method ends up with more attributes than can be counted.
It also says which pool the assembly is left with, because what was added before
the stop stays. `StubHalt` puts the methods that were stubbed before it in front.

Nothing else stops a run. Header, fields and attributes were read from a class file
and fit back into one, so of them only a name can be missing; and a sink that is
told a class file is never told anything out of order.
-/
import JvmStub.Proofs.Stub.Run

set_option autoImplicit false

namespace JvmStub

open ClassAssembly MethodAssembly ConstantPool

/-- A place in a method where its stubbing stops, with the error and the pool that is left. -/
inductive StubStop (exceptionClass : String) (cf : ClassFile) (pool : ConstantPool) (m : Member) :
    Error → ConstantPool → Prop
  | unread {e : ReadError}
      (hread : (m.parts cf.pool >>= cf.methodDecl m) = .error e) :
      StubStop exceptionClass cf pool m (.read e) pool
  | refused {parts : MethodParts} {decl : MethodDecl} {e : StubError}
      (hparts : parts.Describe cf.pool m.attributes.toList)
      (hdecl : cf.methodDecl m parts = .ok decl)
      (hstub : stubBody decl exceptionClass = .error e) :
      StubStop exceptionClass cf pool m (.stub e) pool
  | full {parts : MethodParts} {decl : MethodDecl} {stub : Option StubBody} {e : PoolError}
      {later : ConstantPool}
      (hparts : parts.Describe cf.pool m.attributes.toList)
      (hdecl : cf.methodDecl m parts = .ok decl)
      (hstub : stubBody decl exceptionClass = .ok stub)
      (hcode : stubRequest stub pool = (.error e, later)) :
      StubStop exceptionClass cf pool m (.write (.pool e)) later
  | crowded {parts : MethodParts} {decl : MethodDecl} {stub : Option StubBody}
      {code : List Attribute} {later : ConstantPool}
      (hparts : parts.Describe cf.pool m.attributes.toList)
      (hdecl : cf.methodDecl m parts = .ok decl)
      (hstub : stubBody decl exceptionClass = .ok stub)
      (hcode : stubRequest stub pool = (.ok code, later))
      (hcount : maxCount < (code ++ parts.leading cf.pool ++ parts.others.toList).length) :
      StubStop exceptionClass cf pool m
        (.write (.tooMany .methodAttributes
          (code ++ parts.leading cf.pool ++ parts.others.toList).length)) later

/-- A place in the methods of a class file where their stubbing stops: those before it have been
stubbed, and the pool has grown by what they asked for. -/
inductive StubHalt (exceptionClass : String) (cf : ClassFile) :
    ConstantPool → List Member → Error → ConstantPool → Prop
  | here {pool later : ConstantPool} {m : Member} {methods : List Member} {e : Error}
      (hstop : StubStop exceptionClass cf pool m e later) :
      StubHalt exceptionClass cf pool (m :: methods) e later
  | behind {pool mid later : ConstantPool} {m member : Member} {methods : List Member} {e : Error}
      (hstep : StubStep exceptionClass cf pool m mid member)
      (hrest : StubHalt exceptionClass cf mid methods e later) :
      StubHalt exceptionClass cf pool (m :: methods) e later

variable {exceptionClass : String} {cf : ClassFile} {a after : ClassAssembly} {m : Member}
  {parts : MethodParts} {decl : MethodDecl} {e : Error}

/-! ## One method -/

/-- Declaring a method to the stage is refused with its stub, or for want of room for its body. -/
theorem openStubbed_eq_error {method : MethodAssembly} (hbegin : begin decl a = (.ok method, a))
    (hopen : method.ended = false) (habsent : method.body = .absent)
    (h : ClassSink.openStubbed exceptionClass sink decl a = (.error e, after)) :
    (∃ refusal, stubBody decl exceptionClass = .error refusal ∧ e = .stub refusal ∧ after = a) ∨
    ∃ stub full pool, stubBody decl exceptionClass = .ok stub ∧
      bodyRequest stub a.classFile.pool = (.error full, pool) ∧ e = .write (.pool full) ∧
        after = a.withPool pool := by
  cases hstub : stubBody decl exceptionClass with
  | error refusal =>
    unfold ClassSink.openStubbed at h
    rw [hstub] at h
    cases h
    exact .inl ⟨refusal, rfl, rfl, rfl⟩
  | ok stub =>
    refine .inr ?_
    cases hbody : bodyRequest stub a.classFile.pool with
    | mk result pool =>
      cases result with
      | ok code =>
        -- with room for the body, the method is opened
        cases h.symm.trans ((openStubbed_eq_ok hbegin hopen habsent).mpr
          ⟨stub, code, pool, hstub, hbody, rfl, rfl⟩)
      | error full =>
        refine ⟨stub, full, pool, rfl, hbody, ?_⟩
        cases stub with
        | none => cases hbody
        | some body =>
          have hrequest : requestAll body.instructions a.classFile.pool = (.error full, pool) := by
            rcases bind_eq_error.mp hbody with hrequest | ⟨bytes, mid, -, hpure⟩
            · exact hrequest
            · cases hpure
          obtain ⟨m', hrun⟩ := body_of_error (plain_of_stubBody hstub) hopen habsent hrequest
          have hwithin : sink.within method (sink.sendMethodEvents body.events) a =
              (.error (.write (.pool full)), a.withPool pool) := within_eq_error.mpr ⟨m', hrun⟩
          unfold ClassSink.openStubbed at h
          rw [hstub] at h
          cases h.symm.trans ((bind_of_ok hbegin).trans (bind_of_error hwithin))
          exact ⟨rfl, rfl⟩

/-- What is inside a method is refused at its end, for want of room for the name of the body or
because the attributes are too many. -/
theorem replayParts_eq_error {code : Option Code} {replaced : Bool} {method : MethodAssembly}
    {state : StubbedMethod MethodAssembly × ClassAssembly} (hopen : method.ended = false)
    (hforwarded : method.forwarded = #[])
    (hbody : method.body = (code.map BodyState.complete).getD .absent)
    (h : ClassFile.replayParts true (sink.stubbing exceptionClass) parts (⟨replaced, method⟩, a) =
      (.error e, state)) :
    (∃ full pool, codeRequest code a.classFile.pool = (.error full, pool) ∧
      e = .write (.pool full) ∧ state.2 = a.withPool pool) ∨
    ∃ listed pool, codeRequest code a.classFile.pool = (.ok listed, pool) ∧
      maxCount < (listed.toArray ++ method.leading ++ parts.others).size ∧
        e = .write (.tooMany .methodAttributes
          (listed.toArray ++ method.leading ++ parts.others).size) ∧
          state.2 = a.withPool pool := by
  rw [replayParts_run hopen hforwarded] at h
  obtain ⟨m', hfinish⟩ := inStubbed_eq_error sink exceptionClass replaced (e := .finish) rfl h
  exact finish_eq_error (by exact hopen) (by exact hbody) hfinish

/-- Telling a method through the stage is refused at a stop, and the assembly is left with the pool
of that stop. -/
theorem replayMethod_eq_error (ha : a.Open) (hg : cf.pool.GrowsInto a.classFile.pool)
    (hcount : a.classFile.methods.size < maxCount)
    (h : cf.replayMethod true (sink.stubbing exceptionClass) m a = (.error e, after)) :
    StubStop exceptionClass cf a.classFile.pool m e after.classFile.pool := by
  obtain ⟨r, hread, rfl, rfl⟩ | ⟨parts, decl, hdescribe, hdecl, h⟩ := replayMethod_refused h
  · exact .unread hread
  have hbegin := begin_run hdescribe hdecl ha hg hcount
  obtain hopened | ⟨opened, mid, hopened, closed, hinside⟩ := h
  · -- the stub is refused, or its body does not fit
    obtain ⟨refusal, hstub, rfl, rfl⟩ | ⟨stub, full, pool, hstub, hbody, rfl, rfl⟩ :=
      openStubbed_eq_error hbegin rfl rfl hopened
    · exact .refused hdescribe hdecl hstub
    · exact .full hdescribe hdecl hstub (bind_of_error hbody)
  · -- the name of the body does not fit, or the attributes are too many
    obtain ⟨stub, code, pool, hstub, hbody, rfl, rfl⟩ :=
      (openStubbed_eq_ok hbegin rfl rfl).mp hopened
    obtain ⟨full, later, hrequest, rfl, hstate⟩ | ⟨listed, later, hrequest, hmany, rfl, hstate⟩ :=
      replayParts_eq_error rfl rfl rfl hinside
    · cases hstate
      exact .full hdescribe hdecl hstub ((bind_of_ok hbody).trans hrequest)
    · cases hstate
      rw [attributes_of_begun, List.size_toArray] at hmany ⊢
      exact .crowded hdescribe hdecl hstub ((bind_of_ok hbody).trans hrequest) hmany

/-! ## All methods -/

/-- A halt is at a stop, in a pool that has grown. -/
theorem StubHalt.exists_stop {pool later : ConstantPool} {methods : List Member}
    (h : StubHalt exceptionClass cf pool methods e later) :
    ∃ m ∈ methods, ∃ mid, pool.GrowsInto mid ∧ StubStop exceptionClass cf mid m e later := by
  induction h with
  | here hstop => exact ⟨_, List.mem_cons_self, _, GrowsInto.refl _, hstop⟩
  | behind hstep _ ih =>
    obtain ⟨m, hm, mid, hg, hstop⟩ := ih
    exact ⟨m, List.mem_cons_of_mem _ hm, mid, hstep.growsInto.trans hg, hstop⟩

/-- Telling the methods of a class file through the stage is refused at a halt. -/
theorem replayMethods_eq_error {methods : List Member} (ha : a.Open)
    (hg : cf.pool.GrowsInto a.classFile.pool)
    (hcount : a.classFile.methods.size + methods.length ≤ maxCount)
    (h : forM methods (cf.replayMethod true (sink.stubbing exceptionClass)) a =
      (.error e, after)) :
    StubHalt exceptionClass cf a.classFile.pool methods e after.classFile.pool := by
  induction methods generalizing a with
  | nil =>
    rw [List.forM_nil] at h
    cases h
  | cons m methods ih =>
    rw [List.length_cons] at hcount
    rw [List.forM_cons] at h
    rcases bind_eq_error.mp h with hfirst | ⟨⟨⟩, a', hfirst, hrest⟩
    · exact .here (replayMethod_eq_error ha hg (by omega) hfirst)
    · obtain ⟨mid, member, hstep, rfl⟩ := (replayMethod_eq_ok ha hg (by omega)).mp hfirst
      have hroom : ((a.withPool mid).withMethod member).classFile.methods.size +
          methods.length ≤ maxCount := by
        simp only [withMethod, withPool, Array.size_push]
        omega
      refine .behind hstep ?_
      exact ih (a := (a.withPool mid).withMethod member) ha (hg.trans hstep.growsInto) hroom hrest

/-! ## The class file -/

/-- A class file that fits is not stubbed because a name of its header or its fields cannot be
found, and then nothing has been added to its pool, or because stubbing halts at a method. -/
theorem assembleStub_eq_error (hfits : cf.Fits)
    (h : assembleStub exceptionClass cf = (.error e, after)) :
    ((∃ r, e = .read r) ∧ after.classFile.pool = cf.pool) ∨
      StubHalt exceptionClass cf cf.pool cf.methods.toList e after.classFile.pool := by
  have hplaces := methods_headed_le hfits
  obtain hread | hfailed := replay_eq_error_of (buildsClass_stubbing exceptionClass) hfits h
    fun built hbuilt => by
      obtain ⟨pool, members, -, rfl⟩ := (replayMethods_eq_ok (open_headed cf)
        (GrowsInto.refl cf.pool) hplaces).mp hbuilt
      exact ⟨rfl, rfl⟩
  · exact .inl hread
  · exact .inr (replayMethods_eq_error (open_headed cf) (GrowsInto.refl cf.pool) hplaces hfailed)

/-- The errors that a class file without a stub is refused with. -/
theorem stubbedClass_eq_error (hfits : cf.Fits) (h : stubbedClass exceptionClass cf = .error e) :
    (∃ r, e = .read r) ∨
      ∃ later, StubHalt exceptionClass cf cf.pool cf.methods.toList e later := by
  unfold stubbedClass at h
  cases hrun : assembleStub exceptionClass cf with
  | mk outcome assembly =>
    rw [hrun] at h
    rcases except_bind_eq_error.mp h with rfl | ⟨⟨⟩, rfl, hresult⟩
    · obtain ⟨hread, -⟩ | hhalt := assembleStub_eq_error hfits hrun
      · exact .inl hread
      · exact .inr ⟨_, hhalt⟩
    · -- an assembly that was told a whole class file has one to give back
      obtain ⟨-, pool, members, -, rfl⟩ := (replay_eq_ok hfits).mp hrun
      cases hresult

/-- Making a class file with stubs for bodies reports no fault. -/
theorem stubbedClass_ne_fault (hfits : cf.Fits) {fault : ClassFault} :
    stubbedClass exceptionClass cf ≠ .error (.check fault) := by
  intro h
  obtain ⟨r, hread⟩ | ⟨later, hhalt⟩ := stubbedClass_eq_error hfits h
  · cases hread
  · obtain ⟨m, -, mid, -, hstop⟩ := hhalt.exists_stop
    cases hstop

end JvmStub
