/-
`Room.lean` -- classes that there is room to stub.

However many methods a class has, its stubs take six slots at most: five for the
class that constructors throw and for its own constructor, and one for the name
of the attribute that holds a body. So a class with so much room in its pool is
stubbed whatever class is to be thrown, if it can be stubbed at all.
-/
import JvmStub.Proofs.Stub.Additions

set_option autoImplicit false

namespace JvmStub

open ConstantPool

variable {exceptionClass : String} {cf stubbed : ClassFile} {pool : ConstantPool}
  {decl : MethodDecl} {stub : Option StubBody} {m member : Member} {methods members : List Member}
  {before after : ConstantPool}

/-- The stub of a method that is no constructor does not depend on the class that is thrown. -/
theorem stubBody_of_ne_constructor (h : stubBody decl exceptionClass = .ok stub)
    (hname : decl.access.isBodiless = false → decl.name ≠ constructorName) (other : String) :
    stubBody decl other = .ok stub := by
  cases hbodiless : decl.access.isBodiless with
  | true => rwa [stubBody_of_bodiless hbodiless] at h ⊢
  | false =>
    obtain ⟨descriptor, hparse, hcases⟩ := (stubBody_eq_ok hbodiless).mp h
    refine (stubBody_eq_ok hbodiless).mpr ⟨descriptor, hparse, ?_⟩
    rwa [if_neg (hname hbodiless)] at hcases ⊢

/-- Whether a method can be given a stub does not depend on it for any method. -/
theorem exists_stubBody (h : stubBody decl exceptionClass = .ok stub) (other : String) :
    ∃ stub', stubBody decl other = .ok stub' := by
  by_cases hconstructor : decl.access.isBodiless = false ∧ decl.name = constructorName
  · obtain ⟨hbodiless, hname⟩ := hconstructor
    obtain ⟨descriptor, hparse, hcases⟩ := (stubBody_eq_ok hbodiless).mp h
    rw [if_pos hname] at hcases
    obtain ⟨hvoid, hstatic, -⟩ := hcases
    refine ⟨some (.throwing other (descriptor.argumentSlotCount decl.access.isStatic)),
      (stubBody_eq_ok hbodiless).mpr ⟨descriptor, hparse, ?_⟩⟩
    rw [if_pos hname]
    exact ⟨hvoid, hstatic, rfl⟩
  · exact ⟨stub, stubBody_of_ne_constructor h (not_and.mp hconstructor) other⟩

/-- A method that can be stubbed can be stubbed otherwise, where there was room for all that stubs
need before any of it was added. -/
theorem StubStep.of_room (h : StubStep exceptionClass cf before m after member) (other : String)
    (hm : m ∈ cf.methods.toList) (hgains : Gains (StubConstant other cf) cf.pool pool)
    (hroom : cf.pool.size + 6 ≤ maxSize) : ∃ later member', StubStep other cf pool m later member' := by
  obtain ⟨hparts, hdecl, hstub, hcode, hcount⟩ := h
  obtain ⟨stub', hstub'⟩ := exists_stubBody hstub other
  have hasks := asks_stubRequest hm hdecl hstub' hgains.growsInto
  cases hrun : stubRequest stub' pool with
  | mk result later =>
    cases result with
    | error e =>
      have hlater := gains_of_stubRequest hm hdecl hstub' hrun hgains.growsInto
      have hfull : maxSize < cf.pool.size + 6 :=
        (hgains.trans (lasting_stubConstant other cf) hlater).lt_of_lacks
          (hasks.refused _ _ hrun) fun c hc => hc.mem_stubConstants
      omega
    | ok code' =>
      refine ⟨later, _, .intro hparts hdecl hstub' hrun ?_⟩
      -- the stub comes to as many attributes as the other one
      have hlen := length_of_stubRequest hcode
      have hlen' := length_of_stubRequest hrun
      rw [isSome_of_stubBody hstub] at hlen
      rw [isSome_of_stubBody hstub', ← hlen] at hlen'
      rw [List.length_append, List.length_append] at hcount ⊢
      rwa [hlen']

theorem StubRun.of_room (h : StubRun exceptionClass cf before methods after members)
    (other : String) (hmethods : ∀ m ∈ methods, m ∈ cf.methods.toList)
    (hgains : Gains (StubConstant other cf) cf.pool pool) (hroom : cf.pool.size + 6 ≤ maxSize) :
    ∃ later members', StubRun other cf pool methods later members' := by
  induction h generalizing pool with
  | nil => exact ⟨pool, [], .nil pool⟩
  | cons hstep _ ih =>
    obtain ⟨hm, hrest⟩ := List.forall_mem_cons.mp hmethods
    obtain ⟨mid, member, hstep'⟩ := hstep.of_room other hm hgains hroom
    have hmid := hgains.trans (lasting_stubConstant other cf) (hstep'.gains hm hgains.growsInto)
    obtain ⟨later, members, hrun⟩ := ih hrest hmid
    exact ⟨later, member :: members, .cons hstep' hrun⟩

/-- A class file that can be stubbed can be stubbed with any other class to throw, if there is room
for six more slots. -/
theorem stubbedClass_of_room (hfits : cf.Fits) (hroom : cf.pool.size + 6 ≤ maxSize)
    (h : stubbedClass exceptionClass cf = .ok stubbed) (other : String) :
    ∃ stubbed', stubbedClass other cf = .ok stubbed' := by
  obtain ⟨hresolves, last, members, hrun, -⟩ := (stubbedClass_eq_ok hfits).mp h
  obtain ⟨later, members', hrun'⟩ :=
    hrun.of_room other (fun _ hm => hm) (Gains.refl _ cf.pool) hroom
  exact ⟨_, (stubbedClass_eq_ok hfits).mpr ⟨hresolves, later, members', hrun', rfl⟩⟩

end JvmStub
