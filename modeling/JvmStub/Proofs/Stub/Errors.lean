/-
`Errors.lean` -- the errors that a run can report.

A run tells its class to an assembly, and an assembly refuses whatever is told to
it out of order or in parts that its tables cannot hold. A run never meets these
refusals: what it tells is in order, and what was read fits. So the errors of a
run are those of reading, stubbing and checking, and two refusals of the assembly.
One is that the pool is full. The other is that a method has one attribute more
than can be counted, which takes a method of 65535 attributes and no body that is
given one.
-/
import JvmStub.Proofs.Stub.Stops

set_option autoImplicit false

namespace JvmStub

/-- How many attributes a method has once it is stubbed: a body where it may have one, the
exceptions it declares if there are any, its signatures, and the attributes that are passed on. -/
def Member.stubbedCount (pool : ConstantPool) (m : Member) : Nat :=
  (!m.access.isBodiless).toNat +
    ((m.attributesNamed pool .exceptions).filter Attribute.listsExceptions).length +
      (m.attributesNamed pool .signature).length + (m.otherAttributes pool).length

variable {exceptionClass : String} {cf : ClassFile} {pool later : ConstantPool} {m : Member}
  {parts : MethodParts} {decl : MethodDecl} {stub : Option StubBody} {code : List Attribute}
  {e : Error}

/-! ## Counting attributes -/

/-- A stub adds one attribute at most to those that the method was read with. -/
theorem stubbedCount_le (pool : ConstantPool) (m : Member) :
    m.stubbedCount pool ≤ m.attributes.size + 1 := by
  have hkinds := length_eq_of_kinds pool m
  have hbody : (!m.access.isBodiless).toNat ≤ 1 := Bool.toNat_le _
  have hlisted := List.length_filter_le Attribute.listsExceptions
    (m.attributesNamed pool .exceptions)
  unfold Member.stubbedCount
  omega

/-- The attributes that a method comes to with its stub are that many. -/
theorem length_of_stub (hparts : parts.Describe cf.pool m.attributes.toList)
    (hdecl : cf.methodDecl m parts = .ok decl) (hstub : stubBody decl exceptionClass = .ok stub)
    (hcode : stubRequest stub pool = (.ok code, later)) :
    (code ++ parts.leading cf.pool ++ parts.others.toList).length = m.stubbedCount cf.pool := by
  have hlen := length_of_stubRequest hcode
  rw [isSome_of_methodDecl hdecl hstub] at hlen
  have hothers : parts.others.toList = m.otherAttributes cf.pool := hparts.others.symm
  rw [MethodParts.leading, hparts.exceptionsAttribute_eq, hparts.signatureAttribute_eq, hothers]
  simp only [List.length_append, List.length_map, hlen, Member.stubbedCount]
  omega

/-! ## One method -/

/-- The errors at a method, of which one says how many attributes it would have had. -/
theorem StubStop.error_cases (h : StubStop exceptionClass cf pool m e later) (hm : m.Fits) :
    (∃ r, e = .read r) ∨ (∃ refusal, e = .stub refusal) ∨ e = .write (.pool .outOfSpace) ∨
      e = .write (.tooMany .methodAttributes 65536) ∧ m.stubbedCount cf.pool = 65536 := by
  cases h with
  | unread hread => exact .inl ⟨_, rfl⟩
  | refused hparts hdecl hstub => exact .inr (.inl ⟨_, rfl⟩)
  | full hparts hdecl hstub hcode =>
    rw [(interns_stubRequest _).eq_outOfSpace hcode]
    exact .inr (.inr (.inl rfl))
  | crowded hparts hdecl hstub hcode hmany =>
    rw [length_of_stub hparts hdecl hstub hcode] at hmany ⊢
    -- there is one attribute more than were read, and as many were read as can be counted
    have hcount : m.stubbedCount cf.pool = 65536 := by
      have hle := stubbedCount_le cf.pool m
      have hfits := hm.1
      unfold maxCount at hmany
      omega
    rw [hcount]
    exact .inr (.inr (.inr ⟨rfl, rfl⟩))

/-! ## The whole way -/

/-- A run that gives no bytes could not read its class, could not stub a method, found a fault with
the stub it made, filled the pool, or came to a method with one attribute too many. -/
theorem errors_of_stubClass {config : Config} {bytes : Bytes}
    (h : stubClass config bytes = .error e) :
    (∃ r, e = .read r) ∨ (∃ refusal, e = .stub refusal) ∨ (∃ fault, e = .check fault) ∨
      e = .write (.pool .outOfSpace) ∨
        e = .write (.tooMany .methodAttributes 65536) ∧ ∃ original,
          ClassFile.decode bytes = .ok original ∧
            ∃ m ∈ original.methods.toList, m.stubbedCount original.pool = 65536 := by
  obtain ⟨r, -, rfl⟩ | ⟨original, hdecode, hchecked⟩ := stubClass_eq_error.mp h
  · exact .inl ⟨r, rfl⟩
  obtain hstubbed | ⟨stubbed, fault, -, -, -, rfl⟩ := checkedStub_eq_error.mp hchecked
  · have hfits := ClassFile.fits_of_decode hdecode
    obtain hread | ⟨later, hhalt⟩ := stubbedClass_eq_error hfits hstubbed
    · exact .inl hread
    obtain ⟨m, hm, mid, -, hstop⟩ := hhalt.exists_stop
    obtain hread | hrefused | hfull | ⟨hmany, hcount⟩ := hstop.error_cases (hfits.methods.2 m hm)
    · exact .inl hread
    · exact .inr (.inl hrefused)
    · exact .inr (.inr (.inr (.inl hfull)))
    · exact .inr (.inr (.inr (.inr ⟨hmany, original, hdecode, m, hm, hcount⟩)))
  · exact .inr (.inr (.inl ⟨fault, rfl⟩))

/-- The example class with a constructor that is static. -/
def staticConstructorClass : ClassFile := { exampleClass with methods := #[⟨0x0009, 3, 4, #[]⟩] }

theorem errors_of_stubClass_staticConstructor :
    let e := Error.stub (.staticConstructor "<init>" "()V")
    stubClass {} staticConstructorClass.encode = .error e ∧
      ((∃ r, e = .read r) ∨ (∃ refusal, e = .stub refusal) ∨ (∃ fault, e = .check fault) ∨
        e = .write (.pool .outOfSpace) ∨
          e = .write (.tooMany .methodAttributes 65536) ∧ ∃ original,
            ClassFile.decode staticConstructorClass.encode = .ok original ∧
              ∃ m ∈ original.methods.toList, m.stubbedCount original.pool = 65536) := by
  have hrun : stubClass {} staticConstructorClass.encode =
      .error (.stub (.staticConstructor "<init>" "()V")) := by decide +kernel
  exact ⟨hrun, errors_of_stubClass hrun⟩

end JvmStub
