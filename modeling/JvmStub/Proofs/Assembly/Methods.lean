/-
`Methods.lean` -- a method of a class file, told to an assembly.

The declaration of a method stands for up to two attributes: the list of declared
exceptions and the generic signature. An assembly writes them anew, under the
lowest slots of their names, and since their payloads are made of slots that the
declaration remembers, the payloads come out as they were. Nothing is added to
the pool for it: the names are there, or there would be nothing to write.
-/
import JvmStub.Proofs.Assembly.Bodies
import JvmStub.Proofs.Event.Parts

set_option autoImplicit false

namespace JvmStub

open ConstantPool

/-! ## The attributes that stand for a declaration -/

/-- The attribute under the lowest slot that holds the name. -/
def Attribute.under (pool : ConstantPool) (name : AttributeName) (a : Attribute) : Attribute :=
  { a with nameSlot := pool.textSlot name.text }

namespace MethodParts

/-- The attribute that lists the declared exceptions; there is none for an empty list. -/
def exceptionsAttribute (pool : ConstantPool) (parts : MethodParts) : List Attribute :=
  match parts.exceptions.getD [] with
  | [] => []
  | c :: classes =>
    [⟨pool.textSlot AttributeName.exceptions.text,
      encodeExceptions ((c :: classes).map (·.2)).toArray⟩]

/-- The attribute that holds the generic signature. -/
def signatureAttribute (pool : ConstantPool) (parts : MethodParts) : List Attribute :=
  parts.signature.toList.map fun s =>
    ⟨pool.textSlot AttributeName.signature.text, encodeSignature s.2⟩

/-- The attributes that an assembly writes for the declaration. -/
def leading (pool : ConstantPool) (parts : MethodParts) : List Attribute :=
  parts.exceptionsAttribute pool ++ parts.signatureAttribute pool

variable {pool : ConstantPool} {parts : MethodParts} {attributes : List Attribute}

/-- A method that lists exceptions has an attribute of that name. -/
theorem Describe.exceptions_named (h : parts.Describe pool attributes)
    {classes : List (String × Slot)} (hsome : parts.exceptions = some classes) :
    ∃ a ∈ attributes, a.isNamed pool .exceptions = true ∧ IsExceptions pool a classes := by
  have hlisted := h.exceptions
  rw [hsome, Option.toList_some] at hlisted
  obtain ⟨a, hfilter, hlist⟩ := eq_singleton_of_forall₂ hlisted
  obtain ⟨hmem, hnamed⟩ := List.mem_filter.mp (hfilter ▸ List.mem_singleton_self a)
  exact ⟨a, hmem, hnamed, hlist⟩

/-- A method that has a generic signature has an attribute of that name. -/
theorem Describe.signature_named (h : parts.Describe pool attributes) {s : String × Slot}
    (hsome : parts.signature = some s) :
    ∃ a ∈ attributes, a.isNamed pool .signature = true ∧ IsSignature pool a s := by
  have hsigned := h.signature
  rw [hsome, Option.toList_some] at hsigned
  obtain ⟨a, hfilter, hsignature⟩ := eq_singleton_of_forall₂ hsigned
  obtain ⟨hmem, hnamed⟩ := List.mem_filter.mp (hfilter ▸ List.mem_singleton_self a)
  exact ⟨a, hmem, hnamed, hsignature⟩

/-- The attribute written for declared exceptions is the one that listed them, under the lowest slot
of its name. One that lists none is not written. -/
theorem Describe.exceptionsAttribute_eq {m : Member} (h : parts.Describe pool m.attributes.toList) :
    parts.exceptionsAttribute pool =
      ((m.attributesNamed pool .exceptions).filter Attribute.listsExceptions).map
        (Attribute.under pool .exceptions) := by
  have hlisted : List.Forall₂ (IsExceptions pool) (m.attributesNamed pool .exceptions)
    parts.exceptions.toList := h.exceptions
  unfold MethodParts.exceptionsAttribute
  cases hclasses : parts.exceptions with
  | none =>
    rw [hclasses, Option.toList_none, List.forall₂_nil_right_iff] at hlisted
    rw [hlisted]
    rfl
  | some classes =>
    rw [hclasses, Option.toList_some] at hlisted
    obtain ⟨a, hnamed, hlen, hinfo, -⟩ := eq_singleton_of_forall₂ hlisted
    have hdecode := decodeExceptions_eq_ok.mpr ⟨by simpa using hlen, hinfo⟩
    have hlists : a.listsExceptions = !classes.isEmpty := by
      simp [Attribute.listsExceptions, hdecode]
    rw [hnamed]
    cases classes with
    | nil => simp [hlists]
    | cons c classes => simp [hlists, Attribute.under, hinfo]

/-- The attribute written for a generic signature is the one that held it, under the lowest slot of
its name. -/
theorem Describe.signatureAttribute_eq {m : Member} (h : parts.Describe pool m.attributes.toList) :
    parts.signatureAttribute pool =
      (m.attributesNamed pool .signature).map (Attribute.under pool .signature) := by
  have hsigned : List.Forall₂ (IsSignature pool) (m.attributesNamed pool .signature)
    parts.signature.toList := h.signature
  unfold MethodParts.signatureAttribute
  cases hsignature : parts.signature with
  | none =>
    rw [hsignature, Option.toList_none, List.forall₂_nil_right_iff] at hsigned
    rw [hsigned]
    rfl
  | some s =>
    rw [hsignature, Option.toList_some] at hsigned
    obtain ⟨a, hnamed, hinfo, -⟩ := eq_singleton_of_forall₂ hsigned
    rw [hnamed]
    simp [Attribute.under, hinfo]

end MethodParts

/-- What the end of a method asks of the pool for a body, and the attribute that it comes to. -/
def codeRequest : Option Code → PoolM (List Attribute)
  | none => return []
  | some code => return [⟨← PoolM.addUtf8 AttributeName.code.text, code.encode⟩]

/-! ## The declaration -/

namespace MethodAssembly

open ClassAssembly

variable {cf : ClassFile} {a : ClassAssembly} {m : Member} {parts : MethodParts}
  {decl : MethodDecl}

/-- The assembly of a method of a class file that has just been declared. -/
def begun (pool : ConstantPool) (m : Member) (parts : MethodParts) (name : String) :
    MethodAssembly where
  access := m.access
  name := name
  nameSlot := m.nameSlot
  descriptorSlot := m.descriptorSlot
  leading := (parts.leading pool).toArray
  forwarded := #[]
  body := .absent
  ended := false

/-- Declared exceptions that were read find all their slots again, and become the attribute that
stands for them. -/
theorem exceptionsAttribute_run (h : parts.Describe cf.pool m.attributes.toList)
    (hg : cf.pool.GrowsInto a.classFile.pool) :
    exceptionsAttribute ((parts.exceptions.getD []).map (·.2))
        ((parts.exceptions.getD []).map (·.1)) a =
      (.ok (parts.exceptionsAttribute cf.pool).toArray, a) := by
  cases hclasses : parts.exceptions.getD [] with
  | nil => simp [exceptionsAttribute, MethodParts.exceptionsAttribute, hclasses]
  | cons c classes =>
    have hsome : parts.exceptions = some (c :: classes) := by
      cases hparts : parts.exceptions with
      | none => simp [hparts] at hclasses
      | some listed =>
        rw [hparts, Option.getD_some] at hclasses
        rw [hclasses]
    -- the slots still hold the classes, and the name was there: nothing is added
    obtain ⟨attr, -, hnamed, -, -, hall⟩ := h.exceptions_named hsome
    have hslots : PoolM.classesAt ((c :: classes).map (·.2)) ((c :: classes).map (·.1))
        a.classFile.pool = (.ok ((c :: classes).map (·.2)).toArray, a.classFile.pool) := by
      refine PoolM.classesAt_of_classNames ?_
      rw [List.forall₂_map_left_iff, List.forall₂_map_right_iff, List.forall₂_same]
      exact fun entry hentry => hg.className (hall entry hentry)
    have hname := PoolM.addUtf8_of_utf8 hg (isNamed_iff.mp hnamed)
    unfold exceptionsAttribute
    simp only [List.map_cons, List.isEmpty_cons, Bool.false_eq_true, if_false]
    refine Eq.trans (growing_bind hslots rfl) (Eq.trans (growing_bind hname rfl) ?_)
    simp [MethodParts.exceptionsAttribute, hclasses]

theorem signatureAttribute_run (h : parts.Describe cf.pool m.attributes.toList)
    (hg : cf.pool.GrowsInto a.classFile.pool) :
    signatureAttribute (parts.signature.map (·.2)) (parts.signature.map (·.1)) a =
      (.ok (parts.signatureAttribute cf.pool).toArray, a) := by
  cases hsignature : parts.signature with
  | none => simp [signatureAttribute, MethodParts.signatureAttribute, hsignature]
  | some s =>
    obtain ⟨attr, -, hnamed, -, htext⟩ := h.signature_named hsignature
    have hslot := PoolM.utf8At_of_utf8 (hg.utf8 htext)
    have hname := PoolM.addUtf8_of_utf8 hg (isNamed_iff.mp hnamed)
    unfold signatureAttribute
    simp only [Option.map_some]
    refine Eq.trans (growing_bind hslot rfl) (Eq.trans (growing_bind hname rfl) ?_)
    simp [MethodParts.signatureAttribute, hsignature]

/-- Declaring a method of a class file adds no constant. -/
theorem begin_run (h : parts.Describe cf.pool m.attributes.toList)
    (hdecl : cf.methodDecl m parts = .ok decl) (ha : a.Open)
    (hg : cf.pool.GrowsInto a.classFile.pool) (hcount : a.classFile.methods.size < maxCount) :
    begin decl a = (.ok (begun cf.pool m parts decl.name), a) := by
  obtain ⟨hname, hdescriptor, heq⟩ := methodDecl_eq_ok.mp hdecl
  rw [heq]
  unfold begin
  rw [bind_of_ok (checkOpen_of_open ha _), bind_of_ok (get_run a),
    bind_of_ok (checkCount_of_le hcount _)]
  refine Eq.trans (growing_bind (PoolM.utf8At_of_utf8 (hg.utf8 hname)) rfl) ?_
  refine Eq.trans (growing_bind (PoolM.utf8At_of_utf8 (hg.utf8 hdescriptor)) rfl) ?_
  refine Eq.trans (bind_of_ok (exceptionsAttribute_run h hg)) ?_
  refine Eq.trans (bind_of_ok (signatureAttribute_run h hg)) ?_
  simp [begun, MethodParts.leading]

/-! ## The end -/

variable {c : ClassAssembly} {method : MethodAssembly} {after : MethodAssembly × ClassAssembly}

theorem receiveAttribute_run {attr : Attribute} (hopen : method.ended = false) :
    receive (.attribute attr) (method, c) =
      (.ok (), ({ method with forwarded := method.forwarded.push attr }, c)) := by
  change receiveAttribute attr (method, c) = _
  unfold receiveAttribute
  rw [bind_of_ok (checkOpen_run hopen _), update_run]

/-- A body that is complete, or none, makes the request for its attribute. -/
theorem codeAttribute_eq_ok {name : String} {code : Option Code} {attributes : Array Attribute}
    {body : BodyState} (hbody : body = (code.map BodyState.complete).getD .absent) :
    codeAttribute name body (method, c) = (.ok attributes, after) ↔ ∃ listed pool,
      codeRequest code c.classFile.pool = (.ok listed, pool) ∧ attributes = listed.toArray ∧
        after = (method, c.withPool pool) := by
  cases code with
  | none =>
    rw [hbody]
    constructor
    · intro h
      cases h
      exact ⟨[], c.classFile.pool, rfl, rfl, rfl⟩
    · rintro ⟨listed, pool, hrequest, rfl, rfl⟩
      cases hrequest
      rfl
  | some code =>
    rw [hbody]
    constructor
    · intro h
      obtain ⟨slot, mid, hslot, h⟩ := bind_eq_ok.mp h
      obtain ⟨pool, hrequest, rfl⟩ := growing_eq_ok.mp hslot
      cases h
      exact ⟨_, pool, bind_eq_ok.mpr ⟨slot, pool, hrequest, rfl⟩, rfl, rfl⟩
    · rintro ⟨listed, pool, hrequest, rfl, rfl⟩
      obtain ⟨slot, mid, hslot, h⟩ := bind_eq_ok.mp hrequest
      cases h
      exact bind_eq_ok.mpr ⟨slot, _, growing_eq_ok.mpr ⟨_, hslot, rfl⟩, rfl⟩

/-- Where the body cannot be put down, the pool has no room for the name of its attribute. -/
theorem codeAttribute_eq_error {name : String} {code : Option Code} {body : BodyState} {e : Error}
    (hbody : body = (code.map BodyState.complete).getD .absent)
    (h : codeAttribute name body (method, c) = (.error e, after)) :
    ∃ full pool, codeRequest code c.classFile.pool = (.error full, pool) ∧
      e = .write (.pool full) ∧ after = (method, c.withPool pool) := by
  cases hrequest : codeRequest code c.classFile.pool with
  | mk result pool =>
    cases result with
    | ok listed =>
      cases ((codeAttribute_eq_ok hbody).mpr ⟨listed, pool, hrequest, rfl, rfl⟩).symm.trans h
    | error full =>
      cases code with
      | none => cases hrequest
      | some code =>
        rw [hbody] at h
        rcases bind_eq_error.mp hrequest with hslot | ⟨slot, mid, -, hpure⟩
        · cases (bind_of_error (growing_of_error hslot)).symm.trans h
          exact ⟨full, pool, rfl, rfl, rfl⟩
        · cases hpure

/-- What the end of an open method does once the method counts as ended. -/
theorem finish_of_open (hopen : method.ended = false) :
    receive .finish (method, c) =
      (do
        let code ← codeAttribute method.name method.body
        let attributes := code ++ method.leading ++ method.forwarded
        checkCount .methodAttributes attributes.size
        let member : Member :=
          ⟨method.access, method.nameSlot, method.descriptorSlot, attributes⟩
        onClass (ClassAssembly.update fun cf => { cf with methods := cf.methods.push member }) :
          MethodM Unit) ({ method with ended := true }, c) := by
  change finish (method, c) = _
  unfold finish
  rw [bind_of_ok (checkOpen_run hopen _), bind_of_ok (get_run _)]
  dsimp only
  rw [bind_of_ok (update_run _)]

/-- The attributes of a method stand in a fixed order: its body, its declaration, the rest. -/
theorem finish_eq_ok {code : Option Code} (hopen : method.ended = false)
    (hbody : method.body = (code.map BodyState.complete).getD .absent) :
    receive .finish (method, c) = (.ok (), after) ↔ ∃ listed pool,
      codeRequest code c.classFile.pool = (.ok listed, pool) ∧
        (listed.toArray ++ method.leading ++ method.forwarded).size ≤ maxCount ∧
          after = ({ method with ended := true },
            (c.withPool pool).withMethod
              ⟨method.access, method.nameSlot, method.descriptorSlot,
                listed.toArray ++ method.leading ++ method.forwarded⟩) := by
  rw [finish_of_open hopen, bind_eq_ok]
  constructor
  · rintro ⟨attributes, mid, hcode, h⟩
    obtain ⟨listed, pool, hrequest, rfl, rfl⟩ := (codeAttribute_eq_ok hbody).mp hcode
    by_cases hcount : (listed.toArray ++ method.leading ++ method.forwarded).size ≤ maxCount
    · rw [bind_of_ok (checkCount_of_le hcount _)] at h
      cases h
      exact ⟨listed, pool, hrequest, hcount, rfl⟩
    · rw [bind_of_error (checkCount_of_lt (Nat.lt_of_not_le hcount) _)] at h
      cases h
  · rintro ⟨listed, pool, hrequest, hcount, rfl⟩
    refine ⟨listed.toArray, _,
      (codeAttribute_eq_ok hbody).mpr ⟨listed, pool, hrequest, rfl, rfl⟩, ?_⟩
    rw [bind_of_ok (checkCount_of_le hcount _)]
    rfl

/-- The end of an open method is refused where the pool is full or the attributes are too many; the
class has no method more then. -/
theorem finish_eq_error {code : Option Code} {e : Error} (hopen : method.ended = false)
    (hbody : method.body = (code.map BodyState.complete).getD .absent)
    (h : receive .finish (method, c) = (.error e, after)) :
    (∃ full pool, codeRequest code c.classFile.pool = (.error full, pool) ∧
      e = .write (.pool full) ∧ after.2 = c.withPool pool) ∨
    ∃ listed pool, codeRequest code c.classFile.pool = (.ok listed, pool) ∧
      maxCount < (listed.toArray ++ method.leading ++ method.forwarded).size ∧
        e = .write (.tooMany .methodAttributes
          (listed.toArray ++ method.leading ++ method.forwarded).size) ∧
          after.2 = c.withPool pool := by
  rw [finish_of_open hopen] at h
  rcases bind_eq_error.mp h with hcode | ⟨attributes, mid, hcode, h⟩
  · obtain ⟨full, pool, hrequest, he, rfl⟩ := codeAttribute_eq_error hbody hcode
    exact .inl ⟨full, pool, hrequest, he, rfl⟩
  · obtain ⟨listed, pool, hrequest, rfl, rfl⟩ := (codeAttribute_eq_ok hbody).mp hcode
    by_cases hcount : (listed.toArray ++ method.leading ++ method.forwarded).size ≤ maxCount
    · rw [bind_of_ok (checkCount_of_le hcount _)] at h
      cases h
    · have hmany := Nat.lt_of_not_le hcount
      rw [bind_of_error (checkCount_of_lt hmany _)] at h
      cases h
      exact .inr ⟨listed, pool, hrequest, hmany, rfl, rfl⟩

end MethodAssembly

end JvmStub
