/-
`Spelling.lean` -- descriptors and the types that they spell.

Each type has one spelling, and reading is the inverse of spelling: a descriptor is read
as a type exactly when the type is well formed and the descriptor is its spelling. Well
formed is said of types and not of texts: a type has at most 255 array levels, and the
name of a class holds no character of the notation and no empty segment. So the readers
refuse every descriptor that is no spelling, and also spellings of types that no class
file may use.

Each reader gives back the characters behind what it has read, and what is said of it
leaves these open: the characters are the spelling of a well-formed value with the rest
behind it, whatever the rest is. This is what makes the readers compose. It holds because
no spelling is the beginning of another one.
-/
import JvmStub.Descriptor.Parser
import JvmStub.Proofs.Steps
import Mathlib.Data.List.Infix
import Mathlib.Data.List.TakeWhile

set_option autoImplicit false

namespace JvmStub

/-! ## Well-formed types -/

/-- A name that an object type may carry: it has no character of another notation, and none of
its segments between slashes is empty. -/
structure WellFormedName (name : String) : Prop where
  nonempty : name ≠ ""
  plain : ∀ c ∈ name.toList, c ≠ '.' ∧ c ≠ ';' ∧ c ≠ '[' ∧ c ≠ '(' ∧ c ≠ ')'
  not_starts : ¬ ['/'] <+: name.toList
  not_ends : ¬ ['/'] <:+ name.toList
  not_double : ¬ ['/', '/'] <:+: name.toList

/-- Only the name of a class can be wrong with a base type. -/
def BaseType.WellFormed : BaseType → Prop
  | .object name => WellFormedName name
  | _ => True

/-- A type of values with as many array levels as there may be. -/
structure FieldType.WellFormed (type : FieldType) : Prop where
  dimensions : type.dimensions ≤ 255
  base : type.base.WellFormed

/-- Nothing can be wrong with no result. -/
def ReturnType.WellFormed : ReturnType → Prop
  | .void => True
  | .value type => type.WellFormed

/-- The types of the parameters and that of the result are well formed. -/
structure MethodDescriptor.WellFormed (descriptor : MethodDescriptor) : Prop where
  parameters : ∀ type ∈ descriptor.parameters, type.WellFormed
  result : descriptor.result.WellFormed

/-! ## Names -/

/-- Two slashes in a row are found wherever they stand. -/
theorem hasDoubleSlash_iff {cs : List Char} : hasDoubleSlash cs = true ↔ ['/', '/'] <:+: cs := by
  induction cs using hasDoubleSlash.induct with
  | case1 => simp [hasDoubleSlash]
  | case2 rest => simp [hasDoubleSlash, List.infix_cons_iff]
  | case3 c rest hne ih =>
    have hfirst : ¬ ['/', '/'] <+: c :: rest := by
      rintro ⟨tail, heq⟩
      cases heq
      exact hne tail rfl rfl
    rw [hasDoubleSlash.eq_3 c rest hne, ih, List.infix_cons_iff, or_iff_right hfirst]

/-- The names that are read are the well-formed ones; a semicolon would have ended the name. -/
theorem wellFormedName_iff {name : List Char} : WellFormedName (String.ofList name) ↔
    ';' ∉ name ∧ name.isEmpty = false ∧ isIllegalName name = false := by
  have hstarts : ['/'] <+: name ↔ name.head? = some '/' := by
    rw [List.head?_eq_some_iff]
    exact exists_congr fun _ => eq_comm
  have hends : ['/'] <:+ name ↔ name.getLast? = some '/' := by
    rw [List.getLast?_eq_some_iff]
    exact exists_congr fun _ => eq_comm
  -- each condition of the model is one of the four of a well-formed name
  have hlegal : isIllegalName name = false ↔
      (∀ c ∈ name, c ≠ '.' ∧ c ≠ '[' ∧ c ≠ '(' ∧ c ≠ ')') ∧ ¬ ['/'] <+: name ∧
        ¬ ['/'] <:+ name ∧ ¬ ['/', '/'] <:+: name := by
    rw [hstarts, hends, ← hasDoubleSlash_iff]
    simp [isIllegalName, and_assoc]
  have hempty : name.isEmpty = false ↔ String.ofList name ≠ "" := by
    simp
  rw [hlegal, hempty]
  constructor
  · rintro ⟨hnonempty, hplain, hstart, hend, hdouble⟩
    rw [String.toList_ofList] at hplain hstart hend hdouble
    exact ⟨fun h => (hplain _ h).2.1 rfl, hnonempty,
      fun c hc => ⟨(hplain c hc).1, (hplain c hc).2.2⟩, hstart, hend, hdouble⟩
  · rintro ⟨hsemicolon, hnonempty, hplain, hstart, hend, hdouble⟩
    refine ⟨hnonempty, ?_, ?_, ?_, ?_⟩ <;> rw [String.toList_ofList]
    · intro c hc
      have hne : c ≠ ';' := fun heq => hsemicolon (heq ▸ hc)
      exact ⟨(hplain c hc).1, hne, (hplain c hc).2⟩
    · exact hstart
    · exact hend
    · exact hdouble

/-! ## Runs of characters -/

section

variable {p : Char → Bool} {c : Char} {run rest : List Char}

/-- A run is taken up to the first character that ends it. -/
theorem takeWhile_run (hrun : ∀ x ∈ run, p x = true) (hc : p c = false) :
    (run ++ c :: rest).takeWhile p = run := by
  rw [List.takeWhile_append_of_pos hrun, List.takeWhile_cons_of_neg (by simp [hc]), List.append_nil]

/-- What is left behind a run starts with the character that ended it. -/
theorem dropWhile_run (hrun : ∀ x ∈ run, p x = true) (hc : p c = false) :
    (run ++ c :: rest).dropWhile p = c :: rest := by
  rw [List.dropWhile_append_of_pos hrun, List.dropWhile_cons_of_neg (by simp [hc])]

end

/-! ## Reading a type

Each reader succeeds with a value exactly when the value is well formed and its spelling stands in
front of what is left. -/

/-- A class name needs a semicolon to end it. -/
theorem readClassName_of_not_mem {cs : List Char} (h : ';' ∉ cs) :
    readClassName cs = .error .unterminatedName := by
  have hdrop : cs.dropWhile (· != ';') = [] :=
    List.dropWhile_eq_nil_iff.mpr fun c hc => bne_iff_ne.mpr fun heq => h (heq ▸ hc)
  rw [readClassName, hdrop]

/-- The name goes up to the first semicolon, and is judged before anything behind it is read. -/
theorem readClassName_append {name rest : List Char} (h : ';' ∉ name) :
    readClassName (name ++ ';' :: rest) = if name.isEmpty then .error .emptyName
      else if isIllegalName name then .error .illegalName else .ok (String.ofList name, rest) := by
  have hrun : ∀ c ∈ name, (c != ';') = true := fun c hc => bne_iff_ne.mpr fun heq => h (heq ▸ hc)
  rw [readClassName, dropWhile_run hrun (by simp), takeWhile_run hrun (by simp)]

/-- A class name is read exactly where a well-formed name with a semicolon behind it stands. -/
theorem readClassName_eq_ok {cs rest : List Char} {name : String} :
    readClassName cs = .ok (name, rest) ↔
      WellFormedName name ∧ cs = name.toList ++ ';' :: rest := by
  constructor
  · intro h
    -- the name ends at the first semicolon, if there is one
    by_cases hmem : ';' ∈ cs
    · obtain ⟨before, behind, rfl, hbefore⟩ := List.eq_append_cons_of_mem hmem
      rw [readClassName_append hbefore] at h
      split at h
      · cases h
      · next hnonempty =>
        split at h
        · cases h
        · next hlegal =>
          cases h
          refine ⟨wellFormedName_iff.mpr ⟨hbefore, ?_, ?_⟩, ?_⟩
          · exact eq_false_of_ne_true hnonempty
          · exact eq_false_of_ne_true hlegal
          · rw [String.toList_ofList]
    · rw [readClassName_of_not_mem hmem] at h
      cases h
  · rintro ⟨hname, rfl⟩
    rw [← String.ofList_toList (s := name)] at hname
    obtain ⟨hbefore, hnonempty, hlegal⟩ := wellFormedName_iff.mp hname
    rw [readClassName_append hbefore, hnonempty, hlegal, String.ofList_toList]
    rfl

/-- A base type is read exactly where a well-formed one is spelled. -/
theorem readBaseType_eq_ok {cs rest : List Char} {base : BaseType} :
    readBaseType cs = .ok (base, rest) ↔ base.WellFormed ∧ cs = base.text.toList ++ rest := by
  constructor
  · intro h
    unfold readBaseType at h
    split at h
    case h_10 after =>
      obtain ⟨⟨name, behind⟩, hread, heq⟩ := except_map_eq_ok.mp h
      cases heq
      obtain ⟨hname, rfl⟩ := readClassName_eq_ok.mp hread
      exact ⟨hname, by simp [BaseType.text]⟩
    all_goals cases h <;> exact ⟨trivial, by simp [BaseType.text]⟩
  · rintro ⟨hbase, rfl⟩
    cases base with
    | object name =>
      have hread : readClassName (name.toList ++ ';' :: rest) = .ok (name, rest) :=
        readClassName_eq_ok.mpr ⟨hbase, rfl⟩
      simp [BaseType.text, readBaseType, hread, Except.map]
    | _ => simp [BaseType.text, readBaseType]

/-- No base type begins like an array, like the end of a list of parameters or like the missing
result, so one character tells them apart. -/
theorem BaseType.exists_text_eq_cons (base : BaseType) :
    ∃ c cs, base.text.toList = c :: cs ∧ c ≠ '[' ∧ c ≠ ')' ∧ c ≠ 'V' := by
  cases base <;> simp [BaseType.text]

/-- A type is spelled by a bracket for each dimension, and then by its base type. -/
theorem FieldType.toList_text (type : FieldType) : type.text.toList =
    List.replicate type.dimensions '[' ++ type.base.text.toList := by
  rw [FieldType.text, String.toList_append, String.toList_ofList]

/-- A spelling begins with a character that neither closes a list of parameters nor stands for no
result. -/
theorem FieldType.exists_text_eq_cons (type : FieldType) :
    ∃ c cs, type.text.toList = c :: cs ∧ c ≠ ')' ∧ c ≠ 'V' := by
  rw [FieldType.toList_text]
  cases type.dimensions with
  | zero =>
    obtain ⟨c, cs, htext, -, hc⟩ := type.base.exists_text_eq_cons
    exact ⟨c, cs, htext, hc⟩
  | succ n => exact ⟨'[', _, List.cons_append, by simp, by simp⟩

/-- A type is read exactly where a well-formed one is spelled. -/
theorem readFieldType_eq_ok {cs rest : List Char} {type : FieldType} :
    readFieldType cs = .ok (type, rest) ↔ type.WellFormed ∧ cs = type.text.toList ++ rest := by
  unfold readFieldType
  dsimp only
  constructor
  · intro h
    have hcs : cs.takeWhile (· == '[') ++ cs.dropWhile (· == '[') = cs :=
      List.takeWhile_append_dropWhile
    have hlevels : cs.takeWhile (· == '[') =
        List.replicate (cs.takeWhile (· == '[')).length '[' :=
      List.eq_replicate_of_mem fun c hc => by simpa using List.mem_takeWhile_imp hc
    split at h
    · cases h
    · next hle =>
      obtain ⟨⟨base, behind⟩, hread, heq⟩ := except_map_eq_ok.mp h
      cases heq
      obtain ⟨hbase, hdrop⟩ := readBaseType_eq_ok.mp hread
      refine ⟨⟨Nat.not_lt.mp hle, hbase⟩, ?_⟩
      rw [FieldType.toList_text, List.append_assoc, ← hdrop, ← hlevels, hcs]
  · rintro ⟨⟨hle, hbase⟩, rfl⟩
    have hrun : ∀ c ∈ List.replicate type.dimensions '[', (c == '[') = true := fun c hc => by
      simpa using List.eq_of_mem_replicate hc
    have hdimensions : ¬ maxDimensions < type.dimensions := Nat.not_lt.mpr hle
    -- the spelling of the base type does not begin with a bracket, so the levels end there
    obtain ⟨c, cs, htext, hc, -⟩ := type.base.exists_text_eq_cons
    have hread : readBaseType (type.base.text.toList ++ rest) = .ok (type.base, rest) :=
      readBaseType_eq_ok.mpr ⟨hbase, rfl⟩
    have hcs : type.text.toList ++ rest =
        List.replicate type.dimensions '[' ++ c :: (cs ++ rest) := by
      rw [FieldType.toList_text, htext, List.append_assoc, List.cons_append]
    rw [hcs, takeWhile_run hrun (by simpa using hc), dropWhile_run hrun (by simpa using hc),
      List.length_replicate, if_neg hdimensions, ← List.cons_append, ← htext, hread]
    rfl

/-! ## Reading a list of types and a result -/

/-- A parameter that can be read is put in front of those before it, and reading goes on. -/
theorem readParameters_of_ok {read : List FieldType} {c : Char} {cs rest : List Char}
    {type : FieldType} (hc : c ≠ ')') (h : readFieldType (c :: cs) = .ok (type, rest)) :
    readParameters read (c :: cs) = readParameters (type :: read) rest := by
  rw [readParameters.eq_3 read c cs hc]
  split <;> simp_all

theorem readParameters_of_error {read : List FieldType} {c : Char} {cs : List Char}
    {fault : DescriptorFault} (hc : c ≠ ')') (h : readFieldType (c :: cs) = .error fault) :
    readParameters read (c :: cs) = .error fault := by
  rw [readParameters.eq_3 read c cs hc]
  split <;> simp_all

/-- Parameters are read exactly where well-formed types with the closing parenthesis behind them are
spelled. The parameters that have been read already stand in reverse. -/
theorem readParameters_eq_ok {read types : List FieldType} {cs rest : List Char} :
    readParameters read cs = .ok (types, rest) ↔
      ∃ new, types = read.reverse ++ new ∧ (∀ type ∈ new, type.WellFormed) ∧
        cs = new.flatMap (fun type => type.text.toList) ++ ')' :: rest := by
  constructor
  · intro h
    induction read, cs using readParameters.induct with
    | case1 read =>
      rw [readParameters] at h
      cases h
    | case2 read behind =>
      rw [readParameters] at h
      cases h
      exact ⟨[], by simp, by simp, rfl⟩
    | case3 read c cs hc fault hread =>
      rw [readParameters_of_error hc hread] at h
      cases h
    | case4 read c cs hc type behind hread _ ih =>
      rw [readParameters_of_ok hc hread] at h
      obtain ⟨htype, hcs⟩ := readFieldType_eq_ok.mp hread
      obtain ⟨new, rfl, hwell, rfl⟩ := ih h
      refine ⟨type :: new, by simp, List.forall_mem_cons.mpr ⟨htype, hwell⟩, ?_⟩
      rw [hcs, List.flatMap_cons, List.append_assoc]
  · rintro ⟨new, rfl, hwell, rfl⟩
    induction new generalizing read with
    | nil => simp [readParameters]
    | cons type new ih =>
      obtain ⟨htype, hwell⟩ := List.forall_mem_cons.mp hwell
      -- no type begins with the parenthesis that closes the list
      obtain ⟨c, cs, htext, hc, -⟩ := type.exists_text_eq_cons
      have hread : readFieldType (type.text.toList ++
          (new.flatMap (fun type => type.text.toList) ++ ')' :: rest)) =
            .ok (type, new.flatMap (fun type => type.text.toList) ++ ')' :: rest) :=
        readFieldType_eq_ok.mpr ⟨htype, rfl⟩
      rw [htext, List.cons_append] at hread
      rw [List.flatMap_cons, htext, List.append_assoc, List.cons_append,
        readParameters_of_ok hc hread, ih hwell]
      simp

theorem readReturnType_eq_ok {cs rest : List Char} {result : ReturnType} :
    readReturnType cs = .ok (result, rest) ↔
      result.WellFormed ∧ cs = result.text.toList ++ rest := by
  constructor
  · intro h
    unfold readReturnType at h
    split at h
    · cases h
    · cases h
      exact ⟨trivial, by simp [ReturnType.text]⟩
    · obtain ⟨⟨type, behind⟩, hread, heq⟩ := except_map_eq_ok.mp h
      cases heq
      exact readFieldType_eq_ok.mp hread
  · rintro ⟨hresult, rfl⟩
    cases result with
    | void => simp [ReturnType.text, readReturnType]
    | value type =>
      obtain ⟨c, cs, htext, -, hc⟩ := type.exists_text_eq_cons
      have hread : readFieldType (type.text.toList ++ rest) = .ok (type, rest) :=
        readFieldType_eq_ok.mpr ⟨hresult, rfl⟩
      rw [htext, List.cons_append] at hread
      rw [ReturnType.text, htext, List.cons_append,
        readReturnType.eq_3 _ (List.cons_ne_nil _ _) fun _ heq => hc (List.cons.inj heq).1, hread]
      rfl

/-! ## Whole descriptors

Nothing may be left behind a whole descriptor. -/

theorem ite_isEmpty_eq_ok {α : Type} {x y : α} {rest : List Char} :
    (if rest.isEmpty then .ok x else .error .trailingCharacters : Except DescriptorFault α) =
      .ok y ↔ x = y ∧ rest = [] := by
  cases rest <;> simp

theorem readFieldDescriptor_eq_ok {cs : List Char} {type : FieldType} :
    readFieldDescriptor cs = .ok type ↔ type.WellFormed ∧ cs = type.text.toList := by
  unfold readFieldDescriptor
  rw [except_bind_eq_ok]
  constructor
  · rintro ⟨⟨read, rest⟩, hread, h⟩
    obtain ⟨rfl, rfl⟩ := ite_isEmpty_eq_ok.mp h
    simpa using readFieldType_eq_ok.mp hread
  · rintro ⟨htype, rfl⟩
    have hread : readFieldType (type.text.toList ++ []) = .ok (type, []) :=
      readFieldType_eq_ok.mpr ⟨htype, rfl⟩
    rw [List.append_nil] at hread
    exact ⟨(type, []), hread, rfl⟩

/-- A method is spelled by its parameters in parentheses, and then by its result. -/
theorem MethodDescriptor.toList_text (descriptor : MethodDescriptor) : descriptor.text.toList =
    '(' :: (descriptor.parameters.flatMap (fun type => type.text.toList) ++
      ')' :: descriptor.result.text.toList) := by
  simp [MethodDescriptor.text, List.flatMap_map]

/-- The descriptor of a method is a well-formed one and nothing else. -/
theorem readMethodDescriptor_eq_ok {cs : List Char} {descriptor : MethodDescriptor} :
    readMethodDescriptor cs = .ok descriptor ↔
      descriptor.WellFormed ∧ cs = descriptor.text.toList := by
  rw [MethodDescriptor.toList_text]
  constructor
  · intro h
    unfold readMethodDescriptor at h
    split at h
    · obtain ⟨⟨parameters, behind⟩, hparameters, h⟩ := except_bind_eq_ok.mp h
      obtain ⟨⟨result, rest⟩, hresult, h⟩ := except_bind_eq_ok.mp h
      obtain ⟨rfl, rfl⟩ := ite_isEmpty_eq_ok.mp h
      obtain ⟨new, rfl, hwell, rfl⟩ := readParameters_eq_ok.mp hparameters
      obtain ⟨hwell', rfl⟩ := readReturnType_eq_ok.mp hresult
      exact ⟨⟨hwell, hwell'⟩, by simp⟩
    · cases h
  · rintro ⟨⟨hparameters, hresult⟩, rfl⟩
    have hread : readParameters [] (descriptor.parameters.flatMap (fun type => type.text.toList) ++
        ')' :: descriptor.result.text.toList) =
          .ok (descriptor.parameters, descriptor.result.text.toList) :=
      readParameters_eq_ok.mpr ⟨_, rfl, hparameters, rfl⟩
    have hread' : readReturnType (descriptor.result.text.toList ++ []) =
        .ok (descriptor.result, []) := readReturnType_eq_ok.mpr ⟨hresult, rfl⟩
    rw [List.append_nil] at hread'
    rw [readMethodDescriptor]
    refine except_bind_eq_ok.mpr ⟨_, hread, ?_⟩
    exact except_bind_eq_ok.mpr ⟨_, hread', rfl⟩

/-- A text is parsed as a field type exactly when it is the text of a well-formed type, and then as
this type. -/
theorem FieldType.parse_eq_ok {d : String} {type : FieldType} :
    FieldType.parse d = .ok type ↔ type.WellFormed ∧ type.text = d := by
  rw [FieldType.parse, mapError_eq_ok, readFieldDescriptor_eq_ok, String.toList_inj,
    eq_comm (a := d)]

/-- A text is parsed as the descriptor of a method exactly when it is the text of a well-formed one,
and then as this one. -/
theorem MethodDescriptor.parse_eq_ok {d : String} {m : MethodDescriptor} :
    MethodDescriptor.parse d = .ok m ↔ m.WellFormed ∧ m.text = d := by
  rw [MethodDescriptor.parse, mapError_eq_ok, readMethodDescriptor_eq_ok, String.toList_inj,
    eq_comm (a := d)]

/-- A descriptor is read as a type, or as the types of a method, exactly when these are well formed
and it is their spelling. -/
theorem parse_iff_text (d : String) :
    (∀ type : FieldType, FieldType.parse d = .ok type ↔ type.WellFormed ∧ type.text = d) ∧
      ∀ m : MethodDescriptor, MethodDescriptor.parse d = .ok m ↔ m.WellFormed ∧ m.text = d :=
  ⟨fun _ => FieldType.parse_eq_ok, fun _ => MethodDescriptor.parse_eq_ok⟩

end JvmStub
