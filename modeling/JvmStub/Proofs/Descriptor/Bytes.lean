/-
`Bytes.lean` -- descriptors read byte by byte.

The readers take a descriptor as characters and hand on the rest of them. Here they are
once more over the bytes of the text, with a position that is moved by numbers of bytes
and slices of the text that are taken at the position. Three things can go wrong then that
are no faults of the descriptor: a position can leave the text, a slice can begin inside a
character, and a loop can go round without moving. Each of them is looked for wherever it
could happen, and if it does happen there is no result at all.

None of them happens. A position stands at the start of a character except behind the
first byte of a longer one, and that byte begins no type, so the reader is about to give
up (`baseTypeInBytes_follows`). Wherever it goes on, it stands where the characters that
the other readers would have left begin (`Follows`), and these are fewer after each type.
-/
import JvmStub.Proofs.Descriptor.Spelling

set_option autoImplicit false

namespace JvmStub

/-! ## Reading by characters -/

section

variable {c : Char} {cs rest : List Char}

/-- What a base type begins with, and what stands for no result. -/
def typeLetters : List Char := ['Z', 'B', 'C', 'S', 'I', 'J', 'F', 'D', 'L', 'V']

/-- A letter that begins a type is a single byte. -/
theorem utf8Size_of_mem_typeLetters (h : c ∈ typeLetters) : c.utf8Size = 1 := by
  have hall : typeLetters.all (fun a => a.utf8Size == 1) = true := rfl
  exact eq_of_beq (List.all_eq_true.mp hall c h)

/-- Nothing else begins a base type, whatever stands behind it. -/
theorem readBaseType_of_not_mem (h : c ∉ typeLetters) :
    readBaseType (c :: rest) = .error .unknownType := by
  simp only [typeLetters, List.mem_cons, List.not_mem_nil, or_false, not_or] at h
  simp [readBaseType, h]

/-- What a reader of field types leaves is the end of what it was given. -/
theorem suffix_of_readFieldType {type : FieldType} (h : readFieldType cs = .ok (type, rest)) :
    rest <:+ cs :=
  ⟨_, (readFieldType_eq_ok.mp h).2.symm⟩

theorem suffix_of_readParameters {read types : List FieldType}
    (h : readParameters read cs = .ok (types, rest)) : rest <:+ cs := by
  obtain ⟨new, -, -, rfl⟩ := readParameters_eq_ok.mp h
  exact (List.suffix_cons ')' rest).trans (List.suffix_append _ _)

theorem suffix_of_readReturnType {result : ReturnType}
    (h : readReturnType cs = .ok (result, rest)) : rest <:+ cs :=
  ⟨_, (readReturnType_eq_ok.mp h).2.symm⟩

end

/-! ## Operations that may slip -/

/-- What reading by bytes must not do. -/
inductive Slip where
  /-- The position is moved out of the text. -/
  | pastEnd (pos : Nat)
  /-- A slice begins or ends inside a character. -/
  | noBoundary (pos : Nat)
  /-- A loop goes round and has not moved forward inside the text. -/
  | standstill (pos : Nat)
  deriving DecidableEq, Repr

/-- A reader with a position in the bytes of a text. There is nothing behind a slip. -/
abbrev ByteReader := StateT Nat (ExceptT DescriptorFault (Except Slip))

namespace ByteReader

section

variable {α β : Type}

def slip (s : Slip) : ByteReader α := fun _ => ExceptT.mk (.error s)

/-- The byte at the position, as the character that it would be alone. -/
def peek (text : String) : ByteReader (Option Char) := do
  return text.toByteArray.data[← get]?.map Char.ofUInt8

/-- Whether the position is behind the last byte. -/
def atEnd (text : String) : ByteReader Bool := do
  return decide (text.utf8ByteSize ≤ (← get))

/-- Moves the position by some bytes, which must be there. -/
def advance (text : String) (count : Nat) : ByteReader Unit := do
  let pos := (← get) + count
  if pos ≤ text.utf8ByteSize then set pos else slip (.pastEnd pos)

/-- Some number of bytes into a text, as a place where it may be cut. -/
def boundary (text : String) (pos : Nat) : ByteReader text.Pos :=
  if h : String.Pos.Raw.IsValid text ⟨pos⟩ then return text.pos ⟨pos⟩ h
  else slip (.noBoundary pos)

/-- Passes of a loop up to one that ends it. A pass that does not must have moved the position
forward, and not out of the text. -/
def passes (text : String) (pass : α → ByteReader (α ⊕ β)) (a : α) : ByteReader β := fun pos => do
  match ← pass a pos with
  | (.inr b, pos') => return (b, pos')
  | (.inl a', pos') =>
    if h : pos < pos' ∧ pos' ≤ text.utf8ByteSize then
      have : text.utf8ByteSize - pos' < text.utf8ByteSize - pos :=
        Nat.sub_lt_sub_left (Nat.lt_of_lt_of_le h.1 h.2) h.1
      passes text pass a' pos'
    else slip (.standstill pos') pos'
termination_by pos => text.utf8ByteSize - pos
decreasing_by exact this

end

/-! ## Reading by bytes -/

/-- Reads a class name up to its semicolon, which is looked for in the rest of the text. -/
def classNameInBytes (text : String) : ByteReader String := do
  let rest := (text.sliceFrom (← boundary text (← get))).copy
  match rest.find? ';' with
  | none => throw .unterminatedName
  | some semicolon =>
    let stop := semicolon.offset.byteIdx
    let name := (rest.sliceTo (← boundary rest stop)).copy
    if name.isEmpty then throw .emptyName
    else if isIllegalName name.toList then throw .illegalName
    else
      advance text (stop + 1)
      return name

/-- Reads what there is of a base type behind the byte that begins it. -/
def baseTypeBehind (text : String) : Char → ByteReader BaseType
  | 'Z' => return .boolean
  | 'B' => return .byte
  | 'C' => return .char
  | 'S' => return .short
  | 'I' => return .int
  | 'J' => return .long
  | 'F' => return .float
  | 'D' => return .double
  | 'L' => .object <$> classNameInBytes text
  | 'V' => throw .misplacedVoid
  | _ => throw .unknownType

/-- Reads a base type. -/
def baseTypeInBytes (text : String) : ByteReader BaseType := do
  match ← peek text with
  | none => throw .unexpectedEnd
  | some c =>
    advance text 1
    baseTypeBehind text c

/-- One pass of the loop that counts array levels. -/
def levelsPass (text : String) (levels : Nat) : ByteReader (Nat ⊕ Nat) := do
  if (← peek text) = some '[' then
    advance text 1
    return .inl (levels + 1)
  else return .inr levels

/-- Reads a field type. -/
def fieldTypeInBytes (text : String) : ByteReader FieldType := do
  let dimensions ← passes text (levelsPass text) 0
  if maxDimensions < dimensions then throw .tooManyDimensions
  else (⟨dimensions, ·⟩) <$> baseTypeInBytes text

/-- One pass of the loop over the parameters, onto the reversed list of those already read. -/
def parametersPass (text : String) (read : List FieldType) :
    ByteReader (List FieldType ⊕ List FieldType) := do
  match ← peek text with
  | none => throw .missingClosing
  | some ')' =>
    advance text 1
    return .inr read.reverse
  | some _ => (fun type => .inl (type :: read)) <$> fieldTypeInBytes text

/-- Reads a result. -/
def returnTypeInBytes (text : String) : ByteReader ReturnType := do
  match ← peek text with
  | none => throw .missingResult
  | some 'V' =>
    advance text 1
    return .void
  | some _ => .value <$> fieldTypeInBytes text

/-- Reads a whole field descriptor. -/
def fieldDescriptorInBytes (text : String) : ByteReader FieldType := do
  let type ← fieldTypeInBytes text
  if ← atEnd text then return type else throw .trailingCharacters

/-- Reads a whole method descriptor. -/
def methodDescriptorInBytes (text : String) : ByteReader MethodDescriptor := do
  if (← peek text) = some '(' then
    advance text 1
    let parameters ← passes text (parametersPass text) []
    let result ← returnTypeInBytes text
    if ← atEnd text then return ⟨parameters, result⟩ else throw .trailingCharacters
  else throw .missingOpening

/-! ## Positions -/

variable {text : String} {c : Char} {cs front rest : List Char}

/-- Where in the bytes of a text the characters at its end begin that are left to read. -/
def positionOf (text : String) (rest : List Char) : Nat :=
  text.utf8ByteSize - (String.ofList rest).utf8ByteSize

/-- No position is behind the end of the text. -/
theorem positionOf_le (text : String) (rest : List Char) :
    positionOf text rest ≤ text.utf8ByteSize :=
  Nat.sub_le ..

theorem positionOf_toList (text : String) : positionOf text text.toList = 0 := by
  rw [positionOf, String.ofList_toList, Nat.sub_self]

/-- The bytes in front of the position are those of the characters that have been read. -/
theorem exists_front (h : rest <:+ text.toList) : ∃ front : String,
    text = front ++ String.ofList rest ∧ positionOf text rest = front.utf8ByteSize := by
  obtain ⟨front, hfront⟩ := h
  have htext : text = String.ofList front ++ String.ofList rest := by
    rw [← String.ofList_append, hfront, String.ofList_toList]
  refine ⟨String.ofList front, htext, ?_⟩
  rw [positionOf, htext, String.utf8ByteSize_append, Nat.add_sub_cancel]

/-- Reading some characters moves the position by their bytes. -/
theorem positionOf_append (h : front ++ rest <:+ text.toList) : positionOf text rest =
    positionOf text (front ++ rest) + (String.ofList front).utf8ByteSize := by
  obtain ⟨before, htext, hpos⟩ := exists_front h
  rw [hpos, positionOf, htext]
  simp only [String.ofList_append, String.utf8ByteSize_append]
  omega

/-- Reading one character moves the position by the bytes of the character. -/
theorem positionOf_cons (h : c :: rest <:+ text.toList) :
    positionOf text rest = positionOf text (c :: rest) + c.utf8Size := by
  have hone : (String.ofList [c]).utf8ByteSize = c.utf8Size := String.utf8ByteSize_singleton
  have hparts : [c] ++ rest <:+ text.toList := h
  rw [← hone]
  exact positionOf_append hparts

/-- A character has at least one byte, so the position moves forward. -/
theorem positionOf_cons_lt (h : c :: rest <:+ text.toList) :
    positionOf text (c :: rest) < positionOf text rest :=
  positionOf_cons h ▸ Nat.lt_add_of_pos_right c.utf8Size_pos

/-- Where fewer characters are left the position is greater. -/
theorem positionOf_lt (h : cs <:+ text.toList) (hrest : rest <:+ cs)
    (hlt : rest.length < cs.length) : positionOf text cs < positionOf text rest := by
  obtain ⟨front, rfl⟩ := hrest
  cases front with
  | nil => exact absurd hlt (Nat.lt_irrefl _)
  | cons c front =>
    have hpos := positionOf_append h
    have hsize := c.utf8Size_pos
    rw [String.ofList_cons, String.utf8ByteSize_append, String.utf8ByteSize_singleton] at hpos
    omega

/-! ## First bytes -/

/-- The first byte of a character, as the character that it would be alone. -/
def firstByte (c : Char) : Char :=
  Char.ofUInt8 ((String.utf8EncodeChar c).head String.utf8EncodeChar_ne_nil)

/-- A character of a single byte is its first byte. -/
theorem firstByte_of_ascii (h : c.utf8Size = 1) : firstByte c = c := by
  have hle := Char.utf8Size_eq_one_iff.mp h
  have hlt : c.val.toNat < 2 ^ 8 :=
    Nat.lt_of_le_of_lt (UInt32.le_iff_toNat_le.mp hle) (by decide)
  have hhead : (String.utf8EncodeChar c).head String.utf8EncodeChar_ne_nil = c.val.toUInt8 := by
    simp [String.utf8EncodeChar_eq_singleton h]
  rw [firstByte, hhead]
  apply Char.ext
  apply UInt32.toNat_inj.mp
  change c.val.toNat % 2 ^ 8 = c.val.toNat
  exact Nat.mod_eq_of_lt hlt

/-- The first of several bytes is not ASCII. -/
theorem le_firstByte (h : c.utf8Size ≠ 1) : 128 ≤ (firstByte c).toNat := by
  change 128 ≤ ((String.utf8EncodeChar c).head String.utf8EncodeChar_ne_nil).toNat
  obtain hsize | hsize | hsize | hsize := c.utf8Size_eq
  · exact absurd hsize h
  · simp only [String.utf8EncodeChar_eq_cons_cons hsize, List.head_cons, UInt8.toNat_or]
    exact Nat.le_trans (by decide) Nat.right_le_or
  · simp only [String.utf8EncodeChar_eq_cons_cons_cons hsize, List.head_cons, UInt8.toNat_or]
    exact Nat.le_trans (by decide) Nat.right_le_or
  · simp only [String.utf8EncodeChar_eq_cons_cons_cons_cons hsize, List.head_cons, UInt8.toNat_or]
    exact Nat.le_trans (by decide) Nat.right_le_or

/-- A first byte that looks like a character of a single byte belongs to that character. This is why
comparing bytes finds what comparing characters finds. -/
theorem firstByte_eq_iff {a : Char} (ha : a.utf8Size = 1) : firstByte c = a ↔ c = a := by
  by_cases hc : c.utf8Size = 1
  · rw [firstByte_of_ascii hc]
  · have hbyte := le_firstByte hc
    have hascii := UInt32.le_iff_toNat_le.mp (Char.utf8Size_eq_one_iff.mp ha)
    have hne : c ≠ a := fun heq => hc (heq ▸ ha)
    refine iff_of_false (fun heq => ?_) hne
    rw [heq] at hbyte
    exact absurd (Nat.le_trans hbyte hascii) (by decide)

/-- At the start of a character stands its first byte, and at the end of the text nothing. -/
theorem getElem?_positionOf (h : cs <:+ text.toList) :
    text.toByteArray.data[positionOf text cs]?.map Char.ofUInt8 = cs.head?.map firstByte := by
  obtain ⟨before, htext, hpos⟩ := exists_front h
  have hbefore : before.toByteArray.data.size = before.utf8ByteSize := rfl
  rw [hpos, htext, String.toByteArray_append, ByteArray.data_append,
    Array.getElem?_append_right (Nat.le_of_eq hbefore), hbefore, Nat.sub_self,
    String.toByteArray_ofList]
  cases cs with
  | nil => rfl
  | cons c cs =>
    obtain ⟨byte, bytes, hbytes⟩ :=
      List.exists_cons_of_ne_nil (String.utf8EncodeChar_ne_nil (c := c))
    rw [List.utf8Encode_cons, List.utf8Encode_singleton, ByteArray.data_append,
      List.data_toByteArray, ← Array.getElem?_toList, Array.toList_append]
    simp [firstByte, hbytes]

/-! ## Following the characters

From the position where some characters begin, a reader of bytes comes out as a reader of
characters did with these characters: with the same fault, or with the same value and at the
position where the same rest begins. -/

section

variable {α β γ : Type} {reader : ByteReader α} {f : α → ByteReader β} {a : α}
  {outcome : Except DescriptorFault (α × List Char)}

/-- The reader does not slip, and comes out as stated. -/
def Follows (text : String) (reader : ByteReader α) (cs : List Char)
    (outcome : Except DescriptorFault (α × List Char)) : Prop :=
  (reader (positionOf text cs)).run = .ok (outcome.map (Prod.map id (positionOf text)))

/-- A reader that reads nothing stays where it is. -/
theorem follows_pure (a : α) : Follows text (pure a) cs (.ok (a, cs)) := rfl

theorem follows_throw (fault : DescriptorFault) :
    Follows text (throw fault : ByteReader α) cs (.error fault) := rfl

/-- The position of a reader that follows is known from the characters that are left. -/
theorem follows_get : Follows text get cs (.ok (positionOf text cs, cs)) := rfl

/-- Two readers one after the other follow their counterparts, if the second follows wherever the
first one may have left it. -/
theorem Follows.bind {g : α × List Char → Except DescriptorFault γ} {k : γ → β × List Char}
    (h : Follows text reader cs outcome)
    (hf : ∀ a rest, outcome = .ok (a, rest) → Follows text (f a) rest ((g (a, rest)).map k)) :
    Follows text (reader >>= f) cs ((outcome >>= g).map k) := by
  change (ExceptT.run (reader (positionOf text cs))).bind _ = _
  rw [h]
  cases outcome with
  | error fault => rfl
  | ok read => exact hf read.1 read.2 rfl

/-- A step that succeeds hands on to the next. -/
theorem Follows.next {outcome : Except DescriptorFault (β × List Char)}
    (h : Follows text reader cs (.ok (a, rest))) (hf : Follows text (f a) rest outcome) :
    Follows text (reader >>= f) cs outcome := by
  change (ExceptT.run (reader (positionOf text cs))).bind _ = _
  rw [h]
  exact hf

theorem Follows.map (k : α → β) (h : Follows text reader cs outcome) :
    Follows text (k <$> reader) cs (outcome.map (Prod.map k id)) := by
  change (ExceptT.run (reader (positionOf text cs))).bind _ = _
  rw [h]
  cases outcome <;> rfl

/-- A reader that follows through a whole text finds there what was found in its characters. -/
theorem Follows.run' {outcome : Except DescriptorFault α}
    (h : Follows text reader text.toList (outcome.map (·, []))) :
    (reader.run' 0).run = .ok outcome := by
  rw [Follows, positionOf_toList] at h
  change (ExceptT.run (reader 0)).bind _ = _
  rw [h]
  cases outcome <;> rfl

end

section

variable {α β : Type} {pass : α → ByteReader (α ⊕ β)} {a a' : α} {b : β}

/-- A pass that goes on, and has moved forward, leaves the rest to the passes behind it. -/
theorem Follows.passes_on {outcome : Except DescriptorFault (β × List Char)}
    (h : Follows text (pass a) cs (.ok (.inl a', rest)))
    (hlt : positionOf text cs < positionOf text rest)
    (hrest : Follows text (passes text pass a') rest outcome) :
    Follows text (passes text pass a) cs outcome := by
  rw [Follows, passes]
  change (ExceptT.run (pass a (positionOf text cs))).bind _ = _
  rw [h]
  change ExceptT.run (dite _ _ _) = _
  rw [dif_pos ⟨hlt, positionOf_le text rest⟩]
  exact hrest

/-- A pass that ends the loop says what the loop gives. -/
theorem Follows.passes_end (h : Follows text (pass a) cs (.ok (.inr b, rest))) :
    Follows text (passes text pass a) cs (.ok (b, rest)) := by
  rw [Follows, passes]
  change (ExceptT.run (pass a (positionOf text cs))).bind _ = _
  rw [h]
  rfl

theorem Follows.passes_fault {fault : DescriptorFault}
    (h : Follows text (pass a) cs (.error fault)) :
    Follows text (passes text pass a) cs (.error fault) := by
  rw [Follows, passes]
  change (ExceptT.run (pass a (positionOf text cs))).bind _ = _
  rw [h]
  rfl

end

/-- The byte at the position is the first one of the characters that are left. -/
theorem follows_peek (h : cs <:+ text.toList) :
    Follows text (peek text) cs (.ok (cs.head?.map firstByte, cs)) := by
  rw [← getElem?_positionOf h]
  rfl

/-- The position is at the end when no characters are left. -/
theorem follows_atEnd (h : cs <:+ text.toList) :
    Follows text (atEnd text) cs (.ok (cs.isEmpty, cs)) := by
  have hend : decide (text.utf8ByteSize ≤ positionOf text cs) = cs.isEmpty := by
    cases cs with
    | nil => exact decide_eq_true (Nat.le_refl _)
    | cons c rest =>
      have hlt := Nat.lt_of_lt_of_le (positionOf_cons_lt h) (positionOf_le text rest)
      exact decide_eq_false (Nat.not_le.mpr hlt)
  rw [← hend]
  rfl

/-- A position that stays in the text can be moved. -/
theorem advance_run {pos count : Nat} (h : pos + count ≤ text.utf8ByteSize) :
    (advance text count pos).run = .ok (.ok ((), pos + count)) := by
  change ExceptT.run ((if pos + count ≤ text.utf8ByteSize then set (pos + count)
    else slip (.pastEnd (pos + count)) : ByteReader Unit) pos) = _
  rw [if_pos h]
  rfl

/-- Moving past the bytes of the next characters is reading these characters. -/
theorem follows_advance (h : front ++ rest <:+ text.toList) : Follows text
    (advance text (String.ofList front).utf8ByteSize) (front ++ rest) (.ok ((), rest)) := by
  have hpos := positionOf_append h
  have hle := positionOf_le text rest
  rw [Follows, advance_run (hpos ▸ hle), ← hpos]
  rfl

/-- One byte is a whole character if it is ASCII. -/
theorem follows_advance_one (hc : c.utf8Size = 1) (h : c :: rest <:+ text.toList) :
    Follows text (advance text 1) (c :: rest) (.ok ((), rest)) := by
  have hone : (String.ofList [c]).utf8ByteSize = 1 := String.utf8ByteSize_singleton.trans hc
  have hparts : [c] ++ rest <:+ text.toList := h
  rw [← hone]
  exact follows_advance hparts

/-- A text may be cut between two parts of it. -/
theorem exists_boundary {t u : String} (h : text = t ++ u) :
    ∃ p : text.Pos, p.Splits t u ∧ boundary text t.utf8ByteSize = pure p := by
  have hvalid : String.Pos.Raw.IsValid text ⟨t.utf8ByteSize⟩ :=
    String.Pos.Raw.isValid_iff_exists_append.mpr ⟨t, u, h, rfl⟩
  exact ⟨text.pos _ hvalid, ⟨h, rfl⟩, dif_pos hvalid⟩

/-! ## Class names -/

/-- A character is found where it stands for the first time. -/
theorem find?_eq_some_iff {p : text.Pos} : text.find? c = some p ↔
    ∃ t u, p.Splits t (String.singleton c ++ u) ∧ c ∉ t.toList := by
  rw [String.find?_eq_find?_toSlice, Option.map_eq_some_iff]
  constructor
  · rintro ⟨q, hq, rfl⟩
    obtain ⟨t, u, hsplits, ht⟩ := String.Slice.find?_char_eq_some_iff_splits.mp hq
    exact ⟨t, u, String.Slice.Pos.splits_ofToSlice_iff.mpr hsplits, ht⟩
  · rintro ⟨t, u, hsplits, ht⟩
    exact ⟨p.toSlice, String.Slice.find?_char_eq_some_iff_splits.mpr ⟨t, u, hsplits.toSlice, ht⟩,
      String.Pos.ofToSlice_toSlice p⟩

theorem find?_of_not_mem (h : c ∉ cs) : (String.ofList cs).find? c = none := by
  refine Option.eq_none_iff_forall_ne_some.mpr fun p hp => ?_
  obtain ⟨t, u, hsplits, -⟩ := find?_eq_some_iff.mp hp
  have hcs : cs = t.toList ++ c :: u.toList := by
    simpa using congrArg String.toList hsplits.eq_append
  exact h (hcs ▸ List.mem_append_right _ List.mem_cons_self)

/-- The first occurrence is known from a cut with none of the character in front of it. -/
theorem find?_of_splits {p : (String.ofList cs).Pos} (hfront : c ∉ front)
    (h : p.Splits (String.ofList front) (String.ofList (c :: rest))) :
    (String.ofList cs).find? c = some p := by
  refine find?_eq_some_iff.mpr ⟨String.ofList front, String.ofList rest, ?_, ?_⟩
  · exact h.of_eq rfl String.ofList_cons
  · rwa [String.toList_ofList]

/-- Both slices are cut between characters: the first where the name begins, and the second in
front of the semicolon that was found. -/
theorem classNameInBytes_follows (h : cs <:+ text.toList) :
    Follows text (classNameInBytes text) cs (readClassName cs) := by
  obtain ⟨before, htext, hpos⟩ := exists_front h
  obtain ⟨start, hstart, hboundary⟩ := exists_boundary htext
  -- the slice from the position on is made of the characters that are left
  refine .next follows_get ?_
  rw [hpos, hboundary]
  refine .next (follows_pure start) ?_
  rw [hstart.copy_sliceFrom_eq]
  dsimp only
  by_cases hmem : ';' ∈ cs
  · obtain ⟨name, rest, rfl, hname⟩ := List.eq_append_cons_of_mem hmem
    have hparts : String.ofList (name ++ ';' :: rest) =
        String.ofList name ++ String.ofList (';' :: rest) := String.ofList_append
    obtain ⟨stop, hstop, hboundary⟩ := exists_boundary hparts
    have hoffset : stop.offset.byteIdx = (String.ofList name).utf8ByteSize :=
      congrArg String.Pos.Raw.byteIdx hstop.offset_eq_rawEndPos
    have hempty : (String.ofList name).isEmpty = name.isEmpty :=
      Bool.eq_iff_iff.mpr (String.isEmpty_iff.trans
        (String.ofList_eq_empty_iff.trans List.isEmpty_iff.symm))
    rw [find?_of_splits hname hstop, readClassName_append hname]
    dsimp only
    rw [hoffset, hboundary]
    refine .next (follows_pure stop) ?_
    rw [hstop.copy_sliceTo_eq, hempty, String.toList_ofList]
    split
    · exact follows_throw _
    · split
      · exact follows_throw _
      · -- the position moves over the name and the one byte of the semicolon
        have hcs : name ++ ';' :: rest = (name ++ [';']) ++ rest := by simp
        have hcount : (String.ofList (name ++ [';'])).utf8ByteSize =
            (String.ofList name).utf8ByteSize + 1 := by
          rw [String.ofList_append, String.utf8ByteSize_append]
          rfl
        rw [hcs] at h ⊢
        rw [← hcount]
        exact .next (follows_advance h) (follows_pure _)
  · rw [find?_of_not_mem hmem, readClassName_of_not_mem hmem]
    exact follows_throw _

/-! ## Types -/

/-- The reader by bytes gives up on the same letters. -/
theorem baseTypeBehind_of_not_mem (h : c ∉ typeLetters) :
    baseTypeBehind text c = throw .unknownType := by
  simp only [typeLetters, List.mem_cons, List.not_mem_nil, or_false, not_or] at h
  simp [baseTypeBehind, h]

/-- Behind a letter that has been read, the two readers of base types go together. -/
theorem baseTypeBehind_follows (h : rest <:+ text.toList) :
    Follows text (baseTypeBehind text c) rest (readBaseType (c :: rest)) := by
  by_cases hmem : c ∈ typeLetters
  · simp only [typeLetters, List.mem_cons, List.not_mem_nil, or_false] at hmem
    obtain rfl | rfl | rfl | rfl | rfl | rfl | rfl | rfl | rfl | rfl := hmem
    any_goals rfl
    exact .map _ (classNameInBytes_follows h)
  · rw [baseTypeBehind_of_not_mem hmem, readBaseType_of_not_mem hmem]
    exact follows_throw _

/-- Behind the first of several bytes the position is inside a character, and nothing follows
but the fault: such a byte is none of the letters. -/
theorem baseTypeInBytes_follows (h : cs <:+ text.toList) :
    Follows text (baseTypeInBytes text) cs (readBaseType cs) := by
  refine .next (follows_peek h) ?_
  cases cs with
  | nil => exact follows_throw _
  | cons c rest =>
    dsimp only [List.head?_cons, Option.map_some]
    by_cases hc : c.utf8Size = 1
    · rw [firstByte_of_ascii hc]
      have hrest : rest <:+ text.toList := (List.suffix_cons c rest).trans h
      exact .next (follows_advance_one hc h) (baseTypeBehind_follows hrest)
    · have hletter : c ∉ typeLetters := fun hmem => hc (utf8Size_of_mem_typeLetters hmem)
      have hbyte : firstByte c ∉ typeLetters := fun hmem => by
        have heq := (firstByte_eq_iff (utf8Size_of_mem_typeLetters hmem)).mp rfl
        exact hletter (heq ▸ hmem)
      -- the step leads into the character, so no rest of the text begins there
      have hinside : positionOf text (c :: rest) + 1 ≤ text.utf8ByteSize :=
        Nat.le_trans (positionOf_cons_lt h) (positionOf_le text rest)
      rw [baseTypeBehind_of_not_mem hbyte, readBaseType_of_not_mem hletter]
      change (ExceptT.run (advance text 1 (positionOf text (c :: rest)))).bind _ = _
      rw [advance_run hinside]
      rfl

/-- The loop over the levels counts the brackets and stops behind them. -/
theorem levels_follow (h : cs <:+ text.toList) (levels : Nat) :
    Follows text (passes text (levelsPass text) levels) cs
      (.ok (levels + (cs.takeWhile (· == '[')).length, cs.dropWhile (· == '['))) := by
  induction cs generalizing levels with
  | nil => exact .passes_end (.next (follows_peek h) (follows_pure _))
  | cons c rest ih =>
    have hrest : rest <:+ text.toList := (List.suffix_cons c rest).trans h
    -- one pass for each bracket, and one that ends the loop at the first other character
    by_cases hc : c = '['
    · subst hc
      have hpass : Follows text (levelsPass text levels) ('[' :: rest)
          (.ok (.inl (levels + 1), rest)) :=
        .next (follows_peek h) (.next (follows_advance_one rfl h) (follows_pure _))
      have hlevels : levels + 1 + (rest.takeWhile (· == '[')).length =
          levels + (('[' :: rest).takeWhile (· == '[')).length := by
        rw [List.takeWhile_cons_of_pos (by simp), List.length_cons]
        omega
      rw [← hlevels, List.dropWhile_cons_of_pos (by simp)]
      exact .passes_on hpass (positionOf_cons_lt h) (ih hrest (levels + 1))
    · have hbyte : firstByte c ≠ '[' := fun heq => hc ((firstByte_eq_iff rfl).mp heq)
      have hpass : Follows text (levelsPass text levels) (c :: rest)
          (.ok (.inr levels, c :: rest)) := by
        refine .next (follows_peek h) ?_
        rw [if_neg (by simpa using hbyte)]
        exact follows_pure _
      rw [List.takeWhile_cons_of_neg (by simpa using hc),
        List.dropWhile_cons_of_neg (by simpa using hc)]
      exact .passes_end hpass

/-- The two readers of field types go together. The dimensions are counted in a loop of their own.
-/
theorem fieldTypeInBytes_follows (h : cs <:+ text.toList) :
    Follows text (fieldTypeInBytes text) cs (readFieldType cs) := by
  unfold readFieldType
  refine .next (levels_follow h 0) ?_
  rw [Nat.zero_add]
  dsimp only
  split
  · exact follows_throw _
  · exact .map _ (baseTypeInBytes_follows ((List.dropWhile_suffix _).trans h))

/-! ## Parameters and results -/

/-- One pass over the parameters reads one type and goes on with it. -/
theorem parametersPass_follows (hc : c ≠ ')') (h : c :: cs <:+ text.toList)
    (read : List FieldType) : Follows text (parametersPass text read) (c :: cs)
      ((readFieldType (c :: cs)).map (Prod.map (fun type => .inl (type :: read)) id)) := by
  refine .next (follows_peek h) ?_
  dsimp only [List.head?_cons, Option.map_some]
  split
  · contradiction
  · next heq => exact absurd ((firstByte_eq_iff rfl).mp (Option.some.inj heq)) hc
  · exact .map _ (fieldTypeInBytes_follows h)

/-- Each parameter takes characters, so the position has moved when the next pass begins. -/
theorem parameters_follow (h : cs <:+ text.toList) (read : List FieldType) :
    Follows text (passes text (parametersPass text) read) cs (readParameters read cs) := by
  -- the cases are those of the reader by characters; the loop goes on where that one calls itself
  induction read, cs using readParameters.induct with
  | case1 read =>
    rw [readParameters]
    exact .passes_fault (.next (follows_peek h) (follows_throw _))
  | case2 read rest =>
    rw [readParameters]
    exact .passes_end
      (.next (follows_peek h) (.next (follows_advance_one rfl h) (follows_pure _)))
  | case3 read c cs hc fault hread =>
    have hpass := parametersPass_follows hc h read
    rw [hread] at hpass
    rw [readParameters_of_error hc hread]
    exact .passes_fault hpass
  | case4 read c cs hc type rest hread _ ih =>
    have hpass := parametersPass_follows hc h read
    have hrest := suffix_of_readFieldType hread
    have hlt := positionOf_lt h hrest (length_lt_of_readFieldType hread)
    rw [hread] at hpass
    rw [readParameters_of_ok hc hread]
    exact .passes_on hpass hlt (ih (hrest.trans h))

theorem returnTypeInBytes_follows (h : cs <:+ text.toList) :
    Follows text (returnTypeInBytes text) cs (readReturnType cs) := by
  refine .next (follows_peek h) ?_
  cases cs with
  | nil => exact follows_throw _
  | cons c cs =>
    by_cases hc : c = 'V'
    · subst hc
      exact .next (follows_advance_one rfl h) (follows_pure _)
    · rw [readReturnType.eq_3 _ (List.cons_ne_nil _ _) fun _ heq => hc (List.cons.inj heq).1]
      dsimp only [List.head?_cons, Option.map_some]
      split
      · contradiction
      · next heq => exact absurd ((firstByte_eq_iff rfl).mp (Option.some.inj heq)) hc
      · exact .map _ (fieldTypeInBytes_follows h)

/-! ## Whole descriptors -/

/-- That nothing is left can be seen at the position. -/
theorem end_follows {α : Type} (h : cs <:+ text.toList) (a : α) :
    Follows text (do if ← atEnd text then return a else throw .trailingCharacters) cs
      ((if cs.isEmpty then .ok a else .error .trailingCharacters : Except _ _).map (·, [])) := by
  refine .next (follows_atEnd h) ?_
  cases cs <;> rfl

theorem fieldDescriptorInBytes_follows (h : cs <:+ text.toList) :
    Follows text (fieldDescriptorInBytes text) cs ((readFieldDescriptor cs).map (·, [])) :=
  .bind (fieldTypeInBytes_follows h) fun type _ hread =>
    end_follows ((suffix_of_readFieldType hread).trans h) type

/-- The two readers of the descriptors of methods go together, up to the end of the text. -/
theorem methodDescriptorInBytes_follows (h : cs <:+ text.toList) :
    Follows text (methodDescriptorInBytes text) cs ((readMethodDescriptor cs).map (·, [])) := by
  refine .next (follows_peek h) ?_
  cases cs with
  | nil => exact follows_throw _
  | cons c cs =>
    have hcs : cs <:+ text.toList := (List.suffix_cons c cs).trans h
    by_cases hc : c = '('
    · subst hc
      refine .next (follows_advance_one rfl h) ?_
      refine .bind (parameters_follow hcs []) fun parameters rest hread => ?_
      have hrest := (suffix_of_readParameters hread).trans hcs
      refine .bind (returnTypeInBytes_follows hrest) fun result behind hread => ?_
      exact end_follows ((suffix_of_readReturnType hread).trans hrest) _
    · have hbyte : firstByte c ≠ '(' := fun heq => hc ((firstByte_eq_iff rfl).mp heq)
      rw [readMethodDescriptor.eq_2 _ fun _ heq => hc (List.cons.inj heq).1,
        if_neg (by simpa using hbyte)]
      exact follows_throw _

end ByteReader

open ByteReader

/-- The field type that a descriptor spells, read by bytes. -/
def FieldType.parseInBytes (text : String) : Except Slip (Except DescriptorError FieldType) :=
  return (← (fieldDescriptorInBytes text).run' 0).mapError (.field text)

/-- The parameters and result that a descriptor spells, read by bytes. -/
def MethodDescriptor.parseInBytes (text : String) :
    Except Slip (Except DescriptorError MethodDescriptor) :=
  return (← (methodDescriptorInBytes text).run' 0).mapError (.method text)

/-- Whatever the characters of a text are, reading it by bytes does not slip: the position stays in
the text, slices are cut between characters, and loops move on. So it comes to an end, and with the
same result or the same fault as reading the characters. -/
theorem parseInBytes_eq (text : String) :
    FieldType.parseInBytes text = .ok (FieldType.parse text) ∧
      MethodDescriptor.parseInBytes text = .ok (MethodDescriptor.parse text) := by
  have hfield := (fieldDescriptorInBytes_follows (List.suffix_refl text.toList)).run'
  have hmethod := (methodDescriptorInBytes_follows (List.suffix_refl text.toList)).run'
  constructor
  · exact congrArg (Except.map (Except.mapError (DescriptorError.field text))) hfield
  · exact congrArg (Except.map (Except.mapError (DescriptorError.method text))) hmethod

/-- The reader gives up behind the first of two bytes. -/
example : MethodDescriptor.parseInBytes "([Jé)V" =
    .ok (.error (.method "([Jé)V" .unknownType)) := by decide +kernel

/-- A name that began at the second of two bytes could not be cut out. -/
example : (classNameInBytes "é;" 1).run = .error (.noBoundary 1) := by decide +kernel

end JvmStub
