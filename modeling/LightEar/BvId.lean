import LightEar.Foundation.Utf8

/-!
# Finding the id of a video in a text

`extractBvid` looks for the id of a video among the bytes of a text.  Every access to a byte is
one that may fail here, and so is every slice: an outcome of `none` is a panic.

Nothing fails, and an id is found exactly if the text has one, which is then the first
(`extractBvid_exact`).  An id is made of ASCII characters, so that the bytes of the text are cut
between its characters (`BvidParts.exists_encode_eq`).
-/

namespace LightEar

open Foundation

/-! ## The search -/

/-- The number of bytes of an id. -/
def bvidLen : Nat := 12

/-- `b'B' | b'b'`. -/
def isLetterB (code : Nat) : Bool := code == 66 || code == 98

/-- `b'V' | b'v'`. -/
def isLetterV (code : Nat) : Bool := code == 86 || code == 118

/-- `u8::is_ascii_alphanumeric`. -/
def isAsciiAlphanumeric (code : Nat) : Bool :=
  (48 ≤ code && code ≤ 57) || (65 ≤ code && code ≤ 90) || (97 ≤ code && code ≤ 122)

/-- What an id must not be next to. -/
def isBvidBoundaryByte (byte : UInt8) : Bool := isAsciiAlphanumeric byte.toNat

/-- A slice, which panics if it is out of range. -/
def bytesBetween (bytes : List UInt8) (start stop : Nat) : Option (List UInt8) :=
  if start ≤ stop ∧ stop ≤ bytes.length then some ((bytes.drop start).take (stop - start))
  else none

/-- Whether an id may begin at a start: at the front, or behind what is no letter or digit. -/
def beforeOk (bytes : List UInt8) (start : Nat) : Option Bool :=
  if start = 0 then some true else bytes[start - 1]?.map fun byte => !isBvidBoundaryByte byte

/-- Whether an id may end at a stop. -/
def afterOk (bytes : List UInt8) (stop : Nat) : Option Bool :=
  if stop = bytes.length then some true else bytes[stop]?.map fun byte => !isBvidBoundaryByte byte

/-- What one turn of the loop does. -/
inductive BvidStep
  /-- The next start is looked at. -/
  | goesOn
  /-- The search is over. -/
  | returns (result : Option String)
  deriving DecidableEq, Repr

/-- One turn of the loop. -/
def bvidAt (bytes : List UInt8) (start : Nat) : Option BvidStep := do
  let b ← bytes[start]?
  if !isLetterB b.toNat then
    return .goesOn
  let v ← bytes[start + 1]?
  if !isLetterV v.toNat then
    return .goesOn
  let stop := start + bvidLen
  let suffix ← bytesBetween bytes (start + 2) stop
  if !suffix.all fun byte => isAsciiAlphanumeric byte.toNat then
    return .goesOn
  let before ← beforeOk bytes start
  let after ← afterOk bytes stop
  if !before || !after then
    return .goesOn
  return .returns ((String.fromUTF8? suffix.toByteArray).map fun suffix => "BV" ++ suffix)

/-- The loop over the starts. -/
def searchBvid (bytes : List UInt8) : List Nat → Option (Option String)
  | [] => some none
  | start :: starts =>
    match bvidAt bytes start with
    | none => none
    | some .goesOn => searchBvid bytes starts
    | some (.returns result) => some result

/-- The id in a text, in the upper case of its first two letters. -/
def extractBvid (text : String) : Option (Option String) :=
  let bytes := Utf8.bytes text
  if bytes.length < bvidLen then some none
  else searchBvid bytes (List.range (bytes.length - bvidLen + 1))

/-! ## Ids -/

/-- A text with two letters and ten more marked in it. -/
structure BvidParts (α : Type) where
  /-- What comes before them. -/
  before : List α
  /-- The first letter. -/
  b : α
  /-- The second letter. -/
  v : α
  /-- The others. -/
  suffix : List α
  /-- What comes after them. -/
  after : List α
  deriving DecidableEq, Repr

namespace BvidParts

variable {α : Type}

/-- The text. -/
def whole (parts : BvidParts α) : List α :=
  parts.before ++ parts.b :: parts.v :: (parts.suffix ++ parts.after)

/-- What is marked is an id that is not a part of a longer word. -/
structure IsBvid (code : α → Nat) (parts : BvidParts α) : Prop where
  /-- The first letter is a B. -/
  b : isLetterB (code parts.b) = true
  /-- The second letter is a V. -/
  v : isLetterV (code parts.v) = true
  /-- There are ten others. -/
  length_suffix : parts.suffix.length = 10
  /-- They are letters or digits. -/
  suffix : ∀ a ∈ parts.suffix, isAsciiAlphanumeric (code a) = true
  /-- There is no letter and no digit before. -/
  before : (parts.before.getLast?.any fun a => isAsciiAlphanumeric (code a)) = false
  /-- There is none after. -/
  after : (parts.after.head?.any fun a => isAsciiAlphanumeric (code a)) = false

instance (code : α → Nat) (parts : BvidParts α) : Decidable (parts.IsBvid code) :=
  decidable_of_iff
    (isLetterB (code parts.b) = true ∧ isLetterV (code parts.v) = true ∧
      parts.suffix.length = 10 ∧ (∀ a ∈ parts.suffix, isAsciiAlphanumeric (code a) = true) ∧
      (parts.before.getLast?.any fun a => isAsciiAlphanumeric (code a)) = false ∧
      (parts.after.head?.any fun a => isAsciiAlphanumeric (code a)) = false)
    ⟨fun ⟨hb, hv, hlength, hsuffix, hbefore, hafter⟩ =>
        ⟨hb, hv, hlength, hsuffix, hbefore, hafter⟩,
      fun h => ⟨h.b, h.v, h.length_suffix, h.suffix, h.before, h.after⟩⟩

/-- What is marked is the first id of a text. -/
structure IsFirst (code : α → Nat) (text : List α) (parts : BvidParts α) : Prop where
  /-- The text is the one that is marked. -/
  whole : parts.whole = text
  /-- It is an id. -/
  isBvid : parts.IsBvid code
  /-- No id comes earlier. -/
  first : ∀ other : BvidParts α, other.whole = text → other.IsBvid code →
    parts.before.length ≤ other.before.length

end BvidParts

/-! ## One turn -/

namespace BvidParts

variable {α : Type}

/-- The first letter is found behind what comes before it. -/
theorem getElem?_b (parts : BvidParts α) : parts.whole[parts.before.length]? = some parts.b := by
  rw [whole, List.getElem?_append_right (Nat.le_refl _), Nat.sub_self]
  rfl

/-- The second letter is found next. -/
theorem getElem?_v (parts : BvidParts α) :
    parts.whole[parts.before.length + 1]? = some parts.v := by
  rw [whole, List.getElem?_append_right (Nat.le_add_right _ _), Nat.add_sub_cancel_left]
  rfl

/-- What comes before is found in front. -/
theorem getElem?_before (parts : BvidParts α) (h : parts.before.length ≠ 0) :
    parts.whole[parts.before.length - 1]? = parts.before.getLast? := by
  rw [whole, List.getElem?_append_left (by omega), List.getLast?_eq_getElem?]

/-- The text is that much longer than what comes before. -/
theorem length_whole (parts : BvidParts α) :
    parts.whole.length =
      parts.before.length + (2 + (parts.suffix.length + parts.after.length)) := by
  simp only [whole, List.length_append, List.length_cons]
  omega

/-- Behind the two letters. -/
theorem drop_whole (parts : BvidParts α) (n : Nat) :
    parts.whole.drop (parts.before.length + (2 + n)) = (parts.suffix ++ parts.after).drop n := by
  rw [whole, List.drop_append, List.drop_eq_nil_of_le (Nat.le_add_right _ _), List.nil_append,
    Nat.add_sub_cancel_left, Nat.add_comm 2 n]
  rfl

/-- What comes after is found behind. -/
theorem getElem?_after (parts : BvidParts α) :
    parts.whole[parts.before.length + (2 + parts.suffix.length)]? = parts.after.head? := by
  rw [← List.head?_drop, drop_whole, List.drop_left]

end BvidParts

/-- The others are the slice behind the two letters. -/
theorem bytesBetween_suffix (parts : BvidParts UInt8) :
    bytesBetween parts.whole (parts.before.length + 2)
      (parts.before.length + (2 + parts.suffix.length)) = some parts.suffix := by
  have hdrop := parts.drop_whole 0
  have hinside : parts.before.length + 2 ≤ parts.before.length + (2 + parts.suffix.length) ∧
      parts.before.length + (2 + parts.suffix.length) ≤ parts.whole.length := by
    rw [parts.length_whole]
    omega
  have hcount : parts.before.length + (2 + parts.suffix.length) - (parts.before.length + 2) =
      parts.suffix.length := by
    omega
  rw [Nat.add_zero, List.drop_zero] at hdrop
  rw [bytesBetween, if_pos hinside, hdrop, hcount, List.take_left]

/-- An id may begin at the mark exactly if there is no letter and no digit before. -/
theorem beforeOk_parts (parts : BvidParts UInt8) :
    beforeOk parts.whole parts.before.length =
      some !(parts.before.getLast?.any fun byte => isAsciiAlphanumeric byte.toNat) := by
  unfold beforeOk
  split_ifs with hzero
  · rw [List.length_eq_zero_iff.1 hzero]
    rfl
  · have hne : parts.before ≠ [] := fun hnil => hzero (List.length_eq_zero_iff.2 hnil)
    rw [parts.getElem?_before hzero, List.getLast?_eq_some_getLast hne]
    rfl

/-- It may end there exactly if there is none after. -/
theorem afterOk_parts (parts : BvidParts UInt8) :
    afterOk parts.whole (parts.before.length + (2 + parts.suffix.length)) =
      some !(parts.after.head?.any fun byte => isAsciiAlphanumeric byte.toNat) := by
  unfold afterOk
  split_ifs with hend
  · rw [parts.length_whole] at hend
    rw [List.length_eq_zero_iff.1 (show parts.after.length = 0 by omega)]
    rfl
  · have hne : parts.after ≠ [] := by
      intro hnil
      rw [parts.length_whole, hnil] at hend
      exact hend rfl
    rw [parts.getElem?_after, List.head?_eq_some_head hne]
    rfl

/-- One turn of the loop ends it exactly at an id. -/
theorem bvidAt_parts {parts : BvidParts UInt8} (h : parts.suffix.length = 10) :
    bvidAt parts.whole parts.before.length =
      some (if parts.IsBvid UInt8.toNat then
        .returns ((String.fromUTF8? parts.suffix.toByteArray).map fun suffix => "BV" ++ suffix)
      else .goesOn) := by
  have hstop : parts.before.length + bvidLen = parts.before.length + (2 + parts.suffix.length) := by
    rw [h]
    rfl
  unfold bvidAt
  simp only [parts.getElem?_b, parts.getElem?_v, hstop, bytesBetween_suffix, beforeOk_parts,
    afterOk_parts, Option.bind_eq_bind, Option.bind_some, Option.pure_def, Bool.not_eq_true',
    Bool.or_eq_true]
  by_cases hbvid : parts.IsBvid UInt8.toNat
  · have hall : (parts.suffix.all fun byte => isAsciiAlphanumeric byte.toNat) = true :=
      List.all_eq_true.2 hbvid.suffix
    simp [hbvid, hbvid.b, hbvid.v, hall, hbvid.before, hbvid.after]
  · -- one of the tests fails
    rw [if_neg hbvid]
    split_ifs with hb hv hall hends <;> try rfl
    obtain ⟨hbefore, hafter⟩ := not_or.1 hends
    refine absurd ⟨by simpa using hb, by simpa using hv, h, ?_, ?_, ?_⟩ hbvid
    · simpa using hall
    · simpa using hbefore
    · simpa using hafter

/-! ## The loop -/

namespace BvidParts

variable {α : Type}

/-- Any start that leaves room for an id marks ten characters. -/
theorem exists_at (text : List α) (start : Nat) (h : start + bvidLen ≤ text.length) :
    ∃ parts : BvidParts α, parts.whole = text ∧ parts.before.length = start ∧
      parts.suffix.length = 10 := by
  have hlen : bvidLen = 12 := rfl
  obtain ⟨b, rest, hb⟩ : ∃ b rest, text.drop start = b :: rest := by
    refine List.exists_cons_of_length_pos ?_
    rw [List.length_drop]
    omega
  obtain ⟨v, rest, rfl⟩ : ∃ v rest', rest = v :: rest' := by
    refine List.exists_cons_of_length_pos ?_
    have hlength := congrArg List.length hb
    rw [List.length_drop, List.length_cons] at hlength
    omega
  have hlength := congrArg List.length hb
  rw [List.length_drop, List.length_cons, List.length_cons] at hlength
  refine ⟨⟨text.take start, b, v, rest.take 10, rest.drop 10⟩, ?_, ?_, ?_⟩
  · rw [whole, List.take_append_drop, ← hb, List.take_append_drop]
  · exact List.length_take_of_le (by omega)
  · exact List.length_take_of_le (by omega)

/-- Two marks of the same text at the same place are the same. -/
theorem eq_of_before {parts other : BvidParts α} (hwhole : parts.whole = other.whole)
    (hlength : parts.suffix.length = other.suffix.length)
    (hbefore : parts.before.length = other.before.length) : parts = other := by
  obtain ⟨hbefore, hrest⟩ := List.append_inj hwhole hbefore
  obtain ⟨hb, hrest⟩ := List.cons.inj hrest
  obtain ⟨hv, hrest⟩ := List.cons.inj hrest
  obtain ⟨hsuffix, hafter⟩ := List.append_inj hrest hlength
  cases parts
  cases other
  subst hbefore hb hv hsuffix hafter
  rfl

/-- An id leaves room for itself. -/
theorem IsBvid.room {code : α → Nat} {parts : BvidParts α} (h : parts.IsBvid code) :
    parts.before.length + bvidLen ≤ parts.whole.length := by
  have hlen : bvidLen = 12 := rfl
  rw [parts.length_whole, h.length_suffix]
  omega

/-- There is only one first id. -/
theorem IsFirst.unique {code : α → Nat} {text : List α} {parts other : BvidParts α}
    (h : parts.IsFirst code text) (h' : other.IsFirst code text) : parts = other := by
  refine eq_of_before (h.whole.trans h'.whole.symm) ?_ ?_
  · rw [h.isBvid.length_suffix, h'.isBvid.length_suffix]
  · exact Nat.le_antisymm (h.first other h'.whole h'.isBvid) (h'.first parts h.whole h.isBvid)

end BvidParts

/-- The loop finds the first id of those that begin at its starts or later. -/
theorem searchBvid_spec (bytes : List UInt8) (start count : Nat)
    (hroom : start + count + bvidLen ≤ bytes.length + 1)
    (hlast : bytes.length < start + count + bvidLen)
    (hstart : ∀ parts : BvidParts UInt8, parts.whole = bytes → parts.IsBvid UInt8.toNat →
      start ≤ parts.before.length) :
    (∃ parts : BvidParts UInt8, parts.IsFirst UInt8.toNat bytes ∧
        searchBvid bytes (List.range' start count) =
          some ((String.fromUTF8? parts.suffix.toByteArray).map fun suffix => "BV" ++ suffix)) ∨
      ((¬ ∃ parts : BvidParts UInt8, parts.whole = bytes ∧ parts.IsBvid UInt8.toNat) ∧
        searchBvid bytes (List.range' start count) = some none) := by
  induction count generalizing start with
  | zero =>
    refine .inr ⟨?_, rfl⟩
    rintro ⟨parts, rfl, hbvid⟩
    have hle := hstart parts rfl hbvid
    have hfits := hbvid.room
    omega
  | succ count ih =>
    obtain ⟨parts, rfl, rfl, hlength⟩ := BvidParts.exists_at bytes start (by omega)
    have hturn := bvidAt_parts hlength
    rw [List.range'_succ]
    by_cases hbvid : parts.IsBvid UInt8.toNat
    · rw [if_pos hbvid] at hturn
      refine .inl ⟨parts, ⟨rfl, hbvid, hstart⟩, ?_⟩
      rw [searchBvid, hturn]
    · -- the id, if there is one, begins later
      rw [if_neg hbvid] at hturn
      rw [searchBvid, hturn]
      refine ih (parts.before.length + 1) (by omega) (by omega) fun other hwhole hother => ?_
      have hle := hstart other hwhole hother
      have hne : parts.before.length ≠ other.before.length := by
        intro heq
        have hsame := BvidParts.eq_of_before hwhole.symm
          (hlength.trans hother.length_suffix.symm) heq
        exact hbvid (hsame ▸ hother)
      omega

/-! ## Characters -/

/-- Letters and digits are ASCII characters. -/
theorem ascii_isAsciiAlphanumeric : Utf8.Ascii isAsciiAlphanumeric := by
  intro code h
  simp only [isAsciiAlphanumeric, Bool.or_eq_true, Bool.and_eq_true, decide_eq_true_eq] at h
  omega

theorem ascii_isLetterB : Utf8.Ascii isLetterB := by
  intro code h
  simp only [isLetterB, Bool.or_eq_true, beq_iff_eq] at h
  omega

theorem ascii_isLetterV : Utf8.Ascii isLetterV := by
  intro code h
  simp only [isLetterV, Bool.or_eq_true, beq_iff_eq] at h
  omega

namespace BvidParts

/-- The same mark among the bytes of a text. -/
def encode (parts : BvidParts Char) : BvidParts UInt8 where
  before := Utf8.encode parts.before
  b := UInt8.ofNat parts.b.toNat
  v := UInt8.ofNat parts.v.toNat
  suffix := Utf8.asciiBytes parts.suffix
  after := Utf8.encode parts.after

/-- An id is an id among the bytes as well, and the bytes are those of the text. -/
theorem IsBvid.encode {parts : BvidParts Char} (h : parts.IsBvid Char.toNat) :
    parts.encode.IsBvid UInt8.toNat ∧ parts.encode.whole = Utf8.encode parts.whole := by
  have hb := ascii_isLetterB _ h.b
  have hv := ascii_isLetterV _ h.v
  have hsuffix : ∀ c ∈ parts.suffix, c.toNat < 128 := fun c hc =>
    ascii_isAsciiAlphanumeric _ (h.suffix c hc)
  refine ⟨⟨?_, ?_, ?_, ?_, ?_, ?_⟩, ?_⟩
  · exact (congrArg isLetterB (Utf8.toNat_ofNat hb)).trans h.b
  · exact (congrArg isLetterV (Utf8.toNat_ofNat hv)).trans h.v
  · exact (List.length_map _).trans h.length_suffix
  · intro byte hbyte
    obtain ⟨c, hc, rfl⟩ := List.mem_map.1 hbyte
    rw [Utf8.toNat_ofNat (hsuffix c hc)]
    exact h.suffix c hc
  · exact (Utf8.any_getLast?_encode ascii_isAsciiAlphanumeric _).trans h.before
  · exact (Utf8.any_head?_encode ascii_isAsciiAlphanumeric _).trans h.after
  · have hletters : Utf8.encode [parts.b, parts.v] = Utf8.asciiBytes [parts.b, parts.v] :=
      Utf8.encode_eq_asciiBytes (by simp [hb, hv])
    have hwhole : parts.whole = parts.before ++ [parts.b, parts.v] ++
        (parts.suffix ++ parts.after) := by
      simp [whole]
    rw [hwhole, Utf8.encode_append, Utf8.encode_append, Utf8.encode_append, hletters,
      Utf8.encode_eq_asciiBytes hsuffix]
    simp [whole, BvidParts.encode, Utf8.asciiBytes]

/-- An id among the bytes of a text is one of the text. -/
theorem exists_encode_eq {text : List Char} {marked : BvidParts UInt8}
    (hwhole : marked.whole = Utf8.encode text) (h : marked.IsBvid UInt8.toNat) :
    ∃ parts : BvidParts Char, parts.whole = text ∧ parts.IsBvid Char.toNat ∧
      parts.encode = marked := by
  obtain ⟨before, b, rest, rfl, hbefore, hrest, hb, hbyte⟩ :=
    Utf8.split_of_ascii (ascii_isLetterB _ h.b) hwhole.symm
  have hascii : ∀ byte ∈ marked.v :: marked.suffix, byte.toNat < 128 := by
    intro byte hmem
    rcases List.mem_cons.1 hmem with rfl | hmem
    · exact ascii_isLetterV _ h.v
    · exact ascii_isAsciiAlphanumeric _ (h.suffix byte hmem)
  obtain ⟨first, after, rfl, hfirst, hfirstAscii, hafter⟩ :=
    Utf8.split_prefix_of_ascii hascii hrest
  cases first with
  | nil => cases hfirst
  | cons v suffix =>
    obtain ⟨hv, hsuffix⟩ := List.cons.inj hfirst
    have hencode : (⟨before, b, v, suffix, after⟩ : BvidParts Char).encode = marked := by
      obtain ⟨markedBefore, markedB, markedV, markedSuffix, markedAfter⟩ := marked
      dsimp only at hbefore hbyte hv hsuffix hafter
      subst hbefore hbyte hv hsuffix hafter
      rfl
    refine ⟨⟨before, b, v, suffix, after⟩, rfl, ?_, hencode⟩
    subst hencode
    have hvAscii := hfirstAscii v List.mem_cons_self
    refine ⟨?_, ?_, ?_, ?_, ?_, ?_⟩
    · exact (congrArg isLetterB (Utf8.toNat_ofNat hb)).symm.trans h.b
    · exact (congrArg isLetterV (Utf8.toNat_ofNat hvAscii)).symm.trans h.v
    · exact (List.length_map _).symm.trans h.length_suffix
    · intro c hc
      have hcode := h.suffix _ (List.mem_map_of_mem hc)
      rwa [Utf8.toNat_ofNat (hfirstAscii c (List.mem_cons_of_mem _ hc))] at hcode
    · exact (Utf8.any_getLast?_encode ascii_isAsciiAlphanumeric _).symm.trans h.before
    · exact (Utf8.any_head?_encode ascii_isAsciiAlphanumeric _).symm.trans h.after

/-- The first id among the bytes of a text is the first one of the text. -/
theorem isFirst_of_encode {text : List Char} {parts : BvidParts Char} (hwhole : parts.whole = text)
    (hbvid : parts.IsBvid Char.toNat)
    (h : parts.encode.IsFirst UInt8.toNat (Utf8.encode text)) :
    parts.IsFirst Char.toNat text where
  whole := hwhole
  isBvid := hbvid
  first := by
    intro other hother hotherBvid
    obtain ⟨hencoded, hbytes⟩ := hotherBvid.encode
    have hle := h.first other.encode (hbytes.trans (congrArg Utf8.encode hother)) hencoded
    by_contra hlt
    -- the text before the other id would be a part of that before the first
    have hfront : other.before <+: text := ⟨_, hother⟩
    have hlonger : parts.before <+: text := ⟨_, hwhole⟩
    obtain ⟨rest, hrest⟩ := List.prefix_of_prefix_length_le hfront hlonger (by omega)
    have hne : rest ≠ [] := by
      rintro rfl
      rw [List.append_nil] at hrest
      rw [hrest] at hlt
      exact hlt (Nat.le_refl _)
    have hshorter := Utf8.length_encode_lt (l := other.before) hne
    rw [hrest] at hshorter
    exact absurd hle (Nat.not_le.2 hshorter)

/-- The other characters of an id are read from their bytes. -/
theorem IsBvid.fromUTF8?_suffix {parts : BvidParts Char} (h : parts.IsBvid Char.toNat) :
    String.fromUTF8? parts.encode.suffix.toByteArray = some (String.ofList parts.suffix) := by
  have hsuffix : ∀ c ∈ parts.suffix, c.toNat < 128 := fun c hc =>
    ascii_isAsciiAlphanumeric _ (h.suffix c hc)
  rw [← Utf8.fromUTF8?_encode, Utf8.encode_eq_asciiBytes hsuffix]
  rfl

/-- The id itself. -/
def bvid (parts : BvidParts Char) : String := "BV" ++ String.ofList parts.suffix

end BvidParts

/-- The first id of a text is found, or there is none. -/
theorem extractBvid_spec (text : String) :
    (∃ parts : BvidParts Char, parts.IsFirst Char.toNat text.toList ∧
        extractBvid text = some (some parts.bvid)) ∨
      ((¬ ∃ parts : BvidParts Char, parts.whole = text.toList ∧ parts.IsBvid Char.toNat) ∧
        extractBvid text = some none) := by
  have hnone : (¬ ∃ marked : BvidParts UInt8, marked.whole = Utf8.encode text.toList ∧
      marked.IsBvid UInt8.toNat) →
      ¬ ∃ parts : BvidParts Char, parts.whole = text.toList ∧ parts.IsBvid Char.toNat := by
    rintro h ⟨parts, hwhole, hbvid⟩
    obtain ⟨hencoded, hbytes⟩ := hbvid.encode
    exact h ⟨parts.encode, hbytes.trans (congrArg Utf8.encode hwhole), hencoded⟩
  unfold extractBvid
  rw [Utf8.bytes_eq]
  dsimp only
  split_ifs with hshort
  · refine .inr ⟨hnone ?_, rfl⟩
    rintro ⟨marked, hwhole, hbvid⟩
    have hroom := hbvid.room
    rw [hwhole] at hroom
    omega
  · rw [List.range_eq_range']
    rcases searchBvid_spec (Utf8.encode text.toList) 0
      ((Utf8.encode text.toList).length - bvidLen + 1) (by omega) (by omega)
      (fun _ _ _ => Nat.zero_le _) with ⟨marked, hfirst, hfound⟩ | ⟨hnot, hfound⟩
    · obtain ⟨parts, hwhole, hbvid, rfl⟩ := BvidParts.exists_encode_eq hfirst.whole hfirst.isBvid
      refine .inl ⟨parts, BvidParts.isFirst_of_encode hwhole hbvid hfirst, ?_⟩
      rw [hfound, hbvid.fromUTF8?_suffix]
      rfl
    · exact .inr ⟨hnone hnot, hfound⟩

/-- An id alone is an id. -/
theorem BvidParts.IsBvid.isFirst_alone {parts : BvidParts Char} (h : parts.IsBvid Char.toNat) :
    (⟨[], 'B', 'V', parts.suffix, []⟩ : BvidParts Char).IsFirst Char.toNat parts.bvid.toList where
  whole := by simp [whole, bvid]
  isBvid := ⟨rfl, rfl, h.length_suffix, h.suffix, rfl, rfl⟩
  first := fun _ _ _ => Nat.zero_le _

/-- The search never panics, it finds exactly the first id of a text, and it finds nothing only
where there is no id; the id that it returns is one that it finds again. -/
theorem extractBvid_exact (text : String) :
    (∃ result, extractBvid text = some result) ∧
      (∀ bvid, extractBvid text = some (some bvid) ↔
        ∃ parts : BvidParts Char, parts.IsFirst Char.toNat text.toList ∧ bvid = parts.bvid) ∧
      (extractBvid text = some none ↔
        ¬ ∃ parts : BvidParts Char, parts.whole = text.toList ∧ parts.IsBvid Char.toNat) ∧
      ∀ bvid, extractBvid text = some (some bvid) → extractBvid bvid = some (some bvid) := by
  have hfirst : ∀ {text : String} {parts : BvidParts Char},
      parts.IsFirst Char.toNat text.toList → extractBvid text = some (some parts.bvid) := by
    intro text parts hparts
    rcases extractBvid_spec text with ⟨found, hfound, hresult⟩ | ⟨hnot, -⟩
    · rw [hparts.unique hfound]
      exact hresult
    · exact absurd ⟨parts, hparts.whole, hparts.isBvid⟩ hnot
  have hiff : ∀ bvid, extractBvid text = some (some bvid) ↔
      ∃ parts : BvidParts Char, parts.IsFirst Char.toNat text.toList ∧ bvid = parts.bvid := by
    intro bvid
    constructor
    · intro h
      rcases extractBvid_spec text with ⟨found, hfound, hresult⟩ | ⟨-, hresult⟩
      · rw [h] at hresult
        exact ⟨found, hfound, Option.some.inj (Option.some.inj hresult)⟩
      · rw [h] at hresult
        cases hresult
    · rintro ⟨parts, hparts, rfl⟩
      exact hfirst hparts
  refine ⟨?_, hiff, ?_, ?_⟩
  · rcases extractBvid_spec text with ⟨parts, -, hresult⟩ | ⟨-, hresult⟩
    · exact ⟨_, hresult⟩
    · exact ⟨_, hresult⟩
  · rcases extractBvid_spec text with ⟨parts, hparts, hresult⟩ | ⟨hnot, hresult⟩
    · have hexists : ∃ parts : BvidParts Char, parts.whole = text.toList ∧
          parts.IsBvid Char.toNat := ⟨parts, hparts.whole, hparts.isBvid⟩
      simp [hresult, hexists]
    · simp [hresult, hnot]
  · intro bvid h
    obtain ⟨parts, hparts, rfl⟩ := (hiff bvid).1 h
    have halone := hfirst hparts.isBvid.isFirst_alone
    exact halone

end LightEar
