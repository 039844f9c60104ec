import Mathlib.Data.List.Basic

/-!
# Texts as bytes

In UTF-8 an ASCII character is one byte, and every byte of any other character is at least 128
(`encodeChar_cases`).  So an ASCII byte found among the bytes of a text is a character of the
text, and cuts the text where it cuts the bytes (`split_of_ascii`).
-/

namespace Foundation

namespace Utf8

/-- The bytes of characters. -/
def encode (l : List Char) : List UInt8 := l.flatMap String.utf8EncodeChar

@[simp] theorem encode_nil : encode [] = [] := rfl

theorem encode_cons (c : Char) (l : List Char) :
    encode (c :: l) = String.utf8EncodeChar c ++ encode l := List.flatMap_cons

theorem encode_append (l l' : List Char) : encode (l ++ l') = encode l ++ encode l' :=
  List.flatMap_append

/-- The bytes of a text. -/
def bytes (s : String) : List UInt8 := s.toUTF8.data.toList

/-- They are those of its characters. -/
theorem bytes_eq (s : String) : bytes s = encode s.toList := by
  obtain ⟨l, rfl⟩ := s.exists_eq_ofList
  simp [bytes, encode, List.utf8Encode]

/-- An ASCII character is one byte, and no other character has an ASCII byte. -/
theorem encodeChar_cases (c : Char) :
    (c.toNat < 128 ∧ String.utf8EncodeChar c = [UInt8.ofNat c.toNat]) ∨
      (128 ≤ c.toNat ∧ ∀ byte ∈ String.utf8EncodeChar c, 128 ≤ byte.toNat) := by
  have hval : c.toNat = c.val.toNat := rfl
  rw [hval]
  unfold String.utf8EncodeChar
  dsimp only
  generalize c.val.toNat = v
  split_ifs with hone htwo hthree
  · exact .inl ⟨by omega, rfl⟩
  · refine .inr ⟨by omega, ?_⟩
    simp only [List.forall_mem_cons, UInt8.toNat_ofNat']
    exact ⟨by omega, by omega, nofun⟩
  · refine .inr ⟨by omega, ?_⟩
    simp only [List.forall_mem_cons, UInt8.toNat_ofNat']
    exact ⟨by omega, by omega, by omega, nofun⟩
  · refine .inr ⟨by omega, ?_⟩
    simp only [List.forall_mem_cons, UInt8.toNat_ofNat']
    exact ⟨by omega, by omega, by omega, by omega, nofun⟩

/-- The byte of an ASCII character has its value. -/
theorem toNat_ofNat {c : Char} (h : c.toNat < 128) : (UInt8.ofNat c.toNat).toNat = c.toNat := by
  rw [UInt8.toNat_ofNat']
  exact Nat.mod_eq_of_lt (by omega)

/-- An ASCII byte is a character of the text, and cuts the text where it cuts the bytes. -/
theorem split_of_ascii {l : List Char} {front back : List UInt8} {byte : UInt8}
    (hbyte : byte.toNat < 128) (h : encode l = front ++ byte :: back) :
    ∃ (before : List Char) (c : Char) (after : List Char), l = before ++ c :: after ∧
      encode before = front ∧ encode after = back ∧ c.toNat < 128 ∧
        byte = UInt8.ofNat c.toNat := by
  induction l generalizing front with
  | nil => simp at h
  | cons c l ih =>
    rw [encode_cons] at h
    have hlater : ∀ rest, front = String.utf8EncodeChar c ++ rest →
        encode l = rest ++ byte :: back →
        ∃ (before : List Char) (c' : Char) (after : List Char), c :: l = before ++ c' :: after ∧
          encode before = front ∧ encode after = back ∧ c'.toNat < 128 ∧
            byte = UInt8.ofNat c'.toNat := by
      rintro rest rfl hrest
      obtain ⟨before, c', after, rfl, rfl, hafter, hc'⟩ := ih hrest
      exact ⟨c :: before, c', after, rfl, encode_cons c before, hafter, hc'⟩
    rcases List.append_eq_append_iff.1 h with ⟨rest, hfront, hrest⟩ | ⟨rest, hc, hrest⟩
    · exact hlater rest hfront hrest
    · cases rest with
      | nil =>
        refine hlater [] (by simpa using hc.symm) (by simpa using hrest.symm)
      | cons first rest =>
        -- the byte is one of the first character's, which is then an ASCII character
        obtain ⟨rfl, hback⟩ := List.cons.inj hrest
        rcases encodeChar_cases c with ⟨hascii, hone⟩ | ⟨-, hlarge⟩
        · rw [hone] at hc
          have hfront : front = [] ∧ rest = [] ∧ byte = UInt8.ofNat c.toNat := by
            cases front with
            | nil =>
              obtain ⟨hvalue, hrest⟩ := List.cons.inj hc
              exact ⟨rfl, hrest.symm, hvalue.symm⟩
            | cons a front => simp at hc
          obtain ⟨rfl, rfl, hvalue⟩ := hfront
          exact ⟨[], c, l, rfl, rfl, hback.symm, hascii, hvalue⟩
        · have hmem : byte ∈ String.utf8EncodeChar c := by
            rw [hc]
            exact List.mem_append_right _ List.mem_cons_self
          have hle := hlarge byte hmem
          omega

/-- The bytes of ASCII characters. -/
def asciiBytes (l : List Char) : List UInt8 := l.map fun c => UInt8.ofNat c.toNat

/-- ASCII characters are one byte each. -/
theorem encode_eq_asciiBytes {l : List Char} (h : ∀ c ∈ l, c.toNat < 128) :
    encode l = asciiBytes l := by
  induction l with
  | nil => rfl
  | cons c l ih =>
    have hl := ih fun c hc => h c (List.mem_cons_of_mem _ hc)
    rcases encodeChar_cases c with ⟨-, hone⟩ | ⟨hlarge, -⟩
    · rw [encode_cons, hone, hl]
      rfl
    · have hascii := h c List.mem_cons_self
      omega

/-- ASCII bytes at the front of a text are its first characters. -/
theorem split_prefix_of_ascii {l : List Char} {front back : List UInt8}
    (hfront : ∀ byte ∈ front, byte.toNat < 128) (h : encode l = front ++ back) :
    ∃ (first rest : List Char), l = first ++ rest ∧ asciiBytes first = front ∧
      (∀ c ∈ first, c.toNat < 128) ∧ encode rest = back := by
  induction front generalizing l with
  | nil => exact ⟨[], l, rfl, rfl, nofun, h⟩
  | cons byte front ih =>
    have hsplit : encode l = [] ++ byte :: (front ++ back) := h
    obtain ⟨before, c, after, rfl, hbefore, hafter, hc, hvalue⟩ :=
      split_of_ascii (hfront byte List.mem_cons_self) hsplit
    obtain ⟨first, rest, rfl, hfirst, hascii, hrest⟩ :=
      ih (fun byte hbyte => hfront byte (List.mem_cons_of_mem _ hbyte)) hafter
    have hnil : before = [] := by
      cases before with
      | nil => rfl
      | cons c before =>
        rw [encode_cons] at hbefore
        exact absurd (List.append_eq_nil_iff.1 hbefore).1 String.utf8EncodeChar_ne_nil
    subst hnil
    refine ⟨c :: first, rest, rfl, ?_, ?_, hrest⟩
    · rw [← hfirst, hvalue]
      rfl
    · intro d hd
      rcases List.mem_cons.1 hd with rfl | hd
      · exact hc
      · exact hascii d hd

/-! ## Ends -/

/-- A set of ASCII values. -/
def Ascii (p : Nat → Bool) : Prop := ∀ n, p n = true → n < 128

/-- Each byte of a character is in a set of ASCII values exactly if the character is. -/
theorem eq_of_mem_encodeChar {p : Nat → Bool} (hp : Ascii p) {c : Char} {byte : UInt8}
    (h : byte ∈ String.utf8EncodeChar c) : p byte.toNat = p c.toNat := by
  rcases encodeChar_cases c with ⟨hascii, hone⟩ | ⟨hlarge, hbytes⟩
  · rw [hone, List.mem_singleton] at h
    rw [h, toNat_ofNat hascii]
  · have hle := hbytes byte h
    have hbyte : p byte.toNat = false := Bool.eq_false_iff.2 fun h => by
      have hlt := hp _ h
      omega
    have hchar : p c.toNat = false := Bool.eq_false_iff.2 fun h => by
      have hlt := hp _ h
      omega
    rw [hbyte, hchar]

/-- The first byte of a text is in a set of ASCII values exactly if its first character is. -/
theorem any_head?_encode {p : Nat → Bool} (hp : Ascii p) (l : List Char) :
    ((encode l).head?.any fun byte => p byte.toNat) = l.head?.any fun c => p c.toNat := by
  cases l with
  | nil => rfl
  | cons c l =>
    have hne : String.utf8EncodeChar c ≠ [] := String.utf8EncodeChar_ne_nil
    rw [encode_cons, List.head?_append_of_ne_nil _ hne, List.head?_eq_some_head hne]
    exact eq_of_mem_encodeChar hp (List.head_mem hne)

/-- So is the last one. -/
theorem any_getLast?_encode {p : Nat → Bool} (hp : Ascii p) (l : List Char) :
    ((encode l).getLast?.any fun byte => p byte.toNat) = l.getLast?.any fun c => p c.toNat := by
  rcases l.eq_nil_or_concat' with rfl | ⟨front, c, rfl⟩
  · rfl
  · have hne : String.utf8EncodeChar c ≠ [] := String.utf8EncodeChar_ne_nil
    have hone : encode [c] = String.utf8EncodeChar c := List.flatMap_singleton _ _
    rw [encode_append, hone, List.getLast?_append_of_ne_nil _ hne,
      List.getLast?_append_of_ne_nil _ (List.cons_ne_nil _ _), List.getLast?_eq_some_getLast hne]
    exact eq_of_mem_encodeChar hp (List.getLast_mem hne)

/-- The bytes of a part are a part of the bytes. -/
theorem length_encode_lt {l : List Char} {rest : List Char} (h : rest ≠ []) :
    (encode l).length < (encode (l ++ rest)).length := by
  obtain ⟨c, rest, rfl⟩ := List.exists_cons_of_ne_nil h
  have hpos := List.length_pos_of_ne_nil (String.utf8EncodeChar_ne_nil (c := c))
  rw [encode_append, encode_cons, List.length_append, List.length_append]
  omega

/-- The bytes of characters are read as the characters. -/
theorem fromUTF8?_encode (l : List Char) :
    String.fromUTF8? (encode l).toByteArray = some (String.ofList l) := by
  have hvalid : (encode l).toByteArray.IsValidUTF8 := .intro l rfl
  unfold String.fromUTF8?
  rw [dif_pos hvalid]
  refine congrArg some ?_
  rw [← String.toByteArray_inj, String.toByteArray_ofList]
  rfl

/-! ## Slices -/

/-- The characters that make up the first bytes, if these end where a character ends. -/
def sliceTo : List Char → Nat → Option (List Char)
  | _, 0 => some []
  | [], _ + 1 => none
  | c :: l, n + 1 =>
    if c.utf8Size ≤ n + 1 then (sliceTo l (n + 1 - c.utf8Size)).map (c :: ·) else none

/-- A character takes at least one byte. -/
theorem length_encode_cons (c : Char) (l : List Char) :
    (encode (c :: l)).length = c.utf8Size + (encode l).length := by
  rw [encode_cons, List.length_append, String.length_utf8EncodeChar]

/-- Only no characters at all take no bytes. -/
theorem length_encode_eq_zero {l : List Char} : (encode l).length = 0 ↔ l = [] := by
  cases l with
  | nil => simp
  | cons c l =>
    have hpos := c.utf8Size_pos
    rw [length_encode_cons]
    simp only [List.cons_ne_nil, iff_false]
    omega

/-- A slice is a front part of that many bytes. -/
theorem sliceTo_eq_some_iff {l : List Char} {n : Nat} {front : List Char} :
    sliceTo l n = some front ↔ front <+: l ∧ (encode front).length = n := by
  fun_induction sliceTo l n generalizing front with
  | case1 l =>
    rw [length_encode_eq_zero, Option.some_inj, eq_comm]
    exact ⟨fun h => ⟨h ▸ List.nil_prefix, h⟩, fun h => h.2⟩
  | case2 n =>
    rw [List.prefix_nil]
    refine ⟨nofun, fun ⟨hnil, hlength⟩ => ?_⟩
    rw [length_encode_eq_zero.2 hnil] at hlength
    cases hlength
  | case3 c l n hfits ih =>
    cases front with
    | nil => simp
    | cons d front =>
      rw [Option.map_eq_some_iff, List.cons_prefix_cons, length_encode_cons]
      constructor
      · rintro ⟨rest, hrest, hcons⟩
        obtain ⟨rfl, rfl⟩ := List.cons.inj hcons
        obtain ⟨hpart, hlength⟩ := ih.1 hrest
        exact ⟨⟨rfl, hpart⟩, by omega⟩
      · rintro ⟨⟨rfl, hpart⟩, hlength⟩
        exact ⟨front, ih.2 ⟨hpart, by omega⟩, rfl⟩
  | case4 c l n hlarge =>
    refine ⟨nofun, fun ⟨hpart, hlength⟩ => ?_⟩
    cases front with
    | nil => cases hlength
    | cons d front =>
      obtain ⟨rfl, -⟩ := List.cons_prefix_cons.1 hpart
      rw [length_encode_cons] at hlength
      omega

/-- A byte that is read as a character takes one byte, or two if it is not an ASCII one. -/
theorem length_encode_ofUInt8 (bytes : List UInt8) :
    (encode (bytes.map Char.ofUInt8)).length =
      bytes.length + bytes.countP fun byte => decide (128 ≤ byte.toNat) := by
  induction bytes with
  | nil => rfl
  | cons byte bytes ih =>
    have hsize : (Char.ofUInt8 byte).utf8Size = if 128 ≤ byte.toNat then 2 else 1 := by
      have hval : (Char.ofUInt8 byte).val.toNat = byte.toNat := UInt8.toNat_toUInt32 byte
      have hlt := byte.toNat_lt
      unfold Char.utf8Size
      simp only [UInt32.le_iff_toNat_le, hval, UInt32.toNat_ofNatLT]
      split_ifs <;> omega
    rw [List.map_cons, length_encode_cons, hsize, ih, List.length_cons, List.countP_cons]
    simp only [decide_eq_true_eq]
    split_ifs <;> omega

end Utf8

end Foundation
