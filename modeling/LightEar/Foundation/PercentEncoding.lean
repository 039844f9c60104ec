import LightEar.Foundation.Utf8

/-!
# Percent encoding

The bytes of a text are written as they are only if they belong to a set of harmless ones; the
others are written as a percent sign and two hexadecimal digits.  What is written can be read back
(`decodeText_encodeText`), and it is made up of percent signs, digits and harmless characters
(`mem_encodeBytes`).
-/

namespace Foundation

namespace Percent

/-! ## Bytes -/

/-- Harmless bytes, which are written as they are. -/
structure KeptBytes where
  /-- Whether a byte is harmless. -/
  keeps : UInt8 → Bool
  /-- It is then an ASCII one. -/
  ascii : ∀ byte, keeps byte = true → byte.toNat < 128
  /-- The percent sign is not harmless. -/
  percent : keeps 37 = false

/-- A hexadecimal digit. -/
def upperHexDigit (n : Nat) : Char := Char.ofNat (if n < 10 then 48 + n else 55 + n)

/-- The value of a hexadecimal digit. -/
def hexValue (c : Char) : Option Nat :=
  let n := c.toNat
  if 48 ≤ n ∧ n ≤ 57 then some (n - 48)
  else if 65 ≤ n ∧ n ≤ 70 then some (n - 55)
  else if 97 ≤ n ∧ n ≤ 102 then some (n - 87)
  else none

/-- A byte as it is written. -/
def encodeByte (set : KeptBytes) (byte : UInt8) : List Char :=
  if set.keeps byte then [Char.ofUInt8 byte]
  else ['%', upperHexDigit (byte.toNat / 16), upperHexDigit (byte.toNat % 16)]

/-- Bytes as they are written. -/
def encodeBytes (set : KeptBytes) (bytes : List UInt8) : List Char :=
  bytes.flatMap (encodeByte set)

/-- Reads bytes; a percent sign stands before two digits, and every other character for itself. -/
def decodeBytes : List Char → Option (List UInt8)
  | [] => some []
  | c :: rest =>
    if c = '%' then
      match rest with
      | high :: low :: rest => do
        let high ← hexValue high
        let low ← hexValue low
        let bytes ← decodeBytes rest
        return UInt8.ofNat (16 * high + low) :: bytes
      | _ => none
    else if c.toNat < 128 then (decodeBytes rest).map (UInt8.ofNat c.toNat :: ·)
    else none

/-- The digits of a byte are digits. -/
theorem hexValue_upperHexDigit {n : Nat} (h : n < 16) : hexValue (upperHexDigit n) = some n := by
  have hall : ∀ n < 16, hexValue (upperHexDigit n) = some n := by decide
  exact hall n h

/-- A character that is no percent sign stands for itself. -/
theorem decodeBytes_cons_of_ne {c : Char} (h : c ≠ '%') (rest : List Char) :
    decodeBytes (c :: rest) =
      if c.toNat < 128 then (decodeBytes rest).map (UInt8.ofNat c.toNat :: ·) else none := by
  rcases rest with _ | ⟨first, _ | ⟨second, rest⟩⟩ <;> simp only [decodeBytes, if_neg h]

/-- The value of the character of a byte. -/
theorem toNat_ofUInt8 (byte : UInt8) : (Char.ofUInt8 byte).toNat = byte.toNat :=
  UInt8.toNat_toUInt32 byte

/-- What is written of a byte is read as the byte. -/
theorem decodeBytes_encodeByte (set : KeptBytes) (byte : UInt8) (rest : List Char) :
    decodeBytes (encodeByte set byte ++ rest) = (decodeBytes rest).map (byte :: ·) := by
  have hlt := byte.toNat_lt
  unfold encodeByte
  split
  · rename_i hkept
    have hascii := set.ascii byte hkept
    have hpercent : Char.ofUInt8 byte ≠ '%' := by
      intro heq
      have hbyte : byte = 37 := by
        rw [← UInt8.toNat_inj, ← toNat_ofUInt8, heq]
        rfl
      rw [hbyte, set.percent] at hkept
      cases hkept
    rw [List.singleton_append, decodeBytes_cons_of_ne hpercent, toNat_ofUInt8, if_pos hascii,
      UInt8.ofNat_toNat]
  · have hbyte : 16 * (byte.toNat / 16) + byte.toNat % 16 = byte.toNat := Nat.div_add_mod ..
    have hhigh := hexValue_upperHexDigit (show byte.toNat / 16 < 16 by omega)
    have hlow := hexValue_upperHexDigit (Nat.mod_lt byte.toNat (show 0 < 16 by decide))
    simp only [List.cons_append, List.nil_append, decodeBytes, if_true, hhigh, hlow,
      Option.bind_eq_bind, Option.bind_some, hbyte, UInt8.ofNat_toNat, Option.pure_def]
    cases decodeBytes rest <;> rfl

/-- What is written of bytes is read as the bytes. -/
theorem decodeBytes_encodeBytes (set : KeptBytes) (bytes : List UInt8) :
    decodeBytes (encodeBytes set bytes) = some bytes := by
  induction bytes with
  | nil => rfl
  | cons byte bytes ih =>
    unfold encodeBytes at ih ⊢
    rw [List.flatMap_cons, decodeBytes_encodeByte, ih]
    rfl

/-- What is written of bytes is made up of percent signs, digits and harmless characters. -/
theorem mem_encodeBytes {set : KeptBytes} {bytes : List UInt8} {c : Char}
    (h : c ∈ encodeBytes set bytes) :
    c = '%' ∨ (∃ n < 16, c = upperHexDigit n) ∨
      ∃ byte, set.keeps byte = true ∧ c = Char.ofUInt8 byte := by
  obtain ⟨byte, -, hc⟩ := List.mem_flatMap.1 h
  have hlt := byte.toNat_lt
  unfold encodeByte at hc
  split at hc
  · rename_i hkept
    exact .inr (.inr ⟨byte, hkept, List.mem_singleton.1 hc⟩)
  · simp only [List.mem_cons, List.not_mem_nil, or_false] at hc
    rcases hc with rfl | rfl | rfl
    · exact .inl rfl
    · exact .inr (.inl ⟨_, by omega, rfl⟩)
    · exact .inr (.inl ⟨_, by omega, rfl⟩)

/-! ## Texts -/

/-- A text as it is written. -/
def encodeText (set : KeptBytes) (text : String) : List Char :=
  encodeBytes set (Utf8.encode text.toList)

/-- Reads a text. -/
def decodeText (written : List Char) : Option String :=
  (decodeBytes written).bind fun bytes => String.fromUTF8? bytes.toByteArray

/-- What is written of a text is read as the text. -/
theorem decodeText_encodeText (set : KeptBytes) (text : String) :
    decodeText (encodeText set text) = some text := by
  unfold decodeText encodeText
  rw [decodeBytes_encodeBytes, Option.bind_some, Utf8.fromUTF8?_encode, String.ofList_toList]

end Percent

end Foundation
