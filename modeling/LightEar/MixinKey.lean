import LightEar.Foundation.Utf8

/-!
# The key that requests are signed with

The key is made of the names of two files: a table selects bytes of the names one after the other,
each byte is read as a character, and the first 32 bytes of the text that they make up are the key.

A byte that is not an ASCII one is read as a character of two bytes.  So the text may end up long
enough with fewer than 32 characters, and its byte 32 may lie inside a character, where the slice
panics.  The key is right exactly if neither can happen (`mixinKey_right_iff`).
-/

namespace LightEar

open Foundation

/-- The addresses of the two files. -/
structure BilibiliWbiInfo where
  /-- The first file. -/
  imgUrl : String
  /-- The second file. -/
  subUrl : String
  deriving DecidableEq, Repr

/-- Which byte is taken next. -/
def mixinKeyEncTab : List Nat :=
  [46, 47, 18, 2, 53, 8, 23, 32, 15, 50, 10, 31, 58, 3, 45, 35, 27, 43, 5, 49, 33, 9, 42, 19, 29,
    28, 14, 39, 12, 38, 41, 13, 37, 48, 7, 16, 24, 55, 40, 61, 26, 17, 0, 1, 60, 51, 30, 4, 22, 25,
    54, 21, 56, 59, 6, 63, 57, 62, 11, 36, 20, 34, 44, 52]

/-- The name of a file without its extension. -/
def urlStem (url : String) : Except String (List Char) :=
  match (url.toList.splitOn '/').getLast? with
  | some file => .ok ((file.splitOn '.').head?.getD file)
  | none => .error "invalid bilibili key url"

/-- The bytes that the table selects; those that are missing are passed over. -/
def selectBytes (raw : List UInt8) : List UInt8 := mixinKeyEncTab.filterMap fun index => raw[index]?

/-- The key, or an error; the slice at the end may panic. -/
def mixinKey (info : BilibiliWbiInfo) : Option (Except String String) :=
  match urlStem info.imgUrl, urlStem info.subUrl with
  | .error message, _ => some (.error message)
  | .ok _, .error message => some (.error message)
  | .ok imgKey, .ok subKey =>
    let raw := Utf8.encode (imgKey ++ subKey)
    let mixed := (selectBytes raw).map Char.ofUInt8
    if (Utf8.encode mixed).length < 32 then some (.error "invalid bilibili mixin key")
    else (Utf8.sliceTo mixed 32).map fun key => .ok (String.ofList key)

/-! ## Selected bytes -/

/-- The name of a file without its extension. -/
def fileStem (url : String) : List Char :=
  (((url.toList.splitOn '/').getLast?.getD []).splitOn '.').head?.getD []

/-- There is always a name. -/
theorem urlStem_eq (url : String) : urlStem url = .ok (fileStem url) := by
  have hfile := List.getLast?_eq_some_getLast (List.splitOn_ne_nil '/' url.toList)
  unfold urlStem fileStem
  rw [hfile]
  dsimp only
  rw [Option.getD_some, List.head?_eq_some_head (List.splitOn_ne_nil '.' _)]
  rfl

/-- The bytes of the two names. -/
def stemBytes (info : BilibiliWbiInfo) : List UInt8 :=
  Utf8.encode (fileStem info.imgUrl ++ fileStem info.subUrl)

/-- The text that the selected bytes make up. -/
def mixedText (info : BilibiliWbiInfo) : List Char :=
  (selectBytes (stemBytes info)).map Char.ofUInt8

/-- The key is cut off that text. -/
theorem mixinKey_eq (info : BilibiliWbiInfo) :
    mixinKey info =
      if (Utf8.encode (mixedText info)).length < 32 then some (.error "invalid bilibili mixin key")
      else (Utf8.sliceTo (mixedText info) 32).map fun key => .ok (String.ofList key) := by
  rw [mixinKey, urlStem_eq, urlStem_eq]
  rfl

/-- The bytes of a list by their places. -/
theorem filterMap_getElem?_range (l : List UInt8) (n : Nat) :
    ((List.range n).filterMap fun i => l[i]?) = l.take n := by
  induction n with
  | zero => rfl
  | succ n ih =>
    rw [List.range_succ, List.filterMap_append, ih, List.take_add_one]
    cases hget : l[n]? <;> simp [hget]

/-- The table selects each of the first 64 bytes once. -/
theorem selectBytes_perm (raw : List UInt8) : (selectBytes raw).Perm (raw.take 64) := by
  have htable : mixinKeyEncTab.Perm (List.range 64) := by decide
  rw [← filterMap_getElem?_range]
  exact htable.filterMap _

/-- Not an ASCII byte. -/
def isLarge (byte : UInt8) : Bool := decide (128 ≤ byte.toNat)

/-- The text is too short exactly if the names are, each byte that is not an ASCII one counting
twice. -/
theorem length_encode_mixedText_lt (info : BilibiliWbiInfo) :
    (Utf8.encode (mixedText info)).length < 32 ↔
      (stemBytes info).length + (stemBytes info).countP isLarge < 32 := by
  have hperm := selectBytes_perm (stemBytes info)
  have hlength := hperm.length_eq
  have hcount := hperm.countP_eq isLarge
  have htext : (Utf8.encode (mixedText info)).length =
      (selectBytes (stemBytes info)).length + (selectBytes (stemBytes info)).countP isLarge :=
    Utf8.length_encode_ofUInt8 _
  rw [htext, hlength, hcount]
  by_cases hlong : (stemBytes info).length ≤ 64
  · rw [List.take_of_length_le hlong]
  · rw [List.length_take]
    omega

/-- As many bytes at the front of a text are as many characters exactly if they are all ASCII
characters. -/
theorem sliceTo_ofUInt8 {bytes : List UInt8} {n : Nat} {key : List Char} (hkey : key.length = n) :
    Utf8.sliceTo (bytes.map Char.ofUInt8) n = some key ↔
      n ≤ bytes.length ∧ (∀ byte ∈ bytes.take n, byte.toNat < 128) ∧
        key = (bytes.map Char.ofUInt8).take n := by
  have hcount : ∀ front : List UInt8, front.countP isLarge = 0 ↔
      ∀ byte ∈ front, byte.toNat < 128 := by
    intro front
    simp [List.countP_eq_zero, isLarge]
  have hfront : (Utf8.encode ((bytes.map Char.ofUInt8).take n)).length =
      (bytes.take n).length + (bytes.take n).countP isLarge := by
    rw [← List.map_take]
    exact Utf8.length_encode_ofUInt8 _
  rw [Utf8.sliceTo_eq_some_iff]
  constructor
  · rintro ⟨hpart, hbytes⟩
    have htake : key = (bytes.map Char.ofUInt8).take n := by
      rw [← hkey]
      exact List.prefix_iff_eq_take.1 hpart
    have hle : n ≤ bytes.length := by
      have hlength := hpart.length_le
      rw [List.length_map] at hlength
      omega
    rw [htake, hfront, List.length_take_of_le hle] at hbytes
    exact ⟨hle, (hcount _).1 (by omega), htake⟩
  · rintro ⟨hle, hascii, rfl⟩
    refine ⟨List.take_prefix _ _, ?_⟩
    rw [hfront, List.length_take_of_le hle, (hcount _).2 hascii, Nat.add_zero]

/-! ## The key -/

/-- What is to be expected of a key: it is the first 32 characters of the text, or an error. -/
def MixesRight (info : BilibiliWbiInfo) (outcome : Option (Except String String)) : Prop :=
  (∃ message, outcome = some (.error message)) ∨
    ∃ key : String, outcome = some (.ok key) ∧ key.toList.length = 32 ∧
      key.toList = (mixedText info).take 32

/-- The key is right exactly if the names are too short, or long enough and the first 32 of the
selected bytes are ASCII ones. -/
theorem mixinKey_right_iff (info : BilibiliWbiInfo) :
    MixesRight info (mixinKey info) ↔
      (stemBytes info).length + (stemBytes info).countP isLarge < 32 ∨
        (32 ≤ (stemBytes info).length ∧
          ∀ byte ∈ (selectBytes (stemBytes info)).take 32, byte.toNat < 128) := by
  have hselected : 32 ≤ (selectBytes (stemBytes info)).length ↔ 32 ≤ (stemBytes info).length := by
    rw [(selectBytes_perm _).length_eq, List.length_take]
    omega
  rw [mixinKey_eq, ← length_encode_mixedText_lt, ← hselected]
  split_ifs with hshort
  · exact ⟨fun _ => .inl hshort, fun _ => .inl ⟨_, rfl⟩⟩
  · have hslice : ∀ key : List Char, key.length = 32 →
        (Utf8.sliceTo (mixedText info) 32 = some key ↔
          32 ≤ (selectBytes (stemBytes info)).length ∧
            (∀ byte ∈ (selectBytes (stemBytes info)).take 32, byte.toNat < 128) ∧
              key = (mixedText info).take 32) := fun key hkey => sliceTo_ofUInt8 hkey
    constructor
    · rintro (⟨message, herror⟩ | ⟨key, hkey, hlength, -⟩)
      · obtain ⟨key, -, hok⟩ := Option.map_eq_some_iff.1 herror
        cases hok
      · obtain ⟨chars, hchars, hok⟩ := Option.map_eq_some_iff.1 hkey
        obtain rfl := Except.ok.inj hok
        rw [String.toList_ofList] at hlength
        obtain ⟨hle, hascii, -⟩ := (hslice chars hlength).1 hchars
        exact .inr ⟨hle, hascii⟩
    · rintro (hshort' | ⟨hle, hascii⟩)
      · exact absurd hshort' hshort
      · have hlength : ((mixedText info).take 32).length = 32 := by
          refine List.length_take_of_le ?_
          rw [mixedText, List.length_map]
          exact hle
        refine .inr ⟨String.ofList ((mixedText info).take 32), ?_, ?_, String.toList_ofList⟩
        · rw [(hslice _ hlength).2 ⟨hle, hascii, rfl⟩]
          rfl
        · rw [String.toList_ofList]
          exact hlength

/-- Names whose byte 32 of the text lies inside a character. -/
def splitKey : BilibiliWbiInfo where
  imgUrl := "https://example.test/éaééééééé.png"
  subUrl := ""

/-- The slice panics there. -/
theorem splitKey_wrong : ¬ ∀ info, MixesRight info (mixinKey info) := by
  intro h
  have hpanic : mixinKey splitKey = none := by decide
  have hright := h splitKey
  rw [hpanic] at hright
  rcases hright with ⟨message, herror⟩ | ⟨key, hkey, -⟩
  · cases herror
  · cases hkey

end LightEar
