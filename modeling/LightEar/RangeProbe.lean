import LightEar.Core
import LightEar.Foundation.Text

/-!
# Asking for the length of a media file

Before a stream is downloaded, one byte is asked for and the length of the file is taken from the
headers of the reply: from `Content-Range` if it tells the total, else from `Content-Length`.  The
latter is the length of the part that is sent.

So the length found is that of the file, or none, exactly if the reply does not come with a
`Content-Range` that leaves the total open and a `Content-Length` that is not that of the whole
file (`parseRangeProbe_right_iff`).
-/

namespace LightEar

open Foundation

/-! ## Headers -/

/-- The value of a header, as it is read. -/
structure HeaderValue where
  /-- Its text, if it is one. -/
  toStr : Option String
  deriving DecidableEq, Repr

/-- The headers of a reply, as they are looked up. -/
structure HeaderMap where
  /-- The first value of a header, by its name in lower case. -/
  get : String → Option HeaderValue

/-- The first value of a header, if it is a text. -/
def HeaderMap.getStr (headers : HeaderMap) (name : String) : Option String :=
  (headers.get name).bind HeaderValue.toStr

/-- Which part of a file is sent. -/
structure ContentRange where
  /-- The first byte. -/
  start : Nat
  /-- The last byte. -/
  endInclusive : Nat
  /-- The length of the file, if it is told. -/
  total : Option Nat
  deriving DecidableEq, Repr

/-- What is learnt about a file. -/
structure RangeProbe where
  /-- Whether parts of it can be asked for. -/
  supportsRanges : Bool
  /-- Its length. -/
  totalBytes : Option Nat
  deriving DecidableEq, Repr

/-- `str::parse::<u64>`. -/
def parseU64 (value : List Char) : Option Nat := Text.parseUnsigned u64Max value

/-- Reads the length of the file, which a star leaves open. -/
def parseTotal (total : List Char) : Option (Option Nat) :=
  if total = ['*'] then some none else (parseU64 total).map some

/-- Reads the value of a `Content-Range`. -/
def parseContentRange (value : String) : Option ContentRange := do
  let range ← "bytes ".toList.isPrefixOf? (Text.trim value.toList)
  let (span, total) ← Text.splitOnce '/' range
  let (start, last) ← Text.splitOnce '-' span
  let start ← parseU64 start
  let endInclusive ← parseU64 last
  let total ← parseTotal total
  return { start, endInclusive, total }

/-- Reads the headers of a reply. -/
def parseRangeProbe (headers : HeaderMap) : RangeProbe where
  supportsRanges :=
    ((headers.getStr "accept-ranges").any fun value =>
      value.toList.map Char.toLower == "bytes".toList) ||
      (headers.get "content-range").isSome
  totalBytes :=
    (((headers.getStr "content-range").bind parseContentRange).bind ContentRange.total).or
      ((headers.getStr "content-length").bind fun value => parseU64 value.toList)

/-! ## What a server sends -/

/-- The number of bytes of the part. -/
def ContentRange.len (range : ContentRange) : Nat := range.endInclusive - range.start + 1

/-- How the length of a file is written: a star, or its digits. -/
inductive WritesTotal : Option Nat → List Char → Prop
  | opened : WritesTotal none ['*']
  | told {total : Nat} {digits : List Char} (h : Text.IsDecimal digits total) :
      WritesTotal (some total) digits

/-- A `Content-Range` is made up of the numbers of the part and the length of the file. -/
def ContentRange.Written (range : ContentRange) (value : String) : Prop :=
  ∃ start last total, Text.IsDecimal start range.start ∧
    Text.IsDecimal last range.endInclusive ∧ WritesTotal range.total total ∧
      value.toList = "bytes ".toList ++ ((start ++ '-' :: last) ++ '/' :: total)

/-- A part within the bounds of `u64`. -/
structure ContentRange.InRange (range : ContentRange) : Prop where
  /-- The first byte is. -/
  start : range.start ≤ u64Max
  /-- The last byte is. -/
  endInclusive : range.endInclusive ≤ u64Max
  /-- The length of the file is, if it is told. -/
  total : ∀ total ∈ range.total, total ≤ u64Max

/-- The length of the file is read as it is written. -/
theorem WritesTotal.parseTotal_eq {total : Option Nat} {text : List Char}
    (h : WritesTotal total text) (hle : ∀ n ∈ total, n ≤ u64Max) :
    parseTotal text = some total := by
  cases h with
  | opened => rfl
  | told hdigits =>
    have hstar : ¬ text = ['*'] := by
      rintro rfl
      exact hdigits.notMem (by decide) (List.mem_singleton_self '*')
    rw [parseTotal, if_neg hstar, parseU64, hdigits.parseUnsigned_eq (hle _ rfl)]
    rfl

/-- What the length is written with is there, and is not white space. -/
theorem WritesTotal.clean {total : Option Nat} {text : List Char} (h : WritesTotal total text) :
    text ≠ [] ∧ ∀ c ∈ text, Text.isWhiteSpace c = false := by
  cases h with
  | opened =>
    refine ⟨List.cons_ne_nil _ _, fun c hc => ?_⟩
    obtain rfl := List.mem_singleton.1 hc
    rfl
  | told hdigits =>
    exact ⟨hdigits.ne_nil, fun c hc => Text.not_isWhiteSpace_of_isDigit (hdigits.isDigit c hc)⟩

/-- A text that begins with the unit and ends with the length has no white space at its ends. -/
theorem trim_bytes {middle total : List Char} (hne : total ≠ [])
    (hclean : ∀ c ∈ total, Text.isWhiteSpace c = false) :
    Text.trim ("bytes ".toList ++ (middle ++ '/' :: total)) =
      "bytes ".toList ++ (middle ++ '/' :: total) := by
  refine Text.CleanEnds.trimMatches_eq ⟨?_, ?_⟩
  · intro c hc
    obtain rfl : 'b' = c := Option.some.inj hc
    rfl
  · intro c hc
    have hback : "bytes ".toList ++ (middle ++ '/' :: total) =
        ("bytes ".toList ++ middle ++ ['/']) ++ total := by
      simp only [List.append_assoc, List.cons_append, List.nil_append]
    have hlast := List.getLast?_eq_some_getLast hne
    rw [hback, List.getLast?_append, hlast, Option.some_or, ← hlast] at hc
    exact hclean c (List.mem_of_getLast? hc)

/-- A part is read as it is written. -/
theorem ContentRange.Written.parseContentRange_eq {range : ContentRange} {value : String}
    (h : range.Written value) (hbounds : range.InRange) :
    parseContentRange value = some range := by
  obtain ⟨start, last, total, hstart, hlast, htotal, hvalue⟩ := h
  have hbytes : ∀ rest, "bytes ".toList.isPrefixOf? ("bytes ".toList ++ rest) = some rest :=
    fun rest => List.isPrefixOf?_eq_some_iff_append_eq.2 rfl
  have hslash : '/' ∉ start ++ '-' :: last := by
    rw [List.mem_append, List.mem_cons]
    rintro (hmem | hdash | hmem)
    · exact hstart.notMem (by decide) hmem
    · exact absurd hdash (by decide)
    · exact hlast.notMem (by decide) hmem
  have hdash : '-' ∉ start := hstart.notMem (by decide)
  unfold parseContentRange
  rw [hvalue, trim_bytes htotal.clean.1 htotal.clean.2, hbytes]
  simp only [Option.bind_eq_bind, Option.bind_some, Text.splitOnce_append hslash,
    Text.splitOnce_append hdash, parseU64, hstart.parseUnsigned_eq hbounds.start,
    hlast.parseUnsigned_eq hbounds.endInclusive, htotal.parseTotal_eq hbounds.total]
  rfl

/-- A part of a file whose length is a `u64` is within the bounds. -/
theorem ContentRange.inRange_of_inside {range : ContentRange} {length : Nat}
    (hlength : length ≤ u64Max) (hnonempty : range.start ≤ range.endInclusive)
    (hinside : range.endInclusive < length)
    (htotal : range.total = none ∨ range.total = some length) : range.InRange := by
  refine ⟨by omega, by omega, ?_⟩
  rintro total hknown
  rcases htotal with hnone | hsome
  · rw [hnone] at hknown
    cases hknown
  · rw [hsome] at hknown
    obtain rfl := Option.some.inj hknown
    exact hlength

/-- The length that is found is the one in the `Content-Range`, else that of the part. -/
theorem totalBytes_of_written {headers : HeaderMap} {range : ContentRange} {value : String}
    (hvalue : headers.getStr "content-range" = some value) (hwritten : range.Written value)
    (hbounds : range.InRange) :
    (parseRangeProbe headers).totalBytes =
      range.total.or ((headers.getStr "content-length").bind fun size => parseU64 size.toList) := by
  unfold parseRangeProbe
  dsimp only
  rw [hvalue, Option.bind_some, hwritten.parseContentRange_eq hbounds, Option.bind_some]

/-! ## Replies -/

/-- What a successful reply says about a file of a length: a part of it, with or without the
length of the file, or all of it. -/
inductive HeaderMap.Reports (length : Nat) (headers : HeaderMap) : Option ContentRange → Prop
  | part (range : ContentRange) (hnonempty : range.start ≤ range.endInclusive)
      (hinside : range.endInclusive < length)
      (htotal : range.total = none ∨ range.total = some length)
      (hrange : ∃ value ∈ headers.getStr "content-range", range.Written value)
      (hlength : ∀ value ∈ headers.getStr "content-length",
        Text.IsDecimal value.toList range.len) :
      Reports length headers (some range)
  | whole (hrange : headers.get "content-range" = none)
      (hlength : ∀ value ∈ headers.getStr "content-length",
        Text.IsDecimal value.toList length) :
      Reports length headers none

/-- The length found is that of the file, or none, exactly if no part is sent that leaves the
length of the file open while its own length is told and is another one. -/
theorem parseRangeProbe_right_iff {length : Nat} (hlength : length ≤ u64Max)
    {headers : HeaderMap} {sent : Option ContentRange} (h : headers.Reports length sent) :
    ((parseRangeProbe headers).totalBytes = none ∨
        (parseRangeProbe headers).totalBytes = some length) ↔
      ¬ ∃ range ∈ sent, range.total = none ∧ (headers.getStr "content-length").isSome = true ∧
        range.len ≠ length := by
  cases h with
  | part range hnonempty hinside htotal hrange hcontentLength =>
    obtain ⟨value, hvalue, hwritten⟩ := hrange
    have hbounds := ContentRange.inRange_of_inside hlength hnonempty hinside htotal
    have hlen : range.len ≤ u64Max := by
      unfold ContentRange.len
      omega
    rw [totalBytes_of_written hvalue hwritten hbounds]
    rcases htotal with hopen | htold
    · cases hsize : headers.getStr "content-length" with
      | none => simp [hopen]
      | some size =>
        have hsent : parseU64 size.toList = some range.len :=
          (hcontentLength size hsize).parseUnsigned_eq hlen
        simp [hopen, hsent]
    · simp [htold]
  | whole hrange hcontentLength =>
    have hnone : headers.getStr "content-range" = none := by
      rw [HeaderMap.getStr, hrange]
      rfl
    have htotal : (parseRangeProbe headers).totalBytes =
        (headers.getStr "content-length").bind fun value => parseU64 value.toList := by
      unfold parseRangeProbe
      rw [hnone]
      rfl
    rw [htotal]
    cases hsize : headers.getStr "content-length" with
    | none => simp
    | some size =>
      have hsent : parseU64 size.toList = some length :=
        (hcontentLength size hsize).parseUnsigned_eq hlength
      simp [hsent]

/-- Headers with their texts, and no others. -/
def HeaderMap.ofTexts (texts : List (String × String)) : HeaderMap where
  get name := (texts.lookup name).map fun text => ⟨some text⟩

/-- The first byte of a file whose length is left open. -/
def openProbe : HeaderMap := .ofTexts [("content-range", "bytes 0-0/*"), ("content-length", "1")]

/-- The reply is one about a file of 1000 bytes. -/
theorem openProbe_reports : openProbe.Reports 1000 (some ⟨0, 0, none⟩) := by
  have hzero : Text.IsDecimal ['0'] 0 := ⟨List.cons_ne_nil _ _, by simp, rfl⟩
  have hone : Text.IsDecimal "1".toList 1 := ⟨List.cons_ne_nil _ _, by simp, rfl⟩
  have hrange : openProbe.getStr "content-range" = some "bytes 0-0/*" := by decide
  have hsize : openProbe.getStr "content-length" = some "1" := by decide
  refine .part ⟨0, 0, none⟩ (by decide) (by decide) (.inl rfl) ⟨_, hrange, ?_⟩ fun size hmem => ?_
  · exact ⟨['0'], ['0'], ['*'], hzero, hzero, .opened, rfl⟩
  · rw [hsize] at hmem
    obtain rfl := Option.some.inj hmem
    exact hone

/-- The main result for the reply that leaves the length open. -/
theorem parseRangeProbe_right_iff_open :
    ((parseRangeProbe openProbe).totalBytes = none ∨
        (parseRangeProbe openProbe).totalBytes = some 1000) ↔
      ¬ ∃ range ∈ some (⟨0, 0, none⟩ : ContentRange), range.total = none ∧
        (openProbe.getStr "content-length").isSome = true ∧ range.len ≠ 1000 :=
  parseRangeProbe_right_iff (by decide) openProbe_reports

/-- The length found then is that of the one byte. -/
theorem openProbe_wrong :
    ¬ ∀ (length : Nat) (headers : HeaderMap) (sent : Option ContentRange), length ≤ u64Max →
      headers.Reports length sent →
        (parseRangeProbe headers).totalBytes = none ∨
          (parseRangeProbe headers).totalBytes = some length := by
  intro h
  have hright := h 1000 openProbe _ (by decide) openProbe_reports
  revert hright
  decide

end LightEar
