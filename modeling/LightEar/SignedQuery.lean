import LightEar.BvId
import LightEar.Foundation.Fields
import LightEar.Foundation.PercentEncoding
import Mathlib.Data.List.Sort
import Mathlib.Data.String.Basic

/-!
# Signed queries

Some requests to the video service carry a signature.  The parameters are sorted by their names and
written as a query, the digest of the query and a key is the signature, and it is put behind the
query.

How a text is percent-encoded, and how a digest is computed and shown, is left to libraries; what is
relied on is that percent encoding leaves letters, digits and percent signs only and can be undone
(`PercentEncodes`), and that a digest is shown in hexadecimal digits (`ShowsDigest`).

A signed query says exactly what it was made of (`signed_query_exact`): it is the same for the same
parameters in any order, no parameter can pass for another one, and whoever knows the key can check
the signature against what stands in front of it.
-/

namespace LightEar

open Foundation

/-! ## Libraries -/

/-- What is relied on in a percent encoding. -/
structure PercentEncodes (percentEncode : String → List Char) : Prop where
  /-- Letters and digits stay, and the rest is written with them and percent signs. -/
  plain : ∀ text, ∀ c ∈ percentEncode text, c.isAlphanum = true ∨ c = '%'
  /-- It can be undone. -/
  decodes : ∃ percentDecode : List Char → Option String,
    ∀ text, percentDecode (percentEncode text) = some text

/-- What is relied on in a digest as it is shown. -/
structure ShowsDigest (md5 : List UInt8 → List Char) : Prop where
  /-- It has 16 bytes, with two digits each. -/
  length : ∀ bytes, (md5 bytes).length = 32
  /-- The digits are hexadecimal ones in lower case. -/
  digits : ∀ bytes, ∀ c ∈ md5 bytes, c ∈ "0123456789abcdef".toList

/-- Different texts are encoded differently. -/
theorem PercentEncodes.injective {percentEncode : String → List Char}
    (h : PercentEncodes percentEncode) : Function.Injective percentEncode := by
  obtain ⟨percentDecode, hdecode⟩ := h.decodes
  intro text other heq
  have hsome := hdecode text
  rw [heq, hdecode other] at hsome
  exact (Option.some.inj hsome).symm

/-- A digest is shown in letters and digits. -/
theorem ShowsDigest.isAlphanum {md5 : List UInt8 → List Char} (h : ShowsDigest md5)
    {bytes : List UInt8} {c : Char} (hc : c ∈ md5 bytes) : c.isAlphanum = true := by
  have hall : ("0123456789abcdef".toList.all Char.isAlphanum) = true := by decide
  exact List.all_eq_true.1 hall c (h.digits bytes c hc)

/-! ## Queries -/

/-- Sorts parameters by their names; those with the same name stay in their order. -/
def sortByName (params : List (String × String)) : List (String × String) :=
  params.mergeSort fun left right => decide (left.1 ≤ right.1)

/-- A parameter is written as its name, an equals sign and its value, with an ampersand to the
next one. -/
def queryWriter (percentEncode : String → List Char) : Fields.Writer String Char where
  write := percentEncode
  equals := '='
  between := '&'

/-- The parameters as a query. -/
def sortedQuery (percentEncode : String → List Char) (params : List (String × String)) :
    List Char :=
  (queryWriter percentEncode).record (sortByName params)

/-- The digest of a query and a key. -/
def querySignature (md5 : List UInt8 → List Char) (query : List Char) (mixinKey : String) :
    List Char :=
  md5 (Utf8.encode (query ++ mixinKey.toList))

/-- The parameters as a query, with its signature. -/
def signedQuery (percentEncode : String → List Char) (md5 : List UInt8 → List Char)
    (params : List (String × String)) (mixinKey : String) : String :=
  let query := sortedQuery percentEncode params
  let wRid := querySignature md5 query mixinKey
  String.ofList (query ++ "&w_rid=".toList ++ wRid)

/-! ## What a query says -/

/-- A character that may stand in a query and stays as it is. -/
def IsQueryChar (c : Char) : Prop :=
  c.isAlphanum = true ∨ c = '%' ∨ c = '=' ∨ c = '&' ∨ c = '_'

instance IsQueryChar.decidable (c : Char) : Decidable (IsQueryChar c) :=
  inferInstanceAs (Decidable (_ ∨ _))

/-- Sorting moves the parameters only. -/
theorem sortByName_perm (params : List (String × String)) : (sortByName params).Perm params :=
  List.mergeSort_perm ..

/-- Sorted parameters are sorted. -/
theorem pairwise_sortByName (params : List (String × String)) :
    (sortByName params).Pairwise fun left right => left.1 ≤ right.1 := by
  have hsorted : (sortByName params).Pairwise
      fun left right => decide (left.1 ≤ right.1) = true := by
    refine List.pairwise_mergeSort (fun a b c hab hbc => ?_) (fun a b => ?_) params
    · simp only [decide_eq_true_eq] at hab hbc ⊢
      exact hab.trans hbc
    · simp only [Bool.or_eq_true, decide_eq_true_eq]
      exact le_total _ _
  exact hsorted.imp fun h => of_decide_eq_true h

/-- Parameters with different names are sorted in one way only. -/
theorem sortByName_eq_iff {params others : List (String × String)}
    (hnames : (params.map Prod.fst).Nodup) :
    sortByName params = sortByName others ↔ params.Perm others := by
  constructor
  · intro h
    exact (sortByName_perm params).symm.trans (h ▸ sortByName_perm others)
  · intro h
    have hperm : (sortByName params).Perm (sortByName others) :=
      (sortByName_perm params).trans (h.trans (sortByName_perm others).symm)
    refine hperm.eq_of_pairwise ?_ (pairwise_sortByName params) (pairwise_sortByName others)
    intro a b ha hb hab hba
    have ha' : a ∈ params := (sortByName_perm params).subset ha
    have hb' : b ∈ params := h.symm.subset ((sortByName_perm others).subset hb)
    exact List.inj_on_of_nodup_map hnames ha' hb' (le_antisymm hab hba)

section

variable {percentEncode : String → List Char} {md5 : List UInt8 → List Char}

/-- Neither an ampersand nor an equals sign comes from a text. -/
theorem PercentEncodes.notMem (h : PercentEncodes percentEncode) {c : Char}
    (hletter : c.isAlphanum = false) (hpercent : c ≠ '%') (text : String) :
    c ∉ percentEncode text := by
  intro hmem
  rcases h.plain text c hmem with hkept | hsign
  · rw [hletter] at hkept
    cases hkept
  · exact hpercent hsign

theorem PercentEncodes.clear (h : PercentEncodes percentEncode) :
    (queryWriter percentEncode).Clear where
  injective := h.injective
  equals := h.notMem (c := '=') rfl (by decide)
  between := h.notMem (c := '&') rfl (by decide)
  ne := show '&' ≠ '=' by decide

/-- A query is made up of letters, digits and some signs. -/
theorem PercentEncodes.isQueryChar (h : PercentEncodes percentEncode)
    {params : List (String × String)} {c : Char} (hc : c ∈ sortedQuery percentEncode params) :
    IsQueryChar c := by
  have htext : ∀ text, c ∈ percentEncode text → IsQueryChar c := by
    intro text hmem
    rcases h.plain text c hmem with hkept | hpercent
    · exact .inl hkept
    · exact .inr (.inl hpercent)
  rcases Fields.Writer.mem_record hc with hampersand | ⟨field, -, hfield⟩
  · exact .inr (.inr (.inr (.inl hampersand)))
  · rcases List.mem_append.1 hfield with hname | hrest
    · exact htext _ hname
    · rcases List.mem_cons.1 hrest with hequals | hvalue
      · exact .inr (.inr (.inl hequals))
      · exact htext _ hvalue

/-- What stands behind the last ampersand of a signed query. -/
theorem ShowsDigest.ampersand_notMem (h : ShowsDigest md5) (bytes : List UInt8) :
    '&' ∉ "w_rid=".toList ++ md5 bytes := by
  rw [List.mem_append, not_or]
  exact ⟨by decide, fun hmem => absurd (h.isAlphanum hmem) (by decide)⟩

/-- A signed query is a query, an ampersand and the signature. -/
theorem toList_signedQuery (params : List (String × String)) (mixinKey : String) :
    (signedQuery percentEncode md5 params mixinKey).toList = sortedQuery percentEncode params ++
      '&' :: ("w_rid=".toList ++
        querySignature md5 (sortedQuery percentEncode params) mixinKey) := by
  unfold signedQuery
  dsimp only
  rw [String.toList_ofList, List.append_assoc]
  rfl

/-! ## Main result -/

/-- Whatever the parameters and the keys are, as long as no two parameters of a list have the same
name: two signed queries are the same exactly if they have the same parameters, in whatever order,
and the same signature for both keys.  Whoever cuts a query at its last ampersand finds the
signature of what stands in front of it, and all characters may stand in an address. -/
theorem signed_query_exact (hencode : PercentEncodes percentEncode) (hmd5 : ShowsDigest md5)
    {params others : List (String × String)} (hnames : (params.map Prod.fst).Nodup)
    (mixinKey otherKey : String) :
    (signedQuery percentEncode md5 params mixinKey =
        signedQuery percentEncode md5 others otherKey ↔
      params.Perm others ∧ querySignature md5 (sortedQuery percentEncode params) mixinKey =
        querySignature md5 (sortedQuery percentEncode params) otherKey) ∧
    (∀ front back, '&' ∉ back →
      (signedQuery percentEncode md5 params mixinKey).toList = front ++ '&' :: back →
        back = "w_rid=".toList ++ querySignature md5 front mixinKey) ∧
    ∀ c ∈ (signedQuery percentEncode md5 params mixinKey).toList, IsQueryChar c := by
  refine ⟨⟨fun h => ?_, ?_⟩, fun front back hback h => ?_, fun c hc => ?_⟩
  · have htext := congrArg String.toList h
    rw [toList_signedQuery, toList_signedQuery] at htext
    obtain ⟨hquery, hsigned⟩ := Fields.eq_of_append_mark (hmd5.ampersand_notMem _)
      (hmd5.ampersand_notMem _) htext
    have hsorted := hencode.clear.record_injective hquery
    rw [← hquery] at hsigned
    exact ⟨(sortByName_eq_iff hnames).1 hsorted, List.append_cancel_left hsigned⟩
  · rintro ⟨hperm, hsignature⟩
    have hquery : sortedQuery percentEncode params = sortedQuery percentEncode others :=
      congrArg (queryWriter percentEncode).record ((sortByName_eq_iff hnames).2 hperm)
    unfold signedQuery
    dsimp only
    rw [hsignature, hquery]
  · rw [toList_signedQuery] at h
    obtain ⟨rfl, rfl⟩ := Fields.eq_of_append_mark (hmd5.ampersand_notMem _) hback h
    rfl
  · rw [toList_signedQuery, List.mem_append, List.mem_cons, List.mem_append] at hc
    rcases hc with hfield | hampersand | hname | hdigit
    · exact hencode.isQueryChar hfield
    · exact .inr (.inr (.inr (.inl hampersand)))
    · have hall : ("w_rid=".toList.all fun c => decide (IsQueryChar c)) = true := by decide
      exact of_decide_eq_true (List.all_eq_true.1 hall c hname)
    · exact .inl (hmd5.isAlphanum hdigit)

end

/-! ## Two words -/

/-- Letters and digits are kept. -/
def alphanumericBytes : Percent.KeptBytes where
  keeps byte := isAsciiAlphanumeric byte.toNat
  ascii _ h := ascii_isAsciiAlphanumeric _ h
  percent := rfl

/-- Texts can be encoded as it is relied on. -/
theorem percentEncodes_alphanumericBytes :
    PercentEncodes (Percent.encodeText alphanumericBytes) where
  plain text c hc := by
    have hdigit : ∀ n < 16, (Percent.upperHexDigit n).isAlphanum = true := by decide
    have hbytes : ∀ n < 256, isAsciiAlphanumeric n = true →
        (Char.ofUInt8 (UInt8.ofNat n)).isAlphanum = true := by decide +kernel
    rcases Percent.mem_encodeBytes hc with hpercent | ⟨n, hn, rfl⟩ | ⟨byte, hkept, rfl⟩
    · exact .inr hpercent
    · exact .inl (hdigit n hn)
    · have hbyte := hbytes byte.toNat byte.toNat_lt
      rw [UInt8.ofNat_toNat] at hbyte
      exact .inl (hbyte hkept)
  decodes := ⟨Percent.decodeText, Percent.decodeText_encodeText alphanumericBytes⟩

/-- Two parameters with characters that need to be encoded. -/
def twoWords : List (String × String) := [("b", "two words"), ("a", "x/y")]

/-- The digest of their query and its key. -/
def twoWordsDigest : List UInt8 → List Char :=
  fun _ => "3fd686c88d3a9e170d951bc71b37ef9c".toList

/-- It is shown as digests are. -/
theorem showsDigest_twoWords : ShowsDigest twoWordsDigest where
  length _ := rfl
  digits _ := by
    have hall : ("3fd686c88d3a9e170d951bc71b37ef9c".toList.all fun c =>
        decide (c ∈ "0123456789abcdef".toList)) = true := by decide
    intro c hc
    exact of_decide_eq_true (List.all_eq_true.1 hall c hc)

/-- The two parameters in either order. -/
theorem signed_query_exact_twoWords :
    let encode := Percent.encodeText alphanumericBytes
    let key := "0123456789abcdef0123456789abcdef"
    (signedQuery encode twoWordsDigest twoWords key =
        signedQuery encode twoWordsDigest twoWords.reverse key ↔
      twoWords.Perm twoWords.reverse ∧
        querySignature twoWordsDigest (sortedQuery encode twoWords) key =
          querySignature twoWordsDigest (sortedQuery encode twoWords) key) ∧
    (∀ front back, '&' ∉ back →
      (signedQuery encode twoWordsDigest twoWords key).toList = front ++ '&' :: back →
        back = "w_rid=".toList ++ querySignature twoWordsDigest front key) ∧
    ∀ c ∈ (signedQuery encode twoWordsDigest twoWords key).toList, IsQueryChar c :=
  signed_query_exact percentEncodes_alphanumericBytes showsDigest_twoWords (by decide) _ _

end LightEar
