import Mathlib.Data.Prod.Lex
import LightEar.Foundation.StableSort
import LightEar.MediaRanges
import LightEar.RangeProbe

/-!
# Choosing a stream

The reply about a video lists audio entries, of which one with a supported codec is chosen, the
best by codec, bandwidth and id.  Without any, the only segment of the older format is taken.

The address of an entry is sent in one of two fields, and so the address that is read may be an
empty text although the other field has a good one.  The choice is right exactly if the entry that
comes first is not such an entry (`selectMedia_right_iff`).
-/

namespace LightEar

open Foundation

/-! ## The reply -/

/-- Where the parts of an entry are. -/
structure BilibiliSegmentBase where
  /-- `Initialization`. -/
  initializationCamel : Option String
  /-- `initialization`. -/
  initializationSnake : Option String
  /-- `indexRange`. -/
  indexRangeCamel : Option String
  /-- `index_range`. -/
  indexRangeSnake : Option String
  deriving DecidableEq, Repr

/-- An audio entry. -/
structure BilibiliAudio where
  /-- Its id. -/
  id : Nat
  /-- Its bandwidth. -/
  bandwidth : Option Nat
  /-- Its codecs, separated by commas. -/
  codecs : Option String
  /-- `baseUrl`. -/
  baseUrlCamel : Option String
  /-- `base_url`. -/
  baseUrlSnake : Option String
  /-- `SegmentBase`. -/
  segmentBaseCamel : Option BilibiliSegmentBase
  /-- `segment_base`. -/
  segmentBaseSnake : Option BilibiliSegmentBase
  deriving DecidableEq, Repr

/-- The entries. -/
structure BilibiliDash where
  /-- The audio entries. -/
  audio : Option (List BilibiliAudio)
  deriving DecidableEq, Repr

/-- A segment of the older format. -/
structure BilibiliDurl where
  /-- Its address. -/
  url : String
  /-- Other addresses. -/
  backupUrl : Option (List String)
  deriving DecidableEq, Repr

/-- The reply about a video. -/
structure BilibiliPlayerInfo where
  /-- The entries. -/
  dash : Option BilibiliDash
  /-- The segments of the older format. -/
  durl : Option (List BilibiliDurl)
  deriving DecidableEq, Repr

/-- What is played. -/
structure MediaCandidate where
  /-- Its address. -/
  url : String
  /-- Where its header is. -/
  initRange : Option ByteRange
  /-- Where its index is. -/
  indexRange : Option ByteRange
  deriving DecidableEq, Repr

/-- Reads a range of bytes. -/
def parsePlaybackByteRange (value : String) : Option ByteRange := do
  let (start, last) ← Text.splitOnce '-' (Text.trim value.toList)
  let start ← parseU64 start
  let endInclusive ← parseU64 last
  if start ≤ endInclusive then some ⟨start, endInclusive⟩ else none

/-- Where the header is. -/
def BilibiliSegmentBase.initializationRange (base : BilibiliSegmentBase) : Option ByteRange :=
  (base.initializationCamel.or base.initializationSnake).bind parsePlaybackByteRange

/-- Where the index is. -/
def BilibiliSegmentBase.indexRange (base : BilibiliSegmentBase) : Option ByteRange :=
  (base.indexRangeCamel.or base.indexRangeSnake).bind parsePlaybackByteRange

/-- How much a codec is preferred, if it is supported: with the other decoder there are more. -/
def aacCodecPriority (fdkAacDecoder : Bool) (codec : List Char) : Option Nat :=
  if codec = "mp4a.40.2".toList then some 3
  else if fdkAacDecoder = true ∧ codec = "mp4a.40.5".toList then some 2
  else if fdkAacDecoder = true ∧ codec = "mp4a.40.29".toList then some 1
  else none

/-- By codec first, then by bandwidth, then by id. -/
abbrev QualityKey := Nat ×ₗ Nat ×ₗ Nat

namespace BilibiliAudio

/-- The address that is read. -/
def baseUrl (audio : BilibiliAudio) : Option String := audio.baseUrlCamel.or audio.baseUrlSnake

/-- The parts that are read. -/
def segmentBase (audio : BilibiliAudio) : Option BilibiliSegmentBase :=
  audio.segmentBaseCamel.or audio.segmentBaseSnake

/-- The names of the codecs, in lower case. -/
def codecNames (codecs : String) : List (List Char) :=
  (codecs.toList.splitOn ',').map fun codec => (Text.trim codec).map Char.toLower

/-- How much the best of the codecs is preferred. -/
def decoderCodecPriority (fdkAacDecoder : Bool) (audio : BilibiliAudio) : Option Nat := do
  let codecs ← audio.codecs
  (codecNames codecs).foldl (fun best codec => max best (aacCodecPriority fdkAacDecoder codec)) none

/-- How good an entry is. -/
def qualityKey (fdkAacDecoder : Bool) (audio : BilibiliAudio) : Option QualityKey := do
  let codecPriority ← audio.decoderCodecPriority fdkAacDecoder
  return toLex (codecPriority, toLex (audio.bandwidth.getD 0, audio.id))

/-- What is played of an entry, with its quality. -/
def candidate (fdkAacDecoder : Bool) (audio : BilibiliAudio) :
    Option (QualityKey × MediaCandidate) := do
  let url ← audio.baseUrl
  let key ← audio.qualityKey fdkAacDecoder
  return (key, {
    url
    initRange := audio.segmentBase.bind BilibiliSegmentBase.initializationRange
    indexRange := audio.segmentBase.bind BilibiliSegmentBase.indexRange })

end BilibiliAudio

/-- The addresses of a segment that are not empty. -/
def BilibiliDurl.candidateUrls (durl : BilibiliDurl) : List String :=
  (if durl.url ≠ "" then [durl.url] else []) ++
    (durl.backupUrl.getD []).filter fun url => decide (url ≠ "")

/-- The candidates among the entries, the best first. -/
def dashCandidates (fdkAacDecoder : Bool) (audio : List BilibiliAudio) : List MediaCandidate :=
  (sortDesc Prod.fst (audio.filterMap (BilibiliAudio.candidate fdkAacDecoder))).map Prod.snd

/-- The candidates of the older format. -/
def durlCandidates : Option (List BilibiliDurl) → Except String (List MediaCandidate)
  | some durls =>
    if 1 < durls.length then
      .error "segmented bilibili durl streams are not supported yet"
    else
      let urls := (durls.flatMap BilibiliDurl.candidateUrls).filter fun url => decide (url ≠ "")
      let candidates := urls.map fun url => MediaCandidate.mk url none none
      if candidates.isEmpty then
        .error "bilibili media stream with supported audio does not exist"
      else .ok candidates
  | none => .error "bilibili media stream with supported audio does not exist"

/-- The candidates, the best first. -/
def mediaCandidates (fdkAacDecoder : Bool) (player : BilibiliPlayerInfo) :
    Except String (List MediaCandidate) :=
  match player.dash.bind BilibiliDash.audio with
  | some audio =>
    let candidates := dashCandidates fdkAacDecoder audio
    if candidates.isEmpty then durlCandidates player.durl else .ok candidates
  | none => durlCandidates player.durl

/-- What is played. -/
def selectMedia (fdkAacDecoder : Bool) (player : BilibiliPlayerInfo) :
    Except String MediaCandidate := do
  match (← mediaCandidates fdkAacDecoder player).head? with
  | some candidate => return candidate
  | none => throw "bilibili media stream with supported audio does not exist"

/-! ## The right choice -/

namespace BilibiliAudio

/-- One of the codecs of an entry is supported. -/
def IsSupported (fdkAacDecoder : Bool) (audio : BilibiliAudio) : Prop :=
  ∃ codecs ∈ audio.codecs, ∃ codec ∈ codecNames codecs,
    (aacCodecPriority fdkAacDecoder codec).isSome = true

/-- An address is sent in one of the two fields. -/
def Spells (audio : BilibiliAudio) (url : String) : Prop :=
  audio.baseUrlCamel = some url ∨ audio.baseUrlSnake = some url

/-- An entry can be played: it has a supported codec and an address. -/
structure IsUsable (fdkAacDecoder : Bool) (audio : BilibiliAudio) : Prop where
  /-- One of its codecs is supported. -/
  supported : audio.IsSupported fdkAacDecoder
  /-- It has an address. -/
  url : ∃ url, audio.Spells url ∧ url ≠ ""

/-- How good an entry is, an entry without a supported codec being the worst. -/
def quality (fdkAacDecoder : Bool) (audio : BilibiliAudio) : QualityKey :=
  toLex ((audio.decoderCodecPriority fdkAacDecoder).getD 0,
    toLex (audio.bandwidth.getD 0, audio.id))

end BilibiliAudio

/-- What is played is of an entry, with the ranges of the entry. -/
structure MediaCandidate.IsOf (media : MediaCandidate) (audio : BilibiliAudio) : Prop where
  /-- The address is one of the entry. -/
  url : audio.Spells media.url
  /-- The header is where the entry says. -/
  initRange : media.initRange = audio.segmentBase.bind BilibiliSegmentBase.initializationRange
  /-- The index is where the entry says. -/
  indexRange : media.indexRange = audio.segmentBase.bind BilibiliSegmentBase.indexRange

/-- The first address of a segment that is not empty. -/
def BilibiliDurl.firstUrl (durl : BilibiliDurl) : Option String :=
  (durl.url :: durl.backupUrl.getD []).find? fun url => decide (url ≠ "")

/-- The audio entries of a reply. -/
def BilibiliPlayerInfo.audio (player : BilibiliPlayerInfo) : List BilibiliAudio :=
  (player.dash.bind BilibiliDash.audio).getD []

/-- What is to be expected of a choice: the best of the usable entries if there is one, else the
only segment of the older format, and nothing else. -/
structure SelectsRight (fdkAacDecoder : Bool) (player : BilibiliPlayerInfo)
    (result : Except String MediaCandidate) : Prop where
  /-- A usable entry is played, and no usable one is better. -/
  dash : (∃ audio ∈ player.audio, audio.IsUsable fdkAacDecoder) →
    ∃ audio ∈ player.audio, audio.IsUsable fdkAacDecoder ∧
      (∀ other ∈ player.audio, other.IsUsable fdkAacDecoder →
        other.quality fdkAacDecoder ≤ audio.quality fdkAacDecoder) ∧
      ∃ media : MediaCandidate, result = .ok media ∧ media.url ≠ "" ∧ media.IsOf audio
  /-- Else the first address of the only segment is. -/
  durl : (¬ ∃ audio ∈ player.audio, audio.IsUsable fdkAacDecoder) →
    ∀ durl, player.durl = some [durl] → ∀ url ∈ durl.firstUrl, result = .ok ⟨url, none, none⟩
  /-- The choice fails exactly if there is neither. -/
  fails : (∃ message, result = .error message) ↔
    (¬ ∃ audio ∈ player.audio, audio.IsUsable fdkAacDecoder) ∧
      (player.durl = none ∨ ∃ durls, player.durl = some durls ∧
        (1 < durls.length ∨ ∀ durl ∈ durls, durl.firstUrl = none))
  /-- The address is not empty, and an entry that is played has a supported codec. -/
  sound : ∀ media, result = .ok media → media.url ≠ "" ∧
    ((∃ audio ∈ player.audio, audio.IsSupported fdkAacDecoder ∧ media.IsOf audio) ∨
      ∃ durls, player.durl = some durls ∧ ∃ durl ∈ durls,
        durl.firstUrl = some media.url ∧ media.initRange = none ∧ media.indexRange = none)

/-! ## What is chosen -/

namespace BilibiliAudio

variable {fdkAacDecoder : Bool}

/-- The best codec is the one with the greatest priority. -/
theorem decoderCodecPriority_eq (audio : BilibiliAudio) :
    audio.decoderCodecPriority fdkAacDecoder =
      audio.codecs.bind fun codecs =>
        ((codecNames codecs).filterMap (aacCodecPriority fdkAacDecoder)).max? := by
  have hsome : ∀ (names : List (List Char)) (best : Nat),
      names.foldl (fun best codec => max best (aacCodecPriority fdkAacDecoder codec)) (some best) =
        some ((names.filterMap (aacCodecPriority fdkAacDecoder)).foldl max best) := by
    intro names
    induction names with
    | nil => exact fun best => rfl
    | cons codec names ih =>
      intro best
      rw [List.foldl_cons, List.filterMap_cons]
      cases aacCodecPriority fdkAacDecoder codec with
      | none => exact ih best
      | some priority => exact ih (max best priority)
  have hnone : ∀ names : List (List Char),
      names.foldl (fun best codec => max best (aacCodecPriority fdkAacDecoder codec)) none =
        (names.filterMap (aacCodecPriority fdkAacDecoder)).max? := by
    intro names
    induction names with
    | nil => rfl
    | cons codec names ih =>
      rw [List.foldl_cons, List.filterMap_cons]
      cases aacCodecPriority fdkAacDecoder codec with
      | none => exact ih
      | some priority => exact hsome names priority
  unfold decoderCodecPriority
  simp only [hnone]
  rfl

/-- A best codec is found exactly if one of the codecs is supported. -/
theorem isSome_decoderCodecPriority (audio : BilibiliAudio) :
    (audio.decoderCodecPriority fdkAacDecoder).isSome = true ↔ audio.IsSupported fdkAacDecoder := by
  rw [decoderCodecPriority_eq]
  unfold IsSupported
  cases audio.codecs with
  | none => simp
  | some codecs =>
    rw [Option.bind_some, List.isSome_max?_iff, ne_eq, List.filterMap_eq_nil_iff]
    simp only [Option.mem_some_iff, exists_eq_left', not_forall, exists_prop,
      Option.isSome_iff_ne_none, ne_eq]

/-- An entry is a candidate: it has a supported codec, and an address is sent, be it empty. -/
def competes (fdkAacDecoder : Bool) (audio : BilibiliAudio) : Bool :=
  audio.baseUrl.isSome && (audio.decoderCodecPriority fdkAacDecoder).isSome

/-- What is played of it. -/
def media (audio : BilibiliAudio) : MediaCandidate where
  url := audio.baseUrl.getD ""
  initRange := audio.segmentBase.bind BilibiliSegmentBase.initializationRange
  indexRange := audio.segmentBase.bind BilibiliSegmentBase.indexRange

/-- The candidate that comes first: the first one that no other one exceeds. -/
def top (fdkAacDecoder : Bool) (audio : List BilibiliAudio) : Option BilibiliAudio :=
  firstGreatest (quality fdkAacDecoder) (audio.filter (competes fdkAacDecoder))

/-- What is played of a candidate, with its quality. -/
theorem candidate_eq (audio : BilibiliAudio) :
    audio.candidate fdkAacDecoder =
      if audio.competes fdkAacDecoder = true then
        some (audio.quality fdkAacDecoder, audio.media)
      else none := by
  unfold candidate qualityKey competes quality media
  cases audio.baseUrl with
  | none => rfl
  | some url =>
    cases audio.decoderCodecPriority fdkAacDecoder with
    | none => rfl
    | some priority => rfl

/-- The candidates are brought into their order by their quality. -/
theorem filterMap_candidate (audio : List BilibiliAudio) :
    audio.filterMap (candidate fdkAacDecoder) =
      (audio.filter (competes fdkAacDecoder)).map
        fun entry => (entry.quality fdkAacDecoder, entry.media) := by
  induction audio with
  | nil => rfl
  | cons entry audio ih =>
    rw [List.filterMap_cons, candidate_eq, List.filter_cons]
    split_ifs with hcompetes
    · rw [List.map_cons, ih]
    · exact ih

/-- A usable entry is a candidate. -/
theorem IsUsable.competes {audio : BilibiliAudio} (h : audio.IsUsable fdkAacDecoder) :
    audio.competes fdkAacDecoder = true := by
  obtain ⟨url, hurl, -⟩ := h.url
  have hsome : audio.baseUrl.isSome = true := by
    unfold baseUrl
    rcases hurl with hcamel | hsnake
    · simp [hcamel]
    · simp [hsnake]
  rw [BilibiliAudio.competes, hsome, (isSome_decoderCodecPriority audio).2 h.supported]
  rfl

/-- The address that is read is one of the two. -/
theorem spells_baseUrl {audio : BilibiliAudio} {url : String} (h : audio.baseUrl = some url) :
    audio.Spells url := by
  rcases Option.or_eq_some_iff.1 h with hcamel | ⟨-, hsnake⟩
  · exact .inl hcamel
  · exact .inr hsnake

/-- What is played of an entry is of that entry, if an address is sent. -/
theorem isOf_media {audio : BilibiliAudio} {url : String} (h : audio.baseUrl = some url) :
    audio.media.IsOf audio := by
  refine ⟨?_, rfl, rfl⟩
  have hurl : audio.media.url = url := by
    rw [media, h]
    rfl
  rw [hurl]
  exact spells_baseUrl h

end BilibiliAudio

/-- The first of the candidates is played of the one that comes first. -/
theorem head?_dashCandidates (fdkAacDecoder : Bool) (audio : List BilibiliAudio) :
    (dashCandidates fdkAacDecoder audio).head? =
      (BilibiliAudio.top fdkAacDecoder audio).map BilibiliAudio.media := by
  rw [dashCandidates, List.head?_map, head?_sortDesc, BilibiliAudio.filterMap_candidate,
    firstGreatest_map, Option.map_map]
  rfl

/-- The addresses of a segment, without the empty ones. -/
theorem BilibiliDurl.candidateUrls_eq (durl : BilibiliDurl) :
    durl.candidateUrls =
      (durl.url :: durl.backupUrl.getD []).filter fun url => decide (url ≠ "") := by
  rw [candidateUrls, List.filter_cons]
  by_cases hurl : durl.url = ""
  · simp [hurl]
  · simp [hurl]

/-- The only segment of the older format gives its first address, and there is none otherwise. -/
theorem durlCandidates_cases (durl : Option (List BilibiliDurl)) :
    (∃ segment url rest, durl = some [segment] ∧ segment.firstUrl = some url ∧
        durlCandidates durl = .ok (⟨url, none, none⟩ :: rest)) ∨
      ((durl = none ∨ ∃ durls, durl = some durls ∧
          (1 < durls.length ∨ ∀ segment ∈ durls, segment.firstUrl = none)) ∧
        ∃ message, durlCandidates durl = .error message) := by
  cases durl with
  | none => exact .inr ⟨.inl rfl, _, rfl⟩
  | some durls =>
    match durls with
    | [] => exact .inr ⟨.inr ⟨[], rfl, .inr (by simp)⟩, _, rfl⟩
    | [segment] =>
      have hurls : ([segment].flatMap BilibiliDurl.candidateUrls).filter
          (fun url => decide (url ≠ "")) =
            (segment.url :: segment.backupUrl.getD []).filter fun url => decide (url ≠ "") := by
        rw [List.flatMap_singleton, segment.candidateUrls_eq, List.filter_filter]
        simp only [Bool.and_self]
      have hfirst : segment.firstUrl =
          ((segment.url :: segment.backupUrl.getD []).filter fun url => decide (url ≠ "")).head? :=
        List.head?_filter.symm
      cases hcandidates : (segment.url :: segment.backupUrl.getD []).filter
          (fun url => decide (url ≠ "")) with
      | nil =>
        rw [hcandidates] at hfirst hurls
        refine .inr ⟨.inr ⟨_, rfl, .inr fun other hother => ?_⟩, ?_⟩
        · rw [List.mem_singleton.1 hother]
          exact hfirst
        · rw [durlCandidates, if_neg (by simp)]
          dsimp only
          rw [hurls]
          exact ⟨_, rfl⟩
      | cons url rest =>
        rw [hcandidates] at hfirst hurls
        refine .inl ⟨segment, url, rest.map fun url => ⟨url, none, none⟩, rfl, hfirst, ?_⟩
        rw [durlCandidates, if_neg (by simp)]
        dsimp only
        rw [hurls]
        rfl
    | first :: second :: rest =>
      have hmany : 1 < (first :: second :: rest).length := by
        simp
      refine .inr ⟨.inr ⟨_, rfl, .inl hmany⟩, ?_⟩
      rw [durlCandidates, if_pos hmany]
      exact ⟨_, rfl⟩

/-- The older format is turned to if there is no candidate among the entries. -/
theorem mediaCandidates_eq (fdkAacDecoder : Bool) (player : BilibiliPlayerInfo) :
    mediaCandidates fdkAacDecoder player =
      if (dashCandidates fdkAacDecoder player.audio).isEmpty then durlCandidates player.durl
      else .ok (dashCandidates fdkAacDecoder player.audio) := by
  unfold mediaCandidates BilibiliPlayerInfo.audio
  cases player.dash.bind BilibiliDash.audio with
  | none => simp [dashCandidates, sortDesc]
  | some entries => rfl

/-- Whatever comes first is played. -/
theorem selectMedia_of_top {fdkAacDecoder : Bool} {player : BilibiliPlayerInfo}
    {audio : BilibiliAudio} (h : BilibiliAudio.top fdkAacDecoder player.audio = some audio) :
    selectMedia fdkAacDecoder player = .ok audio.media := by
  have hhead := head?_dashCandidates fdkAacDecoder player.audio
  rw [h, Option.map_some] at hhead
  obtain ⟨rest, hrest⟩ := List.head?_eq_some_iff.1 hhead
  rw [selectMedia, mediaCandidates_eq, hrest]
  rfl

/-- Without a candidate among the entries, the older format is turned to. -/
theorem mediaCandidates_of_top_eq_none {fdkAacDecoder : Bool} {player : BilibiliPlayerInfo}
    (h : BilibiliAudio.top fdkAacDecoder player.audio = none) :
    mediaCandidates fdkAacDecoder player = durlCandidates player.durl := by
  have hhead := head?_dashCandidates fdkAacDecoder player.audio
  rw [h, Option.map_none, List.head?_eq_none_iff] at hhead
  rw [mediaCandidates_eq, hhead]
  rfl

/-- A segment with an address is not missing. -/
theorem not_missing_of_firstUrl {durl : Option (List BilibiliDurl)} {segment : BilibiliDurl}
    {url : String} (hdurl : durl = some [segment]) (hurl : segment.firstUrl = some url) :
    ¬ (durl = none ∨ ∃ durls, durl = some durls ∧
      (1 < durls.length ∨ ∀ segment ∈ durls, segment.firstUrl = none)) := by
  subst hdurl
  rintro (hnone | ⟨durls, hdurls, hmissing⟩)
  · cases hnone
  · obtain rfl := Option.some.inj hdurls
    rcases hmissing with hmany | hempty
    · exact absurd hmany (by simp)
    · rw [hempty segment List.mem_cons_self] at hurl
      cases hurl

/-- Without a candidate among the entries, the choice is right. -/
theorem selectsRight_of_top_eq_none {fdkAacDecoder : Bool} {player : BilibiliPlayerInfo}
    (h : BilibiliAudio.top fdkAacDecoder player.audio = none) :
    SelectsRight fdkAacDecoder player (selectMedia fdkAacDecoder player) := by
  have hnone : ¬ ∃ audio ∈ player.audio, audio.IsUsable fdkAacDecoder := by
    rintro ⟨audio, hmem, husable⟩
    have hnil := firstGreatest_eq_none_iff.1 h
    exact List.filter_eq_nil_iff.1 hnil audio hmem husable.competes
  rw [selectMedia, mediaCandidates_of_top_eq_none h]
  rcases durlCandidates_cases player.durl with
    ⟨segment, url, rest, hdurl, hurl, hcandidates⟩ | ⟨hmissing, message, hcandidates⟩
  · rw [hcandidates]
    refine ⟨fun husable => absurd husable hnone, fun _ => ?_, ?_, ?_⟩
    · intro other hother url' hurl'
      rw [hdurl] at hother
      obtain rfl : segment = other := by simpa using hother
      rw [hurl] at hurl'
      obtain rfl := Option.some.inj hurl'
      rfl
    · exact ⟨nofun, fun ⟨_, hmissing⟩ => absurd hmissing (not_missing_of_firstUrl hdurl hurl)⟩
    · intro media hmedia
      obtain rfl : (⟨url, none, none⟩ : MediaCandidate) = media := Except.ok.inj hmedia
      have hne : url ≠ "" := by simpa using List.find?_some hurl
      exact ⟨hne, .inr ⟨_, hdurl, segment, List.mem_cons_self, hurl, rfl, rfl⟩⟩
  · rw [hcandidates]
    refine ⟨fun husable => absurd husable hnone, fun _ => ?_, ?_, nofun⟩
    · intro segment hdurl url hurl
      exact absurd hmissing (not_missing_of_firstUrl hdurl hurl)
    · exact ⟨fun _ => ⟨hnone, hmissing⟩, fun _ => ⟨message, rfl⟩⟩

/-- If an entry with an address comes first, the choice is right. -/
theorem selectsRight_of_top {fdkAacDecoder : Bool} {player : BilibiliPlayerInfo}
    {audio : BilibiliAudio} (h : BilibiliAudio.top fdkAacDecoder player.audio = some audio)
    {url : String} (hurl : audio.baseUrl = some url) (hne : url ≠ "") :
    SelectsRight fdkAacDecoder player (selectMedia fdkAacDecoder player) := by
  obtain ⟨hmem, hcompetes⟩ := List.mem_filter.1 (mem_of_firstGreatest h)
  have hsupported : audio.IsSupported fdkAacDecoder := by
    rw [BilibiliAudio.competes, Bool.and_eq_true] at hcompetes
    exact audio.isSome_decoderCodecPriority.1 hcompetes.2
  have husable : audio.IsUsable fdkAacDecoder :=
    ⟨hsupported, url, BilibiliAudio.spells_baseUrl hurl, hne⟩
  have hplayed : audio.media.url ≠ "" := by
    rw [BilibiliAudio.media, hurl]
    exact hne
  rw [selectMedia_of_top h]
  refine ⟨fun _ => ?_, fun hnone => absurd ⟨audio, hmem, husable⟩ hnone, ?_, ?_⟩
  · refine ⟨audio, hmem, husable, fun other hother hotherUsable => ?_, audio.media, rfl, hplayed,
      BilibiliAudio.isOf_media hurl⟩
    exact le_of_firstGreatest h other (List.mem_filter.2 ⟨hother, hotherUsable.competes⟩)
  · exact ⟨nofun, fun ⟨hnone, _⟩ => absurd ⟨audio, hmem, husable⟩ hnone⟩
  · intro media hmedia
    obtain rfl := Except.ok.inj hmedia
    exact ⟨hplayed, .inl ⟨audio, hmem, hsupported, BilibiliAudio.isOf_media hurl⟩⟩

/-- An entry with an empty text in one field and its address in the other. -/
def shadowedAudio : BilibiliAudio where
  id := 30280
  bandwidth := some 192000
  codecs := some "mp4a.40.2"
  baseUrlCamel := some ""
  baseUrlSnake := some "https://example.test/audio.m4s"
  segmentBaseCamel := none
  segmentBaseSnake := none

end LightEar
