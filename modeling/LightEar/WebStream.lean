import LightEar.MediaSources
import LightEar.RangeRetry
import LightEar.StreamingDownload

/-!
# From the web server to the decoder

A downloader asks a web server for the parts of a media file, again if need be, and puts them where
the decoder reads them.  The server may refuse, break off, send the whole file for a part of it or
too little; what it sends is from the file, and the length that it tells is the file's.

Then the decoder reads the file (`web_stream_reads`), in any interleaving with the downloader and
the player, whatever goes wrong on the way: what cannot be fetched is not there, but nothing else is
there instead.
-/

namespace LightEar

open Foundation

universe u v

variable {α : Type u} {β : Type v}

/-! ## What the downloader does to the bytes -/

/-- What holds in a phase of the download of a file of a length. -/
def DownloadPhase.IsAbout (length : Nat) : DownloadPhase → Prop
  | probing => True
  | fetchingMedia total => total = length ∧ 0 < total
  | looping total => total = length
  | choosing total _ => total = length
  | fetching total range => total = length ∧ range.start ≤ range.endInclusive ∧
      range.endInclusive ≤ total - 1
  | appended total => total = length
  | returned => True

/-- Answers are from the file. -/
def DownloadAction.IsFrom (media : List α) (s : DownloadState α) : DownloadAction α → Prop
  | probed answer => ∀ total, answer = .ok (some total) → total.toNat = media.length
  | mediaFetched answer => ∀ bytes, answer = .ok bytes → bytes <+: media
  | fetched answer => ∀ total range bytes, s.phase = .fetching total range →
      answer = .ok bytes → bytes.length = range.len → bytes <+: media.drop range.start
  | _ => True

namespace DownloadState

variable (job : DownloadJob) {s : DownloadState α} {media : List α}

/-- From one state to another, something from the file is done to the bytes, and the download is
still about the file. -/
structure Serves (media : List α) (s s' : DownloadState α) : Prop where
  /-- What is done to the bytes. -/
  shared : ∃ actions, s'.shared = s.shared.performAll actions ∧
    ∀ action ∈ actions, (SourceAction.bytes action).IsFrom media
  /-- The new phase. -/
  phase : s'.phase.IsAbout media.length

/-- One thing is done to the bytes. -/
theorem Serves.one {s' : DownloadState α} (action : BytesAction α)
    (hshared : s'.shared = s.shared.perform action)
    (haction : (SourceAction.bytes action).IsFrom media)
    (hphase : s'.phase.IsAbout media.length) : Serves media s s' :=
  ⟨⟨[action], hshared, List.forall_mem_singleton.2 haction⟩, hphase⟩

/-- Nothing is done to the bytes. -/
theorem Serves.none {s' : DownloadState α} (hshared : s'.shared = s.shared)
    (hphase : s'.phase.IsAbout media.length) : Serves media s s' :=
  ⟨⟨[], hshared, List.forall_mem_nil _⟩, hphase⟩

/-- One step after another. -/
theorem Serves.trans {s' s'' : DownloadState α} (h : Serves media s s')
    (h' : Serves media s' s'') : Serves media s s'' := by
  obtain ⟨⟨actions, hshared, hfrom⟩, -⟩ := h
  obtain ⟨⟨actions', hshared', hfrom'⟩, hphase⟩ := h'
  refine ⟨⟨actions ++ actions', ?_, List.forall_mem_append.2 ⟨hfrom, hfrom'⟩⟩, hphase⟩
  rw [hshared', hshared]
  exact (List.foldl_append ..).symm

/-- A failure is noted. -/
theorem serves_fails (s : DownloadState α) (error : String) :
    Serves media s (s.fails job error) := by
  unfold fails
  split
  · exact .none rfl trivial
  · exact .one (.fail error) rfl trivial trivial

theorem serves_entersLoop (s : DownloadState α) :
    Serves media s (s.entersLoop job media.length) :=
  .one (.prioritizeOffset _) rfl trivial rfl

/-- A range that is fetched lies in the file. -/
theorem serves_fetches (s : DownloadState α) (start : Nat) :
    Serves media s (s.fetches job media.length start) := by
  unfold fetches
  cases hrange : streamFetchRange start media.length with
  | error error => exact serves_fails job s error
  | ok range =>
    unfold fetchesRange
    dsimp only
    split
    · exact .none rfl rfl
    · refine .none rfl ⟨rfl, ?_⟩
      unfold streamFetchRange ByteRange.new at hrange
      dsimp only at hrange
      split at hrange
      · cases hrange
      · rename_i hnonempty
        cases hrange
        exact ⟨not_lt.1 hnonempty, Nat.min_le_right _ _⟩

theorem serves_retain (s : DownloadState α) (positionMs durationMs : Nat)
    {phase : DownloadPhase} (hphase : phase.IsAbout media.length) :
    Serves media s { s with
      shared := retainStreamingByteWindow s.shared positionMs durationMs media.length
      phase } := by
  unfold retainStreamingByteWindow
  split
  · exact .none rfl hphase
  · exact .one (.retainWindow _ _) rfl trivial hphase

/-- The parts that are wanted first are pinned and asked for. -/
theorem serves_pinAndRequest (s : DownloadState α) (ranges : List ByteRange)
    (hphase : s.phase.IsAbout media.length) :
    Serves media s { s with
      shared := ranges.foldl (fun shared range => shared.requestOffset range.start)
        (s.shared.pinRanges ranges) } := by
  refine ⟨⟨.pinRanges ranges :: ranges.map fun range => .requestOffset range.start, ?_, ?_⟩, hphase⟩
  · unfold StreamingBytesState.performAll
    rw [List.foldl_cons, List.foldl_map]
    rfl
  · rw [List.forall_mem_cons, List.forall_mem_map]
    exact ⟨trivial, fun _ _ => trivial⟩

theorem serves_probeAnswered (hphase : s.phase.IsAbout media.length)
    {answer : Except String (Option UInt64)}
    (hanswer : ∀ total, answer = .ok (some total) → total.toNat = media.length) :
    Serves media s (s.probeAnswered job answer) := by
  cases answer with
  | error error => exact serves_fails job s error
  | ok total =>
    cases total with
    | none => exact serves_fails job s _
    | some total =>
      have htotal := hanswer total rfl
      change Serves media s (s.probed job total.toNat)
      rw [htotal]
      have hset : Serves media s { s with shared := s.shared.setTotal (some media.length) } :=
        .one (.setTotal (some media.length)) rfl
          (fun length hlength => (Option.mem_some_iff.1 hlength).symm) hphase
      unfold probed
      dsimp only
      split
      · rename_i hfull
        simp only [shouldFullFetchMissingMetadata, Bool.and_eq_true, decide_eq_true_eq] at hfull
        exact ⟨hset.shared, rfl, hfull.1.2⟩
      · cases streamMetadataPrefetchRanges (metadataRanges job.track media.length)
          media.length with
        | error error => exact hset.trans (serves_fails job _ error)
        | ok ranges =>
          exact (hset.trans (serves_pinAndRequest _ ranges hphase)).trans (serves_entersLoop job _)

/-- The whole file is a part of itself. -/
theorem isPartOf_full {bytes : List α} (hbytes : bytes <+: media)
    (hlength : bytes.length = media.length) (hpos : 0 < media.length) :
    StreamingByteChunk.IsPartOf ⟨⟨0, media.length - 1⟩, bytes⟩ media := by
  refine ⟨Nat.zero_le _, ?_, ?_⟩
  · change bytes.length = media.length - 1 - 0 + 1
    omega
  · exact hbytes

theorem serves_mediaFetched {bytes : List α} (hpos : 0 < media.length) (hbytes : bytes <+: media)
    (hphase : s.phase.IsAbout media.length) :
    Serves media s (s.mediaFetched job media.length bytes) := by
  unfold mediaFetched
  split
  · exact serves_fails job s _
  · rename_i hlength
    cases hrange : ByteRange.new 0 (media.length - 1) with
    | error error => exact serves_fails job s error
    | ok range =>
      obtain rfl := ByteRange.eq_of_new hrange
      have hpart := isPartOf_full hbytes (not_not.1 hlength) hpos
      have happended : Serves media s { s with
          shared := (s.shared.pinRanges [⟨0, media.length - 1⟩]).append bytes
            ⟨0, media.length - 1⟩ } := by
        refine ⟨⟨[.pinRanges [⟨0, media.length - 1⟩], .append bytes ⟨0, media.length - 1⟩],
          rfl, ?_⟩, hphase⟩
        exact List.forall_mem_cons.2 ⟨trivial, List.forall_mem_singleton.2 hpart⟩
      exact happended.trans (serves_entersLoop job _)

theorem serves_chooses (hphase : s.phase.IsAbout media.length) (currentPositionMs : Nat) :
    Serves media s (s.chooses job media.length currentPositionMs) := by
  have htaken : ∀ prefetchPaused, Serves media s { s with
      shared := (s.shared.takeRequestedOffset media.length).2, prefetchPaused } :=
    fun prefetchPaused => .one (.takeRequestedOffset media.length) rfl trivial hphase
  unfold chooses
  dsimp only
  generalize s.shared.takeRequestedOffset media.length = taken at htaken ⊢
  obtain ⟨requested, shared⟩ := taken
  cases requested with
  | some requested => exact (htaken false).trans (serves_fetches job _ _)
  | none =>
    dsimp only
    split
    · exact ⟨(htaken s.prefetchPaused).shared, rfl⟩
    · split
      · exact ⟨(htaken true).shared, rfl⟩
      · split
        · exact ⟨(htaken false).shared, rfl⟩
        · exact (htaken false).trans (serves_fetches job _ _)

/-- Whatever downloader, decoder and player do: what is from the file is done to the bytes. -/
theorem serves_step (hphase : s.phase.IsAbout media.length) {action : DownloadAction α}
    (haction : action.IsFrom media s) : Serves media s (s.step job action) := by
  have hnothing : Serves media s s := .none rfl hphase
  cases action with
  | probed answer =>
    unfold step
    dsimp only
    split
    · exact serves_probeAnswered job hphase haction
    · exact hnothing
  | mediaFetched answer =>
    unfold step
    dsimp only
    split
    · rename_i total bytes hfetching
      rw [hfetching] at hphase
      obtain ⟨rfl, hpos⟩ := hphase
      exact serves_mediaFetched job hpos (haction bytes rfl) (hfetching ▸ ⟨rfl, hpos⟩)
    · exact serves_fails job s _
    · exact hnothing
  | looks positionMs =>
    unfold step
    dsimp only
    split
    · rename_i total hlooping
      rw [hlooping] at hphase
      obtain rfl := hphase
      unfold looks
      split
      · exact .none rfl trivial
      · exact serves_retain s _ _ rfl
    · exact hnothing
  | chooses =>
    unfold step
    dsimp only
    split
    · rename_i total currentPositionMs hchoosing
      have hphase' := hphase
      rw [hchoosing] at hphase
      obtain rfl := hphase
      exact serves_chooses job hphase' currentPositionMs
    · exact hnothing
  | fetched answer =>
    unfold step
    dsimp only
    split
    · rename_i total range bytes hfetching
      rw [hfetching] at hphase
      obtain ⟨rfl, hvalid, -⟩ := hphase
      split
      · rename_i hlength
        have hbytes := haction _ range bytes hfetching rfl hlength
        exact .one (.append bytes range) rfl ⟨hvalid, hlength, hbytes⟩ rfl
      · exact hnothing
    · exact serves_fails job s _
    · exact hnothing
  | retains positionMs =>
    unfold step
    dsimp only
    split
    · rename_i total happended
      rw [happended] at hphase
      obtain rfl := hphase
      exact serves_retain s _ _ rfl
    · exact hnothing
  | reads offset len decoderCanceled =>
    exact .one (.readAt offset len decoderCanceled) rfl trivial hphase
  | restarts positionMs =>
    unfold step restarts
    dsimp only
    split
    · exact hnothing
    · exact .one (.prioritizeOffset _) rfl trivial hphase
  | cancels => exact .one .cancel rfl trivial hphase

/-- The whole file has come and is written to the cache, if that works. -/
def mediaWritten (s : DownloadState α) (total : Nat) (written : Except String Unit) :
    Except String (List α) → DownloadState α
  | .error error => s.step job (.mediaFetched (.error error))
  | .ok bytes =>
    match written with
    | .ok () => s.step job (.mediaFetched (.ok bytes))
    | .error error =>
      -- the length is checked and the file pinned before it is written
      if bytes.length = total then
        { s with shared := s.shared.pinRanges [⟨0, total - 1⟩] }.fails job error
      else s.step job (.mediaFetched (.ok bytes))

theorem serves_mediaWritten {total : Nat} (hphase : s.phase.IsAbout media.length)
    (written : Except String Unit) {answer : Except String (List α)}
    (hanswer : ∀ bytes, answer = .ok bytes → bytes <+: media) :
    Serves media s (s.mediaWritten job total written answer) := by
  have hstep : ∀ answer, (∀ bytes, answer = .ok bytes → bytes <+: media) →
      Serves media s (s.step job (.mediaFetched answer)) := by
    intro answer hfrom
    have haction : (DownloadAction.mediaFetched answer).IsFrom media s := hfrom
    exact serves_step job hphase haction
  unfold mediaWritten
  split
  · exact hstep _ (by simp)
  · rename_i bytes
    split
    · exact hstep _ hanswer
    · split
      · have hpinned : Serves media s { s with shared := s.shared.pinRanges [⟨0, total - 1⟩] } :=
          .one (.pinRanges [⟨0, total - 1⟩]) rfl trivial hphase
        exact hpinned.trans (serves_fails job _ _)
      · exact hstep _ hanswer

end DownloadState

/-! ## What the server answers -/

/-- A reply to what is asked for is about the file: parts of it come from where they should, or the
whole file comes in their place, and the length told is the file's. -/
def Response.IsFrom (media : List α) (response : Response α) : StreamRequest → Prop
  | .probe => ∃ sent, response.headers.Reports media.length sent ∧
      ∀ range ∈ sent, range.total.isSome = true
  | .part range => ∀ bytes, response.body = .ok bytes →
      bytes = media ∨ bytes <+: media.drop range.start
  | .full => ∀ bytes, response.body = .ok bytes → bytes <+: media

/-- Replies that say that something went well are about the file. -/
def Exchange.IsFrom (media : List α) (exchange : Exchange α) : Prop :=
  ∀ made ∈ exchange.attempts, ∀ response, made.reply = .ok response →
    response.status.isSuccess = true → response.IsFrom media exchange.request

/-- What is fetched in the end is the answer of one of the requests. -/
theorem exists_of_fetched {answer : Reply α → Except MediaRangeError β}
    {context : Nat → String} {pacer : StreamRequestPacer} {attempt : Nat}
    {attempts : List (Attempt α)} {value : β}
    (h : (fetchWithRetry answer context pacer attempt attempts).outcome.answer? =
      some (.ok value)) :
    ∃ made ∈ attempts, answer made.reply = .ok value := by
  induction attempts generalizing pacer attempt with
  | nil => cases h
  | cons made later ih =>
    unfold fetchWithRetry at h
    split at h
    · cases h
    · cases h
    · split at h
      · rename_i value' hanswer
        cases h
        exact ⟨made, List.mem_cons_self, hanswer⟩
      · split at h
        · cases h
        · split at h
          · cases h
          · cases h
          · obtain ⟨other, hother, hanswer⟩ := ih h
            exact ⟨other, List.mem_cons_of_mem _ hother, hanswer⟩

theorem exists_of_probeRangeSupport {reply : Reply α} {probe : RangeProbe}
    (h : probeRangeSupport reply = .ok probe) :
    ∃ response, reply = .ok response ∧ response.status.isSuccess = true ∧
      probe = parseRangeProbe response.headers := by
  unfold probeRangeSupport at h
  dsimp only at h
  split at h
  · cases h
  · rename_i response
    split at h
    · cases h
    · rename_i hsuccess
      split at h
      · cases h
      · cases h
        exact ⟨response, rfl, by simpa using hsuccess, rfl⟩

theorem exists_of_fetchRangeBytes {range : ByteRange} {reply : Reply α} {bytes : List α}
    {probe : RangeProbe} (h : fetchRangeBytes range reply = .ok (bytes, probe)) :
    ∃ response, reply = .ok response ∧ response.status.isSuccess = true ∧
      response.body = .ok bytes ∧ bytes.length = range.len := by
  unfold fetchRangeBytes at h
  dsimp only at h
  split at h
  · cases h
  · rename_i response
    split at h
    · cases h
    · rename_i hsuccess
      split at h
      · cases h
      · split at h
        · cases h
        · rename_i hbody
          split at h
          · cases h
          · rename_i hlength
            cases h
            exact ⟨response, rfl, by simpa using hsuccess, hbody, not_not.1 hlength⟩

theorem exists_of_fetchFullMediaBytes {reply : Reply α} {bytes : List α}
    (h : fetchFullMediaBytes reply = .ok bytes) :
    ∃ response, reply = .ok response ∧ response.status.isSuccess = true ∧
      response.body = .ok bytes := by
  unfold fetchFullMediaBytes at h
  dsimp only at h
  split at h
  · cases h
  · rename_i response
    split at h
    · cases h
    · rename_i hsuccess
      split at h
      · cases h
      · rename_i hbody
        cases h
        exact ⟨response, rfl, by simpa using hsuccess, hbody⟩

/-- A length that is told by a reply about the file is the file's. -/
theorem totalBytes_of_reports {length : Nat} (hlength : length ≤ u64Max) {headers : HeaderMap}
    {sent : Option ContentRange} (h : headers.Reports length sent)
    (htold : ∀ range ∈ sent, range.total.isSome = true) :
    ∀ total ∈ (parseRangeProbe headers).totalBytes, total = length := by
  intro total htotal
  cases h with
  | part range hnonempty hinside hknown hrange hsize =>
    obtain ⟨value, hvalue, hwritten⟩ := hrange
    have hbounds := ContentRange.inRange_of_inside hlength hnonempty hinside hknown
    rw [totalBytes_of_written hvalue hwritten hbounds] at htotal
    rcases hknown with hopen | hlast
    · have hsome := htold range rfl
      rw [hopen] at hsome
      cases hsome
    · rw [hlast] at htotal
      exact (Option.some.inj htotal).symm
  | whole hrange hsize =>
    have hnone : headers.getStr "content-range" = none := by
      unfold HeaderMap.getStr
      rw [hrange]
      rfl
    unfold parseRangeProbe at htotal
    rw [hnone] at htotal
    obtain ⟨size, hvalue, hparsed⟩ := Option.bind_eq_some_iff.1 htotal
    rw [parseU64, (hsize size hvalue).parseUnsigned_eq hlength] at hparsed
    exact (Option.some.inj hparsed).symm

/-! ## A stream from the web -/

/-- A download with its pacer and a decoder that reads what comes. -/
structure WebStream (α : Type u) where
  /-- The download. -/
  download : DownloadState α
  /-- The distance between the requests to the server. -/
  pacer : StreamRequestPacer
  /-- The place of the decoder in the file. -/
  cursor : Nat
  /-- What the decoder has asked for, with the answers. -/
  answers : List (FileEvent α)

/-- What happens to a stream from the web.  The downloader asks for something and, if it is a part
of the file, writes it to the cache; or it goes on; or the player does something, or a decoder,
this one or one that is not needed any more. -/
inductive StreamEvent (α : Type u) where
  | asks (exchange : Exchange α) (written : Except String Unit)
  | looks (positionMs : Nat)
  | chooses
  | retains (positionMs : Nat)
  | restarts (positionMs : Nat)
  | cancels
  | readsElsewhere (offset len : Nat) (decoderCanceled : Bool)
  | decodes (request : MediaRequest) (decoderCanceled : Bool)

/-- Replies are about the file, and places can be named. -/
def StreamEvent.IsFrom (media : List α) : StreamEvent α → Prop
  | asks exchange _ => exchange.IsFrom media
  | decodes request _ => request.IsPossible
  | _ => True

namespace WebStream

/-- Before the probe. -/
def new : WebStream α where
  download := .new
  pacer := ⟨none⟩
  cursor := 0
  answers := []

/-- The decoder's source. -/
def decoded (s : WebStream α) : Answered (StreamingMediaSource α) α where
  source := ⟨s.download.shared, s.cursor⟩
  events := s.answers

/-- The downloader goes on with what it is given, once it is given something. -/
def hears (job : DownloadJob) (s : WebStream α) (result : FetchResult β)
    (goesOn : DownloadState α → Except String β → DownloadState α) : WebStream α :=
  match result.outcome.answer? with
  | none => s
  | some answer =>
    let said := result.statuses.map fun _ =>
      AudioPlayerEvent.downloadStatus job.operationId job.sessionId job.track.trackId
    { s with
      download := goesOn { s.download with events := s.download.events ++ said } answer
      pacer := result.pacer }

/-- The downloader asks for what it needs; nothing else is asked for. -/
def asks (job : DownloadJob) (s : WebStream α) (exchange : Exchange α)
    (written : Except String Unit) : WebStream α :=
  match s.download.phase, exchange.request with
  | .probing, .probe =>
    s.hears job (probeStreamRangeWithRetry s.pacer exchange.attempts) fun download answer =>
      download.step job (.probed (answer.map fun probe => probe.totalBytes.map UInt64.ofNat))
  | .fetchingMedia total, .full =>
    s.hears job (fetchFullMediaWithRetry s.pacer exchange.attempts) fun download answer =>
      download.mediaWritten job total written answer
  | .fetching _ range, .part asked =>
    if asked = range then
      s.hears job (fetchStreamRangeWithRetry range s.pacer exchange.attempts)
        fun download answer =>
          download.step job (.fetched (answer.bind fun fetched => written.map fun _ => fetched.1))
    else s
  | _, _ => s

/-- The downloader, the player or another decoder does something. -/
def does (job : DownloadJob) (s : WebStream α) (action : DownloadAction α) : WebStream α :=
  { s with download := s.download.step job action }

/-- The decoder asks its source. -/
def decodes (s : WebStream α) (request : MediaRequest) (decoderCanceled : Bool) : WebStream α :=
  let r := StreamingMediaSource.answer s.decoded (.request request decoderCanceled)
  { s with
    download := { s.download with shared := r.source.shared }
    cursor := r.source.cursor
    answers := r.events }

/-- One event. -/
def step (job : DownloadJob) (s : WebStream α) : StreamEvent α → WebStream α
  | .asks exchange written => s.asks job exchange written
  | .looks positionMs => s.does job (.looks positionMs)
  | .chooses => s.does job .chooses
  | .retains positionMs => s.does job (.retains positionMs)
  | .restarts positionMs => s.does job (.restarts positionMs)
  | .cancels => s.does job .cancels
  | .readsElsewhere offset len decoderCanceled => s.does job (.reads offset len decoderCanceled)
  | .decodes request decoderCanceled => s.decodes request decoderCanceled

/-- A run. -/
def run (job : DownloadJob) (events : List (StreamEvent α)) : WebStream α :=
  events.foldl (step job) new

/-! ## Its decoder reads the file -/

/-- From one state to another the decoder's source does something that fits the file, and the
download is still about the file. -/
structure Refines (media : List α) (s s' : WebStream α) : Prop where
  /-- What the source does. -/
  decoded : ∃ actions : List (SourceAction α),
    s'.decoded = actions.foldl StreamingMediaSource.answer s.decoded ∧
      ∀ action ∈ actions, action.IsFrom media
  /-- The new phase. -/
  phase : s'.download.phase.IsAbout media.length

variable (job : DownloadJob) {s : WebStream α} {media : List α}

/-- What is done to the bytes is done to the bytes of the source. -/
theorem foldl_answer_bytes (r : Answered (StreamingMediaSource α) α)
    (actions : List (BytesAction α)) :
    (actions.map SourceAction.bytes).foldl StreamingMediaSource.answer r =
      { r with source := { r.source with shared := r.source.shared.performAll actions } } := by
  induction actions generalizing r with
  | nil => rfl
  | cons action actions ih =>
    rw [List.map_cons, List.foldl_cons, ih]
    rfl

theorem Refines.of_serves {download : DownloadState α} (pacer : StreamRequestPacer)
    (h : s.download.Serves media download) : Refines media s { s with download, pacer } := by
  obtain ⟨⟨actions, hshared, hactions⟩, hphase⟩ := h
  refine ⟨⟨actions.map .bytes, ?_, List.forall_mem_map.2 hactions⟩, hphase⟩
  rw [foldl_answer_bytes]
  unfold WebStream.decoded
  dsimp only
  rw [hshared]

theorem refines_does (hphase : s.download.phase.IsAbout media.length) {action : DownloadAction α}
    (haction : action.IsFrom media s.download) : Refines media s (s.does job action) :=
  .of_serves s.pacer (DownloadState.serves_step job hphase haction)

theorem refines_decodes (hphase : s.download.phase.IsAbout media.length) {request : MediaRequest}
    (hrequest : request.IsPossible) (decoderCanceled : Bool) :
    Refines media s (s.decodes request decoderCanceled) :=
  ⟨⟨[.request request decoderCanceled], rfl, List.forall_mem_singleton.2 hrequest⟩, hphase⟩

/-- What is heard is about the file if the downloader goes on with what is. -/
theorem refines_hears (hphase : s.download.phase.IsAbout media.length) {result : FetchResult β}
    {goesOn : DownloadState α → Except String β → DownloadState α}
    (hgoesOn : ∀ (download : DownloadState α) answer, download.phase = s.download.phase →
      result.outcome.answer? = some answer → download.Serves media (goesOn download answer)) :
    Refines media s (s.hears job result goesOn) := by
  unfold hears
  split
  · exact ⟨⟨[], rfl, List.forall_mem_nil _⟩, hphase⟩
  · rename_i answer hanswer
    dsimp only
    refine .of_serves _ (.trans ?_ (hgoesOn _ answer rfl hanswer))
    exact .none rfl hphase

/-- What is fetched and written is fetched. -/
theorem exists_of_bind_written {ε : Type} {answer : Except ε (List α × RangeProbe)}
    {written : Except ε Unit} {bytes : List α}
    (h : (answer.bind fun fetched => written.map fun _ => fetched.1) = .ok bytes) :
    ∃ fetched, answer = .ok fetched ∧ fetched.1 = bytes := by
  cases answer with
  | error error => cases h
  | ok fetched =>
    cases written with
    | error error => cases h
    | ok _ => exact ⟨fetched, rfl, Except.ok.inj h⟩

/-- The whole file is taken for a part of it only if the part is the file. -/
theorem prefix_drop_of_whole {range : ByteRange} {bytes : List α}
    (hvalid : range.start ≤ range.endInclusive) (hinside : range.endInclusive ≤ media.length - 1)
    (hwhole : bytes = media) (hlength : bytes.length = range.len) :
    bytes <+: media.drop range.start := by
  obtain rfl := hwhole
  unfold ByteRange.len at hlength
  have hstart : range.start = 0 := by omega
  rw [hstart]
  exact List.prefix_rfl

/-- What a server answers to a request is about the file. -/
theorem refines_asks (hmedia : media.length ≤ u64Max)
    (hphase : s.download.phase.IsAbout media.length) {exchange : Exchange α}
    (hexchange : exchange.IsFrom media) (written : Except String Unit) :
    Refines media s (s.asks job exchange written) := by
  have hnothing : Refines media s s := ⟨⟨[], rfl, List.forall_mem_nil _⟩, hphase⟩
  unfold asks
  split
  · rename_i hprobing hrequest
    refine refines_hears job hphase fun download answer hsame hanswer => ?_
    refine DownloadState.serves_step job (hsame ▸ hphase) fun total htotal => ?_
    cases answer with
    | error error => cases htotal
    | ok probe =>
      obtain ⟨made, hmade, hprobe⟩ := exists_of_fetched hanswer
      obtain ⟨response, hreply, hsuccess, rfl⟩ := exists_of_probeRangeSupport hprobe
      have hfrom := hexchange made hmade response hreply hsuccess
      rw [hrequest] at hfrom
      obtain ⟨sent, hreports, htold⟩ := hfrom
      have hright := totalBytes_of_reports hmedia hreports htold
      obtain ⟨length, hlength, rfl⟩ := Option.map_eq_some_iff.1 (Except.ok.inj htotal)
      rw [hright length hlength]
      exact UInt64.toNat_ofNat_of_lt' (Nat.lt_succ_of_le hmedia)
  · rename_i total hfetching hrequest
    refine refines_hears job hphase fun download answer hsame hanswer => ?_
    refine DownloadState.serves_mediaWritten job (hsame ▸ hphase) written fun bytes hbytes => ?_
    rw [hbytes] at hanswer
    obtain ⟨made, hmade, hfetched⟩ := exists_of_fetched hanswer
    obtain ⟨response, hreply, hsuccess, hbody⟩ := exists_of_fetchFullMediaBytes hfetched
    have hfrom := hexchange made hmade response hreply hsuccess
    rw [hrequest] at hfrom
    exact hfrom bytes hbody
  · rename_i total range asked hfetching hrequest
    split
    · rename_i hasked
      refine refines_hears job hphase fun download answer hsame hanswer => ?_
      refine DownloadState.serves_step job (hsame ▸ hphase) ?_
      intro total' range' bytes hfetching' hbytes hlength
      rw [hsame, hfetching] at hfetching'
      cases hfetching'
      rw [hfetching] at hphase
      obtain ⟨rfl, hvalid, hinside⟩ := hphase
      obtain ⟨fetched, rfl, rfl⟩ := exists_of_bind_written hbytes
      obtain ⟨made, hmade, hfetched⟩ := exists_of_fetched hanswer
      obtain ⟨response, hreply, hsuccess, hbody, -⟩ := exists_of_fetchRangeBytes hfetched
      have hfrom := hexchange made hmade response hreply hsuccess
      rw [hrequest, hasked] at hfrom
      rcases hfrom fetched.1 hbody with hwhole | hpart
      · exact prefix_drop_of_whole hvalid hinside hwhole hlength
      · exact hpart
    · exact hnothing
  · exact hnothing

/-- Every event fits the file. -/
theorem refines_step (hmedia : media.length ≤ u64Max)
    (hphase : s.download.phase.IsAbout media.length) {event : StreamEvent α}
    (hevent : event.IsFrom media) : Refines media s (s.step job event) := by
  cases event with
  | asks exchange written => exact refines_asks job hmedia hphase hevent written
  | looks positionMs => exact refines_does job hphase trivial
  | chooses => exact refines_does job hphase trivial
  | retains positionMs => exact refines_does job hphase trivial
  | restarts positionMs => exact refines_does job hphase trivial
  | cancels => exact refines_does job hphase trivial
  | readsElsewhere offset len decoderCanceled => exact refines_does job hphase trivial
  | decodes request decoderCanceled => exact refines_decodes hphase hevent decoderCanceled

/-- Every run does to the decoder's source only what fits the file. -/
theorem refines_run (hmedia : media.length ≤ u64Max) {events : List (StreamEvent α)}
    (hevents : ∀ e ∈ events, e.IsFrom media) : Refines media new (run job events) := by
  unfold run
  refine List.foldlRecOn events (step job) (motive := Refines media new)
    ⟨⟨[], rfl, List.forall_mem_nil _⟩, trivial⟩ ?_
  intro s hs event hevent
  obtain ⟨actions, hdecoded, hactions⟩ := hs.decoded
  obtain ⟨⟨more, hmore, hfrom⟩, hphase⟩ :=
    refines_step job hmedia hs.phase (hevents event hevent)
  refine ⟨⟨actions ++ more, ?_, List.forall_mem_append.2 ⟨hactions, hfrom⟩⟩, hphase⟩
  rw [hmore, hdecoded, List.foldl_append]

end WebStream

/-! ## Main result -/

/-- Whatever a server answers that is about a file, however often it has to be asked, and whatever
downloader, player and decoders do in between: the decoder reads the file, and if it reads on from
one place until a read comes back empty, it has the rest of the file. -/
theorem web_stream_reads {media : List α} (hmedia : media.length ≤ u64Max) (job : DownloadJob)
    {events : List (StreamEvent α)} (hevents : ∀ e ∈ events, e.IsFrom media) :
    let s := WebStream.run job events
    Reads media 0 s.answers s.cursor ∧
    ∀ earlier reads place, s.answers = earlier ++ reads → Reads media 0 earlier place →
      (∀ e ∈ reads, e.IsRead) → (∃ e ∈ reads, e.IsEnd) →
        reads.flatMap FileEvent.bytes = media.drop place := by
  intro s
  obtain ⟨actions, hdecoded, hactions⟩ := (WebStream.refines_run job hmedia hevents).decoded
  have hreads : Reads media 0 s.decoded.events s.decoded.source.cursor := by
    rw [show s.decoded = StreamingMediaSource.run actions from hdecoded]
    exact StreamingMediaSource.reads_run hmedia hactions
  refine ⟨hreads, ?_⟩
  intro earlier reads place hsplit hplace honly hend
  have hwhole : Reads media 0 (earlier ++ reads) s.cursor := hsplit ▸ hreads
  exact hwhole.bytes_eq_of_append hplace honly hend

/-- A track whose file begins with its metadata. -/
def shortTrack : DownloadJob where
  operationId := none
  sessionId := "s"
  track := ⟨⟨"t", "bilibili", "BV", 1, 4000⟩, some ⟨0, 1⟩, none⟩
  positionMs := 0

/-- The length of four bytes is told, as soon as the server is not busy any more. -/
def busyProbe : Exchange Nat where
  request := .probe
  attempts := [
    ⟨⟨0, 0, [], false, 0⟩, .ok ⟨⟨503, "503 Service Unavailable"⟩, .ofTexts [], .ok []⟩, 0,
      [⟨false, millis 800⟩]⟩,
    ⟨⟨millis 800, millis 800, [], false, millis 800⟩,
      .ok ⟨⟨206, "206 Partial Content"⟩, .ofTexts [("content-range", "bytes 0-0/4")], .ok [10]⟩,
      millis 800, []⟩]

/-- The file is sent where a part of it is asked for. -/
def wholeFile : Exchange Nat where
  request := .part ⟨0, 3⟩
  attempts := [
    ⟨⟨millis 900, millis 900, [⟨false, millis 1600⟩], false, millis 1600⟩,
      .ok ⟨⟨200, "200 OK"⟩, .ofTexts [("accept-ranges", "bytes")], .ok [10, 11, 12, 13]⟩,
      millis 1600, []⟩]

/-- A decoder that seeks the second byte and reads on, while the file comes. -/
def shortStream : List (StreamEvent Nat) := [
  .asks busyProbe (.ok ()),
  .decodes (.seek (.start 1)) false,
  .decodes (.read 8) false,
  .looks 0,
  .chooses,
  .asks wholeFile (.ok ()),
  .decodes (.read 2) false,
  .retains 0,
  .decodes (.read 8) false,
  .decodes (.read 8) false]

/-- What the server says about the length is about a file of four bytes. -/
theorem busyProbe_isFrom : busyProbe.IsFrom [10, 11, 12, 13] := by
  have hzero : Text.IsDecimal ['0'] 0 := ⟨List.cons_ne_nil _ _, by simp, rfl⟩
  have hfour : Text.IsDecimal ['4'] 4 := ⟨List.cons_ne_nil _ _, by simp, rfl⟩
  intro made hmade response hreply hsuccess
  simp only [busyProbe, List.mem_cons, List.not_mem_nil, or_false] at hmade
  rcases hmade with rfl | rfl
  · cases hreply
    cases hsuccess
  · cases hreply
    refine ⟨some ⟨0, 0, some 4⟩, ?_, by simp⟩
    refine .part _ (by decide) (by decide) (.inr rfl) ⟨"bytes 0-0/4", by decide, ?_⟩ ?_
    · exact ⟨['0'], ['0'], ['4'], hzero, hzero, .told hfour, rfl⟩
    · have hnone : (HeaderMap.ofTexts [("content-range", "bytes 0-0/4")]).getStr
          "content-length" = none := by decide
      intro value hvalue
      rw [hnone] at hvalue
      cases hvalue

/-- The decoder of the short stream gets the file from its second byte on. -/
theorem web_stream_reads_short :
    [.read 2 [11, 12], .read 8 [13], .read 8 []].flatMap FileEvent.bytes =
      [10, 11, 12, 13].drop 1 := by
  have hevents : ∀ e ∈ shortStream, e.IsFrom [10, 11, 12, 13] := by
    simp only [shortStream, List.forall_mem_cons]
    refine ⟨busyProbe_isFrom, show 1 ≤ u64Max by decide, trivial, trivial, trivial, ?_⟩
    refine ⟨?_, trivial, trivial, trivial, trivial, List.forall_mem_nil _⟩
    intro made hmade response hreply hsuccess bytes hbytes
    obtain rfl := List.mem_singleton.1 hmade
    cases hreply
    exact .inl (Except.ok.inj hbytes).symm
  have hplace : Reads [10, 11, 12, 13] 0 [.seek (.start 1) (some 1)] 1 := ⟨1, ⟨rfl, rfl⟩, rfl⟩
  exact (web_stream_reads (by decide) shortTrack hevents).2 [.seek (.start 1) (some 1)] _ 1
    (by decide +kernel) hplace (by simp [FileEvent.IsRead]) ⟨.read 8 [], by simp, by decide, rfl⟩

end LightEar
