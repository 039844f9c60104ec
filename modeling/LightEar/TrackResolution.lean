import LightEar.Foundation.Effect
import LightEar.MediaSelection
import LightEar.MixinKey
import LightEar.RangeRetry
import LightEar.SignedQuery

/-!
# From a video to a track

The service is asked about the video, for the keys that requests are signed with, and then, with a
signed request, where the media is.  If it turns the latter two down, or if what it answers cannot
be played, it is asked once more in the older way, which needs no signature.

Whatever it answers (`track_resolution_exact`): the search ends with the first answer that has
media, and with the track that it makes up; it fails only if no answer had any; and it never asks
more than five times, or about anything but the video and the part.
-/

namespace LightEar

open Foundation

/-! ## Answers -/

/-- A page of a video. -/
structure BilibiliVideoPage where
  /-- Its length in seconds. -/
  duration : Nat
  /-- Its number. -/
  cid : Nat
  /-- Its name. -/
  part : String
  deriving DecidableEq, Repr

/-- The reply about a video. -/
structure BilibiliVideoInfo where
  /-- Its pages. -/
  pages : List BilibiliVideoPage
  /-- Its name. -/
  title : String
  deriving DecidableEq, Repr

/-- The reply with the keys. -/
structure BilibiliNavInfo where
  /-- The keys. -/
  wbiImg : BilibiliWbiInfo
  deriving DecidableEq, Repr

/-- What every reply has around it. -/
structure BilibiliResult (T : Type) where
  /-- Zero if all is well. -/
  code : Int
  /-- What is wrong. -/
  message : Option String
  /-- The reply. -/
  data : Option T
  deriving DecidableEq, Repr

/-- A reply as it comes. -/
structure ApiResponse where
  /-- Its status. -/
  status : StatusCode
  /-- Its body, which may break off. -/
  body : Except TransportError String

/-- What the service is asked. -/
inductive ApiRequest where
  | view (params : List (String × String)) (referer : String)
  | nav (referer : String)
  | playUrl (query referer : String)
  | legacyPlayUrl (params : List (String × String)) (referer : String)
  deriving DecidableEq, Repr

/-- The address of the service. -/
def bilibiliApi : String := "https://api.bilibili.com/x"

/-- The address of a request, without the parameters that are added to it. -/
def ApiRequest.url : ApiRequest → String
  | view .. => bilibiliApi ++ "/web-interface/view"
  | nav _ => bilibiliApi ++ "/web-interface/nav"
  | playUrl query _ => bilibiliApi ++ "/player/wbi/playurl?" ++ query
  | legacyPlayUrl .. => bilibiliApi ++ "/player/playurl"

/-- A request with what has come of it. -/
structure ApiExchange where
  /-- The request. -/
  request : ApiRequest
  /-- What has come of it. -/
  reply : Except TransportError ApiResponse

/-- What the service does with a request, given what it has been asked before. -/
abbrev BilibiliWeb := List ApiExchange → ApiRequest → Except TransportError ApiResponse

/-- How replies are read. -/
structure BilibiliDecoders where
  /-- Replies about a video. -/
  video : String → Except String (BilibiliResult BilibiliVideoInfo)
  /-- Replies with the keys. -/
  nav : String → Except String (BilibiliResult BilibiliNavInfo)
  /-- Replies about the media. -/
  player : String → Except String (BilibiliResult BilibiliPlayerInfo)

/-! ## Errors -/

/-- What can go wrong. -/
inductive ApiError where
  | message (text : String)
  | transport (error : TransportError)
  | httpStatus (endpoint : String) (status : StatusCode) (bodyPreview : String)
  | decode (text : String)
  | panicked
  | context (text : String) (cause : ApiError)
  deriving DecidableEq, Repr

/-- An error as it is shown with what has caused it. -/
def ApiError.chain : ApiError → String
  | message text => text
  | transport error => error.chain
  | httpStatus endpoint status bodyPreview => "bilibili " ++ endpoint ++
      " request failed with HTTP " ++ status.text ++ ": " ++ bodyPreview
  | decode text => text
  | panicked => ""
  | context text cause => text ++ ": " ++ cause.chain

/-- The service has turned a request down. -/
def ApiError.isHttpPreconditionFailed : ApiError → Bool
  | httpStatus _ status _ => status.code == 412
  | context _ cause => cause.isHttpPreconditionFailed
  | _ => false

/-- The beginning of a body. -/
def previewBody (body : String) : String :=
  let preview := (body.toList.map fun c => if c = '\r' ∨ c = '\n' then ' ' else c).take 240
  String.ofList (if 240 < body.length then preview ++ "...".toList else preview)

/-- Reads a reply. -/
def readResult {T : Type} (decode : String → Except String (BilibiliResult T)) (endpoint : String)
    (response : ApiResponse) : Except ApiError T :=
  match response.body with
  | .error source =>
    .error (.context ("failed to read bilibili " ++ endpoint ++ " response") (.transport source))
  | .ok body =>
    if !response.status.isSuccess then
      .error (.httpStatus endpoint response.status (previewBody body))
    else
      match decode body with
      | .error source =>
        .error (.context ("failed to decode bilibili " ++ endpoint ++ " response: " ++
          previewBody body) (.decode source))
      | .ok result =>
        match result.data with
        | some data => .ok data
        | none =>
          if result.code ≠ 0 then
            .error (.message ("bilibili " ++ endpoint ++ " returned code " ++
              toString result.code ++ ": " ++ result.message.getD "unknown error"))
          else .error (.message ("bilibili " ++ endpoint ++ " returned no data"))

/-! ## Asking -/

/-- A program that asks the service and keeps what it was told. -/
abbrev Resolver := EStateM ApiError (List ApiExchange)

namespace Resolver

variable {T : Type}

/-- Asks and reads the reply. -/
def ask (web : BilibiliWeb) (request : ApiRequest)
    (decode : String → Except String (BilibiliResult T)) (endpoint : String) : Resolver T :=
  fun log =>
    let reply := web log request
    let log := log ++ [⟨request, reply⟩]
    match reply with
    | .error error => .error (.transport error) log
    | .ok response =>
      match readResult decode endpoint response with
      | .error error => .error error log
      | .ok data => .ok data log

/-- Says more about an error. -/
def withContext (text : String) (m : Resolver T) : Resolver T := fun log =>
  match m log with
  | .ok value log => .ok value log
  | .error error log => .error (.context text error) log

end Resolver

/-- What is asked about, and how. -/
structure TrackQuery where
  /-- The service. -/
  web : BilibiliWeb
  /-- How replies are read. -/
  decoders : BilibiliDecoders
  /-- How texts are written in requests. -/
  percentEncode : String → List Char
  /-- The digest that requests are signed with, as it is shown. -/
  md5 : List UInt8 → List Char
  /-- The time that is told in signed requests. -/
  wts : Int
  /-- Which decoder there is. -/
  fdkAacDecoder : Bool
  /-- The video. -/
  bvid : String
  /-- The part of it. -/
  partIndex : Nat

namespace TrackQuery

/-- The page that requests say they come from. -/
def videoReferer (bvid : String) : String := "https://www.bilibili.com/video/" ++ bvid ++ "/"

/-- The parameters that both ways of asking have. -/
def playUrlParams (bvid : String) (cid : Nat) : List (String × String) :=
  [("bvid", bvid), ("cid", toString cid), ("fnver", "0"), ("fnval", "16"), ("fourk", "1"),
    ("platform", "html5")]

/-- A signed request. -/
def wbiRequest (q : TrackQuery) (cid : Nat) (mixinKey referer : String) : ApiRequest :=
  .playUrl (signedQuery q.percentEncode q.md5
    (playUrlParams q.bvid cid ++ [("wts", toString q.wts)]) mixinKey) referer

/-- A request without a signature. -/
def legacyRequest (q : TrackQuery) (cid : Nat) (referer : String) : ApiRequest :=
  .legacyPlayUrl (playUrlParams q.bvid cid ++ [("qn", "64")]) referer

/-- Asks with a signature. -/
def resolvePlayerInfoWbi (q : TrackQuery) (cid : Nat) (referer : String) :
    Resolver BilibiliPlayerInfo := do
  let nav ← Resolver.ask q.web (.nav referer) q.decoders.nav "nav"
  match mixinKey nav.wbiImg with
  | none => throw .panicked
  | some (.error text) => throw (.message text)
  | some (.ok key) =>
    Resolver.ask q.web (q.wbiRequest cid key referer) q.decoders.player "play url"

/-- Asks without one. -/
def resolvePlayerInfoLegacy (q : TrackQuery) (cid : Nat) (referer : String) :
    Resolver BilibiliPlayerInfo :=
  Resolver.ask q.web (q.legacyRequest cid referer) q.decoders.player "legacy play url"

/-- Asks with a signature, and without one if that is turned down. -/
def resolvePlayerInfo (q : TrackQuery) (cid : Nat) (referer : String) :
    Resolver BilibiliPlayerInfo := fun log =>
  match q.resolvePlayerInfoWbi cid referer log with
  | .ok player log => .ok player log
  | .error error log =>
    if error.isHttpPreconditionFailed then
      Resolver.withContext
        ("WBI playurl returned HTTP 412 and legacy playurl fallback failed: " ++ error.chain)
        (q.resolvePlayerInfoLegacy cid referer) log
    else .error error log

/-- What is to be played of an answer. -/
def selects (q : TrackQuery) (player : BilibiliPlayerInfo) : Resolver MediaCandidate :=
  match selectMedia q.fdkAacDecoder player with
  | .ok media => pure media
  | .error text => throw (.message text)

/-- Where the media is: the service is asked once more if its answer has none. -/
def resolveMedia (q : TrackQuery) (cid : Nat) (referer : String) : Resolver MediaCandidate := do
  let player ← q.resolvePlayerInfo cid referer
  match selectMedia q.fdkAacDecoder player with
  | .ok media => return media
  | .error text =>
    let legacy ← Resolver.withContext
      ("play url had no supported media and legacy fallback failed: " ++ text)
      (q.resolvePlayerInfoLegacy cid referer)
    Resolver.withContext ("legacy play url had no supported media after WBI media failure: " ++
      text) (q.selects legacy)

end TrackQuery

/-- A track with where its media is. -/
structure ResolvedTrack extends StreamedTrack where
  /-- What it is called. -/
  title : String
  /-- The address of its media. -/
  audioUrl : String
  /-- The page that requests for it say they come from. -/
  referer : String

namespace TrackQuery

/-- The track that a part of a video and its media make up. -/
def track (q : TrackQuery) (video : BilibiliVideoInfo) (page : BilibiliVideoPage)
    (media : MediaCandidate) : ResolvedTrack where
  trackId := "bilibili:" ++ q.bvid ++ ":" ++ toString (q.partIndex + 1) ++ ":" ++ toString page.cid
  title := video.title ++ " - " ++ page.part
  sourceKind := "bilibili"
  bvid := q.bvid
  part := q.partIndex + 1
  durationMs := satMul page.duration 1000
  audioUrl := media.url
  referer := videoReferer q.bvid
  mediaInitRange := media.initRange
  mediaIndexRange := media.indexRange

/-- The first request. -/
def viewRequest (q : TrackQuery) : ApiRequest := .view [("bvid", q.bvid)] (videoReferer q.bvid)

/-- From a video to a track. -/
def resolveTrack (q : TrackQuery) : Resolver ResolvedTrack := do
  let video ← Resolver.ask q.web q.viewRequest q.decoders.video "video info"
  match video.pages[q.partIndex]? with
  | none => throw (.message ("part " ++ toString (q.partIndex + 1) ++ " does not exist"))
  | some page =>
    let media ← q.resolveMedia page.cid (videoReferer q.bvid)
    return q.track video page media

end TrackQuery

/-! ## The search -/

/-- A run makes some exchanges and ends with a value, or with an error if there is none. -/
def Resolver.Ends {T : Type} (m : Resolver T) (log later : List ApiExchange) : Option T → Prop
  | some value => m log = .ok value (log ++ later)
  | none => ∃ error, m log = .error error (log ++ later)

namespace ApiExchange

/-- The answer about the media that a reply is. -/
def player? (q : TrackQuery) (x : ApiExchange) : Option BilibiliPlayerInfo :=
  match x.request, x.reply with
  | .playUrl .., .ok response => (readResult q.decoders.player "play url" response).toOption
  | .legacyPlayUrl .., .ok response =>
    (readResult q.decoders.player "legacy play url" response).toOption
  | _, _ => none

/-- The media that a reply has. -/
def media? (q : TrackQuery) (x : ApiExchange) : Option MediaCandidate :=
  (x.player? q).bind fun player => (selectMedia q.fdkAacDecoder player).toOption

/-- The service turns a request down. -/
def IsTurnedDown (x : ApiExchange) : Prop :=
  ∃ response, x.reply = .ok response ∧ response.status.code = 412

/-- A request that is made in search of the media of a page. -/
def IsFor (q : TrackQuery) (cid : Nat) (referer : String) (x : ApiExchange) : Prop :=
  x.request = .nav referer ∨ (∃ key, x.request = q.wbiRequest cid key referer) ∨
    x.request = q.legacyRequest cid referer

end ApiExchange

/-- A search that has come upon some answer, or not. -/
structure Searches {T : Type} (q : TrackQuery) (cid : Nat) (referer : String)
    (answer? : ApiExchange → Option T) (later : List ApiExchange) (result : Option T) : Prop where
  /-- What is asked is about the page. -/
  requests : ∀ x ∈ later, x.IsFor q cid referer
  /-- The search ends with the first answer. -/
  found : ∀ answer ∈ result, ∃ earlier last, later = earlier ++ [last] ∧
    answer? last = some answer ∧ ∀ x ∈ earlier, answer? x = none
  /-- Without one it has not come upon any. -/
  missed : result = none → ∀ x ∈ later, answer? x = none
  /-- The older way is gone only if the service has turned a request down, or if it has given an
  answer that is no good. -/
  legacy : ∀ earlier x more, later = earlier ++ x :: more →
    x.request = q.legacyRequest cid referer →
    ∃ y ∈ earlier, y.IsTurnedDown ∨ (y.player? q).isSome = true

/-- A reply is read as an error of that kind only if it turns the request down. -/
theorem code_of_isHttpPreconditionFailed {T : Type}
    {decode : String → Except String (BilibiliResult T)} {endpoint : String}
    {response : ApiResponse} {error : ApiError}
    (h : readResult decode endpoint response = .error error)
    (herror : error.isHttpPreconditionFailed = true) : response.status.code = 412 := by
  unfold readResult at h
  split at h
  · cases h
    cases herror
  · split at h
    · cases h
      simpa [ApiError.isHttpPreconditionFailed] using herror
    · split at h
      · cases h
        cases herror
      · split at h
        · cases h
        · split at h
          · cases h
            cases herror
          · cases h
            cases herror

/-- One exchange: the reply is read, or there is an error. -/
theorem Resolver.ask_cases {T : Type} (web : BilibiliWeb) (request : ApiRequest)
    (decode : String → Except String (BilibiliResult T)) (endpoint : String)
    (log : List ApiExchange) :
    ∃ x : ApiExchange, x.request = request ∧
      ((∃ response data, x.reply = .ok response ∧
          readResult decode endpoint response = .ok data ∧
          ask web request decode endpoint log = .ok data (log ++ [x])) ∨
        ∃ error, (∀ response data, x.reply = .ok response →
            readResult decode endpoint response ≠ .ok data) ∧
          (error.isHttpPreconditionFailed = true → x.IsTurnedDown) ∧
          ask web request decode endpoint log = .error error (log ++ [x])) := by
  refine ⟨⟨request, web log request⟩, rfl, ?_⟩
  unfold ask
  dsimp only
  cases hreply : web log request with
  | error error =>
    exact .inr ⟨.transport error, by simp, by simp [ApiError.isHttpPreconditionFailed], rfl⟩
  | ok response =>
    dsimp only
    cases hread : readResult decode endpoint response with
    | ok data => exact .inl ⟨response, data, rfl, hread, rfl⟩
    | error error =>
      refine .inr ⟨error, fun response' data hreply' hdata => ?_, fun herror => ?_, rfl⟩
      · cases hreply'
        rw [hread] at hdata
        cases hdata
      · exact ⟨response, rfl, code_of_isHttpPreconditionFailed hread herror⟩

section

variable {T : Type} {q : TrackQuery} {cid : Nat} {referer : String}
  {answer? : ApiExchange → Option T} {later : List ApiExchange}

/-- A search that has not come upon anything goes on the older way. -/
theorem Searches.concat (h : Searches q cid referer answer? later none) {x : ApiExchange}
    (hrequest : x.request = q.legacyRequest cid referer)
    (hreason : ∃ y ∈ later, y.IsTurnedDown ∨ (y.player? q).isSome = true) :
    Searches q cid referer answer? (later ++ [x]) (answer? x) := by
  constructor
  · intro y hy
    rcases List.mem_append.1 hy with hbefore | hlast
    · exact h.requests y hbefore
    · rw [List.mem_singleton.1 hlast]
      exact .inr (.inr hrequest)
  · intro answer hanswer
    exact ⟨later, x, rfl, hanswer, h.missed rfl⟩
  · intro hnone y hy
    rcases List.mem_append.1 hy with hbefore | hlast
    · exact h.missed rfl y hbefore
    · rwa [List.mem_singleton.1 hlast]
  · intro earlier y more hsplit hlegacy
    rcases more.eq_nil_or_concat' with rfl | ⟨more, last, rfl⟩
    · obtain ⟨rfl, -⟩ := List.append_inj' hsplit rfl
      exact hreason
    · rw [← List.cons_append, ← List.append_assoc] at hsplit
      obtain ⟨hbefore, -⟩ := List.append_inj' hsplit rfl
      exact h.legacy earlier y more hbefore hlegacy

/-- A search for an answer about the media is one for media. -/
theorem Searches.media {result : Option BilibiliPlayerInfo}
    (h : Searches q cid referer (·.player? q) later result) :
    Searches q cid referer (·.media? q) later
      (result.bind fun player => (selectMedia q.fdkAacDecoder player).toOption) := by
  have hnone : ∀ x : ApiExchange, x.player? q = none → x.media? q = none := by
    intro x hx
    unfold ApiExchange.media?
    rw [hx]
    rfl
  refine ⟨h.requests, ?_, ?_, h.legacy⟩
  · intro media hmedia
    obtain ⟨player, hplayer, hselected⟩ := Option.bind_eq_some_iff.1 hmedia
    obtain ⟨earlier, last, hsplit, hlast, hearlier⟩ := h.found player hplayer
    refine ⟨earlier, last, hsplit, ?_, fun x hx => hnone x (hearlier x hx)⟩
    exact Option.bind_eq_some_iff.2 ⟨player, hlast, hselected⟩
  · intro hmissed x hx
    cases hresult : result with
    | none => exact hnone x (h.missed hresult x hx)
    | some player =>
      obtain ⟨earlier, last, hsplit, hlast, hearlier⟩ := h.found player hresult
      rw [hsplit] at hx
      rcases List.mem_append.1 hx with hbefore | hend
      · exact hnone x (hearlier x hbefore)
      · rw [List.mem_singleton.1 hend]
        unfold ApiExchange.media?
        rw [hlast]
        rw [hresult] at hmissed
        exact hmissed

end

namespace TrackQuery

variable (q : TrackQuery) (cid : Nat) (referer : String) (log : List ApiExchange)

/-- One exchange about the media. -/
theorem ask_player_cases (request : ApiRequest) (endpoint : String)
    (hreads : ∀ x : ApiExchange, x.request = request → x.player? q =
      x.reply.toOption.bind fun response =>
        (readResult q.decoders.player endpoint response).toOption) :
    ∃ x : ApiExchange, x.request = request ∧
      ((∃ player, x.player? q = some player ∧
          Resolver.ask q.web request q.decoders.player endpoint log = .ok player (log ++ [x])) ∨
        ∃ error, x.player? q = none ∧ (error.isHttpPreconditionFailed = true → x.IsTurnedDown) ∧
          Resolver.ask q.web request q.decoders.player endpoint log =
            .error error (log ++ [x])) := by
  obtain ⟨x, hrequest, ⟨response, player, hreply, hread, hrun⟩ | ⟨error, hnot, hdown, hrun⟩⟩ :=
    Resolver.ask_cases q.web request q.decoders.player endpoint log
  · refine ⟨x, hrequest, .inl ⟨player, ?_, hrun⟩⟩
    rw [hreads x hrequest, hreply]
    simp [Except.toOption, hread]
  · refine ⟨x, hrequest, .inr ⟨error, ?_, hdown, hrun⟩⟩
    rw [hreads x hrequest]
    cases hreply : x.reply with
    | error error => rfl
    | ok response =>
      cases hread : readResult q.decoders.player endpoint response with
      | error error => simp [Except.toOption, hread]
      | ok player => exact absurd hread (hnot response player hreply)

/-- Asking with a signature: for the keys, and then, if they are good, for the media. -/
theorem resolvePlayerInfoWbi_cases :
    ∃ later, later.length ≤ 2 ∧
      (∀ x ∈ later, x.IsFor q cid referer ∧ x.request ≠ q.legacyRequest cid referer) ∧
      ((∃ player, (∃ earlier last, later = earlier ++ [last] ∧ last.player? q = some player ∧
          ∀ x ∈ earlier, x.player? q = none) ∧
          q.resolvePlayerInfoWbi cid referer log = .ok player (log ++ later)) ∨
        ∃ error, (∀ x ∈ later, x.player? q = none) ∧
          (error.isHttpPreconditionFailed = true → ∃ x ∈ later, x.IsTurnedDown) ∧
          q.resolvePlayerInfoWbi cid referer log = .error error (log ++ later)) := by
  obtain ⟨nav, hnav, hcases⟩ :=
    Resolver.ask_cases q.web (.nav referer) q.decoders.nav "nav" log
  have hnavFor : nav.IsFor q cid referer ∧ nav.request ≠ q.legacyRequest cid referer := by
    refine ⟨.inl hnav, ?_⟩
    rw [hnav]
    exact ApiRequest.noConfusion
  have hnavPlayer : nav.player? q = none := by
    unfold ApiExchange.player?
    rw [hnav]
  have hone : ∀ x ∈ [nav], x.IsFor q cid referer ∧ x.request ≠ q.legacyRequest cid referer :=
    List.forall_mem_singleton.2 hnavFor
  have hno : ∀ x ∈ [nav], x.player? q = none := List.forall_mem_singleton.2 hnavPlayer
  unfold resolvePlayerInfoWbi
  simp only [bind, EStateM.bind]
  rcases hcases with ⟨response, keys, -, -, hrun⟩ | ⟨error, -, hdown, hrun⟩
  · rw [hrun]
    dsimp only
    -- a key that is no good, or that cannot be made, ends the search
    rcases mixinKey keys.wbiImg with _ | ⟨text⟩ | ⟨key⟩
    · exact ⟨[nav], Nat.le_succ 1, hone, .inr ⟨.panicked, hno, nofun, rfl⟩⟩
    · exact ⟨[nav], Nat.le_succ 1, hone, .inr ⟨.message text, hno, nofun, rfl⟩⟩
    · have hreads : ∀ x : ApiExchange, x.request = q.wbiRequest cid key referer → x.player? q =
          x.reply.toOption.bind fun response =>
            (readResult q.decoders.player "play url" response).toOption := by
        intro x hrequest
        unfold ApiExchange.player?
        rw [hrequest]
        cases x.reply <;> rfl
      obtain ⟨x, hrequest, hmedia⟩ := ask_player_cases q (log ++ [nav])
        (q.wbiRequest cid key referer) "play url" hreads
      have hboth : ∀ y ∈ [nav, x],
          y.IsFor q cid referer ∧ y.request ≠ q.legacyRequest cid referer := by
        refine List.forall_mem_cons.2 ⟨hnavFor, List.forall_mem_singleton.2 ⟨?_, ?_⟩⟩
        · exact .inr (.inl ⟨key, hrequest⟩)
        · rw [hrequest]
          exact ApiRequest.noConfusion
      have hlog : log ++ [nav] ++ [x] = log ++ [nav, x] := List.append_assoc ..
      refine ⟨[nav, x], le_rfl, hboth, ?_⟩
      rw [← hlog]
      rcases hmedia with ⟨player, hplayer, hask⟩ | ⟨error, hplayer, hdown, hask⟩
      · exact .inl ⟨player, ⟨[nav], x, rfl, hplayer, hno⟩, hask⟩
      · refine .inr ⟨error, ?_, fun herror => ⟨x, by simp, hdown herror⟩, hask⟩
        exact List.forall_mem_cons.2 ⟨hnavPlayer, List.forall_mem_singleton.2 hplayer⟩
  · rw [hrun]
    refine ⟨[nav], Nat.le_succ 1, hone, .inr ⟨error, hno, fun herror => ?_, rfl⟩⟩
    exact ⟨nav, List.mem_singleton_self nav, hdown herror⟩

/-- Asking without one. -/
theorem resolvePlayerInfoLegacy_cases :
    ∃ x : ApiExchange, x.request = q.legacyRequest cid referer ∧
      ((∃ player, x.player? q = some player ∧
          q.resolvePlayerInfoLegacy cid referer log = .ok player (log ++ [x])) ∨
        ∃ error, x.player? q = none ∧
          q.resolvePlayerInfoLegacy cid referer log = .error error (log ++ [x])) := by
  have hreads : ∀ x : ApiExchange, x.request = q.legacyRequest cid referer → x.player? q =
      x.reply.toOption.bind fun response =>
        (readResult q.decoders.player "legacy play url" response).toOption := by
    intro x hrequest
    unfold ApiExchange.player?
    rw [hrequest]
    cases x.reply <;> rfl
  obtain ⟨x, hrequest, hmedia⟩ :=
    ask_player_cases q log (q.legacyRequest cid referer) "legacy play url" hreads
  refine ⟨x, hrequest, ?_⟩
  rcases hmedia with ⟨player, hplayer, hask⟩ | ⟨error, hplayer, -, hask⟩
  · exact .inl ⟨player, hplayer, hask⟩
  · exact .inr ⟨error, hplayer, hask⟩

/-- Asking with a signature, and without one if that is turned down. -/
theorem resolvePlayerInfo_searches :
    ∃ later result, later.length ≤ 3 ∧ Searches q cid referer (·.player? q) later result ∧
      (q.resolvePlayerInfo cid referer).Ends log later result := by
  obtain ⟨later, hfew, hrequests, hcases⟩ := resolvePlayerInfoWbi_cases q cid referer log
  have hlegacy : ∀ earlier x more, later = earlier ++ x :: more →
      x.request = q.legacyRequest cid referer →
        ∃ y ∈ earlier, y.IsTurnedDown ∨ (y.player? q).isSome = true := by
    rintro earlier x more rfl hx
    exact absurd hx (hrequests x (by simp)).2
  have hfor : ∀ x ∈ later, x.IsFor q cid referer := fun x hx => (hrequests x hx).1
  rcases hcases with ⟨player, hfound, hrun⟩ | ⟨error, hmissed, hdown, hrun⟩
  · refine ⟨later, some player, hfew.trans (Nat.le_succ 2), ⟨hfor, ?_, nofun, hlegacy⟩, ?_⟩
    · intro answer hanswer
      obtain rfl := Option.mem_some_iff.1 hanswer
      exact hfound
    · unfold Resolver.Ends resolvePlayerInfo
      simp only [hrun]
  · have hsearches : Searches q cid referer (·.player? q) later none :=
      ⟨hfor, nofun, fun _ => hmissed, hlegacy⟩
    cases hprecondition : error.isHttpPreconditionFailed with
    | false =>
      refine ⟨later, none, hfew.trans (Nat.le_succ 2), hsearches, ⟨error, ?_⟩⟩
      unfold resolvePlayerInfo
      simp only [hrun, hprecondition]
      rfl
    | true =>
      obtain ⟨y, hy, hturned⟩ := hdown hprecondition
      obtain ⟨x, hrequest, hlast⟩ := resolvePlayerInfoLegacy_cases q cid referer (log ++ later)
      refine ⟨later ++ [x], x.player? q, ?_, hsearches.concat hrequest ⟨y, hy, .inl hturned⟩, ?_⟩
      · rw [List.length_append]
        exact Nat.succ_le_succ hfew
      · have hlog : log ++ (later ++ [x]) = log ++ later ++ [x] := (List.append_assoc ..).symm
        rcases hlast with ⟨player, hplayer, hask⟩ | ⟨error', hplayer, hask⟩
        · rw [hplayer]
          unfold Resolver.Ends resolvePlayerInfo Resolver.withContext
          simp only [hrun, hprecondition, hask, hlog, if_true]
        · rw [hplayer]
          unfold Resolver.Ends resolvePlayerInfo Resolver.withContext
          simp only [hrun, hprecondition, hask, hlog, if_true]
          exact ⟨_, rfl⟩

/-- The search for the media of a page. -/
theorem resolveMedia_searches :
    ∃ later result, later.length ≤ 4 ∧ Searches q cid referer (·.media? q) later result ∧
      (q.resolveMedia cid referer).Ends log later result := by
  obtain ⟨later, answer, hfew, hsearches, hends⟩ := resolvePlayerInfo_searches q cid referer log
  have hmedia := hsearches.media
  cases answer with
  | none =>
    obtain ⟨error, hrun⟩ := hends
    refine ⟨later, none, hfew.trans (Nat.le_succ 3), hmedia, ⟨error, ?_⟩⟩
    unfold resolveMedia
    simp only [bind, EStateM.bind, hrun]
  | some player =>
    have hrun : q.resolvePlayerInfo cid referer log = .ok player (log ++ later) := hends
    rw [Option.bind_some] at hmedia
    cases hselect : selectMedia q.fdkAacDecoder player with
    | ok media =>
      rw [hselect] at hmedia
      refine ⟨later, some media, hfew.trans (Nat.le_succ 3), hmedia, ?_⟩
      unfold Resolver.Ends resolveMedia
      simp only [bind, EStateM.bind, hrun, hselect]
      rfl
    | error text =>
      -- the answer is no good, and so the service is asked once more
      rw [hselect] at hmedia
      obtain ⟨earlier, last, hsplit, hlast, -⟩ := hsearches.found player rfl
      have hreason : ∃ y ∈ later, y.IsTurnedDown ∨ (y.player? q).isSome = true := by
        refine ⟨last, ?_, .inr (Option.isSome_of_mem hlast)⟩
        rw [hsplit]
        exact List.mem_append_right _ (List.mem_singleton_self last)
      obtain ⟨x, hrequest, hlegacy⟩ := resolvePlayerInfoLegacy_cases q cid referer (log ++ later)
      have hlog : log ++ (later ++ [x]) = log ++ later ++ [x] := (List.append_assoc ..).symm
      refine ⟨later ++ [x], x.media? q, ?_, hmedia.concat hrequest hreason, ?_⟩
      · rw [List.length_append]
        exact Nat.succ_le_succ hfew
      · unfold ApiExchange.media?
        rcases hlegacy with ⟨legacy, hplayer, hask⟩ | ⟨error, hplayer, hask⟩
        · rw [hplayer, Option.bind_some]
          cases hagain : selectMedia q.fdkAacDecoder legacy with
          | ok media =>
            unfold Resolver.Ends resolveMedia selects Resolver.withContext
            simp only [bind, EStateM.bind, hrun, hselect, hask, hagain, hlog, Except.toOption]
            rfl
          | error text' =>
            unfold Resolver.Ends resolveMedia selects Resolver.withContext
            simp only [bind, EStateM.bind, hrun, hselect, hask, hagain, hlog, Except.toOption]
            exact ⟨_, rfl⟩
        · rw [hplayer]
          unfold Resolver.Ends resolveMedia selects Resolver.withContext
          simp only [bind, EStateM.bind, hrun, hselect, hask, hlog, Option.bind_none]
          exact ⟨_, rfl⟩

end TrackQuery

/-! ## Main result -/

/-- The video and the page that a reply about the video tells. -/
def ApiExchange.page? (q : TrackQuery) (x : ApiExchange) :
    Option (BilibiliVideoInfo × BilibiliVideoPage) := do
  let response ← x.reply.toOption
  let video ← (readResult q.decoders.video "video info" response).toOption
  let page ← video.pages[q.partIndex]?
  return (video, page)

/-- Whatever the service answers, it is first asked about the video.  If it does not tell the page,
that is all.  If it does, it is asked at most four times more, about nothing but that page, until an
answer has media; then the track is made up of the video, the page and this media, and otherwise
there is an error and no answer had any.  The older way is gone only after a request has been turned
down or an answer was no good. -/
theorem track_resolution_exact (q : TrackQuery) :
    ∃ view later, view.request = q.viewRequest ∧
      ((view.page? q = none ∧ later = [] ∧ q.resolveTrack.Ends [] [view] none) ∨
        ∃ video page result, view.page? q = some (video, page) ∧ later.length ≤ 4 ∧
          Searches q page.cid (TrackQuery.videoReferer q.bvid) (·.media? q) later result ∧
          q.resolveTrack.Ends [] (view :: later) (result.map (q.track video page))) := by
  obtain ⟨view, hview, hcases⟩ :=
    Resolver.ask_cases q.web q.viewRequest q.decoders.video "video info" []
  unfold Resolver.Ends TrackQuery.resolveTrack
  simp only [bind, EStateM.bind]
  rcases hcases with ⟨response, video, hreply, hread, hrun⟩ | ⟨error, hnot, -, hrun⟩
  · have hpage : view.page? q = (video.pages[q.partIndex]?).map fun page => (video, page) := by
      unfold ApiExchange.page?
      rw [hreply]
      simp only [Except.toOption, hread, Option.bind_eq_bind, Option.bind_some]
      cases video.pages[q.partIndex]? <;> rfl
    cases hindex : video.pages[q.partIndex]? with
    | none =>
      rw [hindex] at hpage
      refine ⟨view, [], hview, .inl ⟨hpage, rfl, ?_⟩⟩
      simp only [hrun, hindex]
      exact ⟨_, rfl⟩
    | some page =>
      rw [hindex] at hpage
      obtain ⟨later, result, hfew, hsearches, hends⟩ :=
        TrackQuery.resolveMedia_searches q page.cid (TrackQuery.videoReferer q.bvid) [view]
      refine ⟨view, later, hview, .inr ⟨video, page, result, hpage, hfew, hsearches, ?_⟩⟩
      simp only [hrun, hindex, List.nil_append]
      cases result with
      | none =>
        obtain ⟨error, hmedia⟩ := hends
        refine ⟨error, ?_⟩
        unfold EStateM.bind
        rw [hmedia]
        rfl
      | some media =>
        have hmedia : q.resolveMedia page.cid (TrackQuery.videoReferer q.bvid) [view] =
            .ok media ([view] ++ later) := hends
        change EStateM.bind _ _ [view] = _
        unfold EStateM.bind
        rw [hmedia]
        rfl
  · have hpage : view.page? q = none := by
      unfold ApiExchange.page?
      cases hreply : view.reply with
      | error error => rfl
      | ok response =>
        cases hread : readResult q.decoders.video "video info" response with
        | error error => simp [Except.toOption, hread]
        | ok video => exact absurd hread (hnot response video hreply)
    refine ⟨view, [], hview, .inl ⟨hpage, rfl, ?_⟩⟩
    simp only [hrun]
    exact ⟨_, rfl⟩

end LightEar
