import LightEar.Foundation.Words
import LightEar.TrackResolution

/-!
# Short links

Shared texts often have no video id but a short link that leads to the video.  Such links are looked
for in the words of the text, and what people and apps put around a link is left off: brackets,
quotation marks, and the full stop at the end of a sentence.

What is found is exactly what stands in the text as a link (`shortUrls_exact`).  The first three of
them are followed, one after the other, up to the first that leads to an id
(`short_links_followed`).
-/

namespace LightEar

open Foundation

/-! ## Links in a text -/

/-- An address. -/
structure Url where
  /-- The address as it is written. -/
  text : String
  /-- Its host. -/
  host : Option String
  deriving DecidableEq, Repr

/-- The hosts of short links. -/
def bilibiliShortLinkHosts : List String := ["b23.tv", "bili2233.cn"]

/-- A character that may stand around a link. -/
def isUrlTrimChar (c : Char) : Bool :=
  c ∈ ['<', '>', '"', '\'', '(', ')', '[', ']', '{', '}', ',', '.', ';', ':', '!', '?',
    '，', '。', '、', '；', '：', '！', '？', '“', '”', '‘', '’', '【', '】']

/-- A character that ends a link wherever it stands. -/
def isUrlHardStopChar (c : Char) : Bool :=
  c ∈ ['<', '>', '"', '\'', '(', ')', '[', ']', '{', '}', ',', ';', '!',
    '，', '。', '、', '；', '！', '？', '“', '”', '‘', '’', '【', '】']

/-- What a link begins with. -/
def httpsScheme : List Char := "https://".toList

/-- What an older link begins with. -/
def httpScheme : List Char := "http://".toList

/-- The link in a word. -/
def linkOf (word : List Char) : Option (List Char) := do
  let token := Text.trimMatches isUrlTrimChar word
  let candidate ← (Text.findFirst httpsScheme token).or (Text.findFirst httpScheme token)
  return Text.trimMatches isUrlTrimChar (candidate.takeWhile fun c => !isUrlHardStopChar c)

/-- An address of a short link. -/
def isBilibiliShortUrl (url : Url) : Bool :=
  match url.host with
  | none => false
  | some host => bilibiliShortLinkHosts.any fun candidate =>
      host.toList.map Char.toLower == candidate.toList.map Char.toLower

/-- The short links in a text; `parse` is how addresses are read. -/
def bilibiliShortUrls (parse : List Char → Option Url) (text : List Char) : List Url :=
  (Text.words Text.isWhiteSpace text).filterMap fun word => do
    let link ← linkOf word
    let url ← parse link
    if isBilibiliShortUrl url then some url else none

/-! ## What stands in a text as a link -/

/-- A text with a link marked in one of its words. -/
structure LinkParts where
  /-- What comes before the word. -/
  before : List Char
  /-- What stands before the link in the word. -/
  opening : List Char
  /-- The link. -/
  link : List Char
  /-- What stands behind the link in the word. -/
  closing : List Char
  /-- What comes after the word. -/
  after : List Char
  deriving DecidableEq, Repr

namespace LinkParts

/-- The word. -/
def word (parts : LinkParts) : List Char := parts.opening ++ (parts.link ++ parts.closing)

/-- The text. -/
def whole (parts : LinkParts) : List Char := parts.before ++ (parts.word ++ parts.after)

end LinkParts

/-- What is marked in a word is its link. -/
structure IsLink (opening link closing : List Char) : Prop where
  /-- It begins with the first scheme of the word; the older one counts only where there is no
  other. -/
  scheme : (httpsScheme <+: link ∧ ¬ httpsScheme <:+: opening) ∨
    (httpScheme <+: link ∧ ¬ httpScheme <:+: opening ∧
      ¬ httpsScheme <:+: opening ++ (link ++ closing))
  /-- No character ends it early. -/
  stop : ∀ c ∈ link, isUrlHardStopChar c = false
  /-- It does not end in a character that only stands around links. -/
  last : ∀ c ∈ link.getLast?, isUrlTrimChar c = false
  /-- Such characters are all there is behind it until a character that ends it. -/
  closing : ∀ c ∈ closing.takeWhile (fun c => !isUrlHardStopChar c), isUrlTrimChar c = true

/-- What is marked is a link in a word of the text. -/
structure LinkParts.IsLinkIn (parts : LinkParts) (text : List Char) : Prop where
  /-- The text is the one that is marked. -/
  whole : parts.whole = text
  /-- The word is one. -/
  word : Text.WordAt Text.isWhiteSpace parts.before parts.word parts.after
  /-- The link is one. -/
  link : IsLink parts.opening parts.link parts.closing

/-! ## The link of a word -/

/-- A beginning of links: it is found where it was put, and trimming stops at its ends. -/
structure IsScheme (scheme : List Char) : Prop where
  /-- It is not empty. -/
  ne_nil : scheme ≠ []
  /-- It cannot overlap itself. -/
  unbordered : Text.Unbordered scheme
  /-- It does not begin or end in a character that stands around links. -/
  clean : Text.CleanEnds isUrlTrimChar scheme
  /-- No character of it ends a link. -/
  stop : ∀ c ∈ scheme, isUrlHardStopChar c = false

theorem isScheme_https : IsScheme httpsScheme where
  ne_nil := by decide
  unbordered := by
    intro n hpos hlt
    have hall : ∀ n < 8, 0 < n → ¬ httpsScheme.drop n <+: httpsScheme := by decide
    exact hall n hlt hpos
  clean := ⟨by rintro c ⟨⟩; rfl, by rintro c ⟨⟩; rfl⟩
  stop := by
    have hall : httpsScheme.all (fun c => !isUrlHardStopChar c) = true := by decide
    simpa using hall

theorem isScheme_http : IsScheme httpScheme where
  ne_nil := by decide
  unbordered := by
    intro n hpos hlt
    have hall : ∀ n < 7, 0 < n → ¬ httpScheme.drop n <+: httpScheme := by decide
    exact hall n hlt hpos
  clean := ⟨by rintro c ⟨⟩; rfl, by rintro c ⟨⟩; rfl⟩
  stop := by
    have hall : httpScheme.all (fun c => !isUrlHardStopChar c) = true := by decide
    simpa using hall

/-- What is left of the text from a scheme on is cut down to a link. -/
def cutLink (candidate : List Char) : List Char :=
  Text.trimMatches isUrlTrimChar (candidate.takeWhile fun c => !isUrlHardStopChar c)

/-- The parts of a text that begin with a scheme keep clean ends when they get longer. -/
theorem IsScheme.cleanEnds {scheme link : List Char} (h : IsScheme scheme) (hlink : scheme <+: link)
    (hlast : ∀ c ∈ link.getLast?, isUrlTrimChar c = false) : Text.CleanEnds isUrlTrimChar link where
  first := by
    obtain ⟨rest, rfl⟩ := hlink
    rw [List.head?_append_of_ne_nil _ h.ne_nil]
    exact h.clean.first
  last := hlast

/-- A link is cut out of what follows it. -/
theorem IsScheme.cutLink_append {scheme link closing : List Char} (h : IsScheme scheme)
    (hlink : scheme <+: link) (hstop : ∀ c ∈ link, isUrlHardStopChar c = false)
    (hlast : ∀ c ∈ link.getLast?, isUrlTrimChar c = false)
    (hclosing : ∀ c ∈ closing.takeWhile (fun c => !isUrlHardStopChar c), isUrlTrimChar c = true) :
    cutLink (link ++ closing) = link := by
  have hne : link ≠ [] := by
    rintro rfl
    exact h.ne_nil (List.prefix_nil.1 hlink)
  have hkept : ∀ c ∈ link, (!isUrlHardStopChar c) = true := by
    intro c hc
    rw [hstop c hc]
    rfl
  have htrim := Text.trimMatches_append (h.cleanEnds hlink hlast) hne []
    (closing.takeWhile fun c => !isUrlHardStopChar c)
  unfold cutLink
  rw [List.takeWhile_append_of_pos hkept]
  rw [List.nil_append, List.dropWhile_nil, List.nil_append,
    List.rdropWhile_eq_nil_iff.2 hclosing, List.append_nil] at htrim
  exact htrim

/-- The scheme stays when a link is cut out. -/
theorem IsScheme.cutLink_eq {scheme : List Char} (h : IsScheme scheme) (rest : List Char) :
    cutLink (scheme ++ rest) =
      scheme ++ (rest.takeWhile fun c => !isUrlHardStopChar c).rdropWhile isUrlTrimChar := by
  have hkept : ∀ c ∈ scheme, (!isUrlHardStopChar c) = true := by
    intro c hc
    rw [h.stop c hc]
    rfl
  have htrim := Text.trimMatches_append h.clean h.ne_nil []
    (rest.takeWhile fun c => !isUrlHardStopChar c)
  unfold cutLink
  rw [List.takeWhile_append_of_pos hkept]
  exact htrim

/-- What is behind the link that is cut out: characters that stand around links, and then perhaps
one that ends the link. -/
theorem takeWhile_closing {inner more outer : List Char}
    (hinner : ∀ c ∈ inner, isUrlTrimChar c = true ∧ isUrlHardStopChar c = false)
    (hmore : ∀ c ∈ more.head?, isUrlHardStopChar c = true)
    (houter : ∀ c ∈ outer, isUrlTrimChar c = true) :
    ∀ c ∈ (inner ++ (more ++ outer)).takeWhile (fun c => !isUrlHardStopChar c),
      isUrlTrimChar c = true := by
  intro c hc
  have hkept : ∀ c ∈ inner, (!isUrlHardStopChar c) = true := by
    intro c hc
    rw [(hinner c hc).2]
    rfl
  rw [List.takeWhile_append_of_pos hkept, List.mem_append] at hc
  rcases hc with hc | hc
  · exact (hinner c hc).1
  · cases more with
    | nil => exact houter c ((List.takeWhile_sublist _).subset hc)
    | cons b more =>
      rw [List.cons_append, List.takeWhile_cons_of_neg (by simp [hmore b rfl])] at hc
      cases hc

/-- What is cut out of a text from a scheme on is a link. -/
theorem IsScheme.exists_closing {scheme : List Char} (h : IsScheme scheme) (rest : List Char) :
    ∃ link closing, cutLink (scheme ++ rest.rdropWhile isUrlTrimChar) = link ∧
      scheme ++ rest = link ++ closing ∧ scheme <+: link ∧
      (∀ c ∈ link, isUrlHardStopChar c = false) ∧
      (∀ c ∈ link.getLast?, isUrlTrimChar c = false) ∧
      ∀ c ∈ closing.takeWhile (fun c => !isUrlHardStopChar c), isUrlTrimChar c = true := by
  have houter := (List.rdropWhile_append_rtakeWhile (p := isUrlTrimChar) (l := rest)).symm
  generalize rest.rdropWhile isUrlTrimChar = kept at houter ⊢
  have hbody :=
    (List.takeWhile_append_dropWhile (p := fun c => !isUrlHardStopChar c) (l := kept)).symm
  have hinner := (List.rdropWhile_append_rtakeWhile (p := isUrlTrimChar)
    (l := kept.takeWhile fun c => !isUrlHardStopChar c)).symm
  have hbodyStop : ∀ c ∈ kept.takeWhile (fun c => !isUrlHardStopChar c),
      isUrlHardStopChar c = false := by
    intro c hc
    simpa using List.mem_takeWhile_imp hc
  refine ⟨_, (kept.takeWhile fun c => !isUrlHardStopChar c).rtakeWhile isUrlTrimChar ++
    (kept.dropWhile (fun c => !isUrlHardStopChar c) ++ rest.rtakeWhile isUrlTrimChar),
    h.cutLink_eq kept, ?_, List.prefix_append _ _, ?_, ?_, ?_⟩
  · rw [List.append_assoc, ← List.append_assoc (List.rdropWhile _ _), ← hinner,
      ← List.append_assoc (List.takeWhile _ _), ← hbody, ← houter]
  · intro c hc
    rcases List.mem_append.1 hc with hc | hc
    · exact h.stop c hc
    · exact hbodyStop c ((List.rdropWhile_prefix _ _).subset hc)
  · rw [← h.cutLink_eq]
    exact (Text.cleanEnds_trimMatches _ _).last
  · refine takeWhile_closing (fun c hc => ⟨List.mem_rtakeWhile_imp hc,
      hbodyStop c ((List.rtakeWhile_suffix _ _).subset hc)⟩) ?_
      fun c hc => List.mem_rtakeWhile_imp hc
    intro c hc
    have hnot := List.head?_dropWhile_not (fun c => !isUrlHardStopChar c) kept
    rw [hc] at hnot
    simpa using hnot

/-- The token of a word around a part that begins with a scheme. -/
theorem IsScheme.trimMatches_word {scheme : List Char} (h : IsScheme scheme)
    (opening rest : List Char) :
    Text.trimMatches isUrlTrimChar (opening ++ (scheme ++ rest)) =
      opening.dropWhile isUrlTrimChar ++ (scheme ++ rest.rdropWhile isUrlTrimChar) :=
  Text.trimMatches_append h.clean h.ne_nil opening rest

/-- The search in a token finds what the search in its word does. -/
theorem IsScheme.findFirst_token {scheme opening : List Char} (h : IsScheme scheme)
    (hnot : ¬ scheme <:+: opening) (rest : List Char) :
    Text.findFirst scheme (Text.trimMatches isUrlTrimChar (opening ++ (scheme ++ rest))) =
      some (scheme ++ rest.rdropWhile isUrlTrimChar) := by
  rw [h.trimMatches_word]
  refine Text.findFirst_append h.ne_nil h.unbordered (fun hinside => hnot ?_) _
  exact hinside.trans (List.dropWhile_suffix isUrlTrimChar).isInfix

/-- Nothing is found in a token if it is not in the word. -/
theorem IsScheme.findFirst_token_none {scheme word : List Char} (h : IsScheme scheme)
    (hnot : ¬ scheme <:+: word) :
    Text.findFirst scheme (Text.trimMatches isUrlTrimChar word) = none :=
  (Text.findFirst_eq_none_iff h.ne_nil).2 fun hinside =>
    hnot (hinside.trans (Text.trimMatches_infix isUrlTrimChar word))

/-- A text has a pattern nowhere, or at a first place. -/
theorem IsScheme.exists_first {scheme : List Char} (h : IsScheme scheme) (word : List Char) :
    ¬ scheme <:+: word ∨
      ∃ opening rest, word = opening ++ (scheme ++ rest) ∧ ¬ scheme <:+: opening := by
  cases hfind : Text.findFirst scheme word with
  | none => exact .inl ((Text.findFirst_eq_none_iff h.ne_nil).1 hfind)
  | some found =>
    obtain ⟨opening, rest, hword, -, hnot⟩ := Text.findFirst_eq_some h.ne_nil hfind
    exact .inr ⟨opening, rest, hword, hnot⟩

/-- The link is cut out of the token from the scheme on. -/
theorem IsScheme.cut_token {scheme opening link closing : List Char} (h : IsScheme scheme)
    (hlink : scheme <+: link) (hnot : ¬ scheme <:+: opening)
    (hstop : ∀ c ∈ link, isUrlHardStopChar c = false)
    (hlast : ∀ c ∈ link.getLast?, isUrlTrimChar c = false)
    (hclosing : ∀ c ∈ closing.takeWhile (fun c => !isUrlHardStopChar c), isUrlTrimChar c = true) :
    (Text.findFirst scheme (Text.trimMatches isUrlTrimChar (opening ++ (link ++ closing)))).map
      cutLink = some link := by
  obtain ⟨rest, hrest⟩ := hlink
  have hword : link ++ closing = scheme ++ (rest ++ closing) := by
    rw [← hrest, List.append_assoc]
  have htoken : scheme ++ (rest ++ closing).rdropWhile isUrlTrimChar =
      link ++ closing.rdropWhile isUrlTrimChar := by
    rw [← Text.rdropWhile_append_of_clean h.clean.last, ← hword,
      Text.rdropWhile_append_of_clean hlast]
  rw [hword, h.findFirst_token hnot, htoken, Option.map_some]
  refine congrArg some (h.cutLink_append ⟨rest, hrest⟩ hstop hlast fun c hc => hclosing c ?_)
  exact (Text.takeWhile_prefix_of_prefix (List.rdropWhile_prefix isUrlTrimChar closing)).subset hc

/-- The link of a word is the one that can be marked in it. -/
theorem linkOf_eq_some_iff {word link : List Char} :
    linkOf word = some link ↔
      ∃ opening closing, word = opening ++ (link ++ closing) ∧ IsLink opening link closing := by
  have hlinkOf : linkOf word = ((Text.findFirst httpsScheme
      (Text.trimMatches isUrlTrimChar word)).or (Text.findFirst httpScheme
        (Text.trimMatches isUrlTrimChar word))).map cutLink := by
    unfold linkOf
    dsimp only
    cases (Text.findFirst httpsScheme (Text.trimMatches isUrlTrimChar word)).or
      (Text.findFirst httpScheme (Text.trimMatches isUrlTrimChar word)) <;> rfl
  rw [hlinkOf]
  constructor
  · intro h
    rcases isScheme_https.exists_first word with hnone | ⟨opening, rest, rfl, hnot⟩
    · rw [isScheme_https.findFirst_token_none hnone, Option.none_or] at h
      rcases isScheme_http.exists_first word with hnoneOld | ⟨opening, rest, rfl, hnot⟩
      · rw [isScheme_http.findFirst_token_none hnoneOld] at h
        cases h
      · rw [isScheme_http.findFirst_token hnot] at h
        obtain ⟨found, closing, hcut, hparts, hscheme, hstop, hlast, hclosing⟩ :=
          isScheme_http.exists_closing rest
        have heq : found = link := hcut.symm.trans (Option.some.inj h)
        subst heq
        rw [hparts] at hnone ⊢
        exact ⟨opening, closing, rfl, .inr ⟨hscheme, hnot, hnone⟩, hstop, hlast, hclosing⟩
    · rw [isScheme_https.findFirst_token hnot, Option.some_or] at h
      obtain ⟨found, closing, hcut, hparts, hscheme, hstop, hlast, hclosing⟩ :=
        isScheme_https.exists_closing rest
      have heq : found = link := hcut.symm.trans (Option.some.inj h)
      subst heq
      rw [hparts]
      exact ⟨opening, closing, rfl, .inl ⟨hscheme, hnot⟩, hstop, hlast, hclosing⟩
  · rintro ⟨opening, closing, rfl, hlink⟩
    rcases hlink.scheme with ⟨hscheme, hnot⟩ | ⟨hscheme, hnot, hnone⟩
    · have hcut := isScheme_https.cut_token hscheme hnot hlink.stop hlink.last hlink.closing
      obtain ⟨found, hfound, rfl⟩ := Option.map_eq_some_iff.1 hcut
      rw [hfound]
      rfl
    · rw [isScheme_https.findFirst_token_none hnone]
      exact isScheme_http.cut_token hscheme hnot hlink.stop hlink.last hlink.closing

/-- The links of a word come before those of the words behind it. -/
theorem bilibiliShortUrls_append_cons (parse : List Char → Option Url) (text : List Char) {c : Char}
    (h : Text.isWhiteSpace c = true) (more : List Char) :
    bilibiliShortUrls parse (text ++ c :: more) =
      bilibiliShortUrls parse text ++ bilibiliShortUrls parse more := by
  unfold bilibiliShortUrls
  rw [Text.words_append_cons text h more, List.filterMap_append]

/-- Whatever addresses are like: the short links that are found in a text are exactly those of the
links that can be marked in it, in the order in which they stand there. -/
theorem shortUrls_exact (parse : List Char → Option Url) (text : List Char) :
    (∀ url, url ∈ bilibiliShortUrls parse text ↔
      ∃ parts : LinkParts, parts.IsLinkIn text ∧ parse parts.link = some url ∧
        isBilibiliShortUrl url = true) ∧
    ∀ before c after, text = before ++ c :: after → Text.isWhiteSpace c = true →
      bilibiliShortUrls parse text =
        bilibiliShortUrls parse before ++ bilibiliShortUrls parse after := by
  refine ⟨fun url => ?_, fun before c after htext hc => ?_⟩
  · unfold bilibiliShortUrls
    rw [List.mem_filterMap]
    simp only [Option.bind_eq_bind, Option.bind_eq_some_iff, Text.mem_words_iff, linkOf_eq_some_iff]
    constructor
    · rintro ⟨word, ⟨before, after, hwhole, hword⟩, link, ⟨opening, closing, hparts, hlink⟩, read,
        hread, hshort⟩
      split_ifs at hshort with hhost
      obtain rfl := Option.some.inj hshort
      subst hparts
      exact ⟨⟨before, opening, link, closing, after⟩, ⟨hwhole.symm, hword, hlink⟩, hread, hhost⟩
    · rintro ⟨parts, hparts, hread, hshort⟩
      exact ⟨parts.word, ⟨parts.before, parts.after, hparts.whole.symm, hparts.word⟩, parts.link,
        ⟨parts.opening, parts.closing, rfl, hparts.link⟩, url, hread, if_pos hshort⟩
  · rw [htext, bilibiliShortUrls_append_cons parse before hc after]

example : linkOf "【https://b23.tv/a】。".toList = some "https://b23.tv/a".toList := by decide

/-! ## Following them -/

/-- Where a link has led. -/
structure ShortLinkReply where
  /-- The address that has answered in the end. -/
  url : String
  /-- The address it refers to, if there is one that can be read. -/
  location : Option String

/-- A link that was followed, with what has come of it. -/
structure LinkVisit where
  /-- The link. -/
  url : Url
  /-- What has come of it. -/
  reply : Except TransportError ShortLinkReply

/-- What comes of a link, given what was followed before. -/
abbrev LinkWeb := List LinkVisit → Url → Except TransportError ShortLinkReply

/-- A program that follows links and keeps where they have led. -/
abbrev LinkFollower := EStateM ApiError (List LinkVisit)

namespace LinkFollower

/-- The error for a link that fails. -/
def brokenLink (url : Url) (cause : TransportError) : ApiError :=
  .context ("failed to resolve bilibili short link " ++ url.text) (.transport cause)

/-- Follows a link. -/
def visit (web : LinkWeb) (url : Url) : LinkFollower ShortLinkReply := fun log =>
  let reply := web log url
  let log := log ++ [⟨url, reply⟩]
  match reply with
  | .ok reply => .ok reply log
  | .error cause => .error (brokenLink url cause) log

/-- Looks for an id. -/
def search (text : String) : LinkFollower (Option String) :=
  match extractBvid text with
  | none => throw .panicked
  | some result => pure result

/-- Looks for the id that a link leads to. -/
def followLink (web : LinkWeb) (url : Url) : LinkFollower (Option String) := do
  let reply ← visit web url
  match ← search reply.url with
  | some bvid => return some bvid
  | none => reply.location.elim (pure none) search

/-- Follows links up to the first that leads to an id. -/
def follow (web : LinkWeb) : List Url → LinkFollower (Option String)
  | [] => pure none
  | url :: urls => do
    match ← followLink web url with
    | some bvid => return some bvid
    | none => follow web urls

end LinkFollower

/-- The id in a text, or the one that its short links lead to. -/
def extractBvidFromTextOrShortLink (web : LinkWeb) (parse : List Char → Option Url)
    (text : String) : LinkFollower (Option String) := do
  match ← LinkFollower.search text with
  | some bvid => return some bvid
  | none => LinkFollower.follow web ((bilibiliShortUrls parse text.toList).take 3)

/-- The first id in a text. -/
def HasFirst (text bvid : String) : Prop :=
  ∃ parts : BvidParts Char, parts.IsFirst Char.toNat text.toList ∧ bvid = parts.bvid

/-- There is no id in a text. -/
def HasNone (text : String) : Prop :=
  ¬ ∃ parts : BvidParts Char, parts.whole = text.toList ∧ parts.IsBvid Char.toNat

namespace LinkVisit

/-- The link leads to an id: it is in the address that has answered, or else in the one that this
refers to. -/
def Tells (visit : LinkVisit) (bvid : String) : Prop :=
  ∃ reply, visit.reply = .ok reply ∧ (HasFirst reply.url bvid ∨
    HasNone reply.url ∧ ∃ location, reply.location = some location ∧ HasFirst location bvid)

/-- The link leads to no id. -/
def IsSilent (visit : LinkVisit) : Prop :=
  ∃ reply, visit.reply = .ok reply ∧ HasNone reply.url ∧
    ∀ location ∈ reply.location, HasNone location

end LinkVisit

namespace LinkFollower

/-- The search finds the first id, and it never panics. -/
theorem search_cases (text : String) :
    (∃ bvid, HasFirst text bvid ∧ ∀ log, search text log = .ok (some bvid) log) ∨
      (HasNone text ∧ ∀ log, search text log = .ok none log) := by
  unfold search
  rcases extractBvid_spec text with ⟨parts, hfirst, hrun⟩ | ⟨hnone, hrun⟩
  · refine .inl ⟨parts.bvid, ⟨parts, hfirst, rfl⟩, fun log => ?_⟩
    rw [hrun]
    rfl
  · refine .inr ⟨hnone, fun log => ?_⟩
    rw [hrun]
    rfl

/-- What comes of a list of links: those that lead to no id, and then perhaps one that leads to
some, or one that fails. -/
def Ends (urls : List Url) (log : List LinkVisit)
    (run : EStateM.Result ApiError (List LinkVisit) (Option String)) : Prop :=
  ∃ silent, (∀ visit ∈ silent, LinkVisit.IsSilent visit) ∧
    ((silent.map (·.url) = urls ∧ run = .ok none (log ++ silent)) ∨
      ∃ last more, urls = silent.map (·.url) ++ last.url :: more ∧
        ((∃ bvid, last.Tells bvid ∧ run = .ok (some bvid) (log ++ silent ++ [last])) ∨
          ∃ cause, last.reply = .error cause ∧
            run = .error (brokenLink last.url cause) (log ++ silent ++ [last])))

/-- A link that leads to no id goes before the others. -/
theorem Ends.cons {urls : List Url} {log : List LinkVisit} {visit : LinkVisit}
    {run : EStateM.Result ApiError (List LinkVisit) (Option String)} (hsilent : visit.IsSilent)
    (h : Ends urls (log ++ [visit]) run) : Ends (visit.url :: urls) log run := by
  obtain ⟨silent, hall, hcases⟩ := h
  refine ⟨visit :: silent, List.forall_mem_cons.2 ⟨hsilent, hall⟩, ?_⟩
  simp only [List.append_assoc, List.singleton_append] at hcases
  rcases hcases with ⟨rfl, hrun⟩ | ⟨last, more, rfl, hlast⟩
  · exact .inl ⟨rfl, hrun⟩
  · refine .inr ⟨last, more, rfl, ?_⟩
    simpa using hlast

/-- A link leads to an id, or it does not, or it fails. -/
theorem followLink_cases (web : LinkWeb) (url : Url) (log : List LinkVisit) :
    ∃ visit : LinkVisit, visit.url = url ∧
      ((visit.IsSilent ∧ followLink web url log = .ok none (log ++ [visit])) ∨
        (∃ bvid, visit.Tells bvid ∧ followLink web url log = .ok (some bvid) (log ++ [visit])) ∨
        ∃ cause, visit.reply = .error cause ∧
          followLink web url log = .error (brokenLink url cause) (log ++ [visit])) := by
  refine ⟨⟨url, web log url⟩, rfl, ?_⟩
  unfold followLink
  simp only [bind, EStateM.bind]
  unfold visit
  cases hreply : web log url with
  | error cause => exact .inr (.inr ⟨cause, rfl, rfl⟩)
  | ok reply =>
    dsimp only
    rcases search_cases reply.url with ⟨bvid, hfirst, hsearch⟩ | ⟨hnone, hsearch⟩
    · refine .inr (.inl ⟨bvid, ⟨reply, rfl, .inl hfirst⟩, ?_⟩)
      rw [hsearch]
      rfl
    · rw [hsearch]
      cases hlocation : reply.location with
      | none => exact .inl ⟨⟨reply, rfl, hnone, by simp [hlocation]⟩, rfl⟩
      | some location =>
        rcases search_cases location with ⟨bvid, hfirst, hmore⟩ | ⟨hnot, hmore⟩
        · refine .inr (.inl ⟨bvid, ⟨reply, rfl, .inr ⟨hnone, location, hlocation, hfirst⟩⟩, ?_⟩)
          exact hmore _
        · refine .inl ⟨⟨reply, rfl, hnone, ?_⟩, hmore _⟩
          rw [hlocation]
          rintro _ ⟨⟩
          exact hnot

/-- Links are followed up to the first that leads to an id. -/
theorem follow_ends (web : LinkWeb) (urls : List Url) (log : List LinkVisit) :
    Ends urls log (follow web urls log) := by
  induction urls generalizing log with
  | nil => exact ⟨[], by simp, .inl ⟨rfl, by rw [List.append_nil]; rfl⟩⟩
  | cons url urls ih =>
    obtain ⟨visit, rfl, hcases⟩ := followLink_cases web url log
    unfold follow
    simp only [bind, EStateM.bind]
    rcases hcases with ⟨hsilent, hrun⟩ | ⟨bvid, htells, hrun⟩ | ⟨cause, hreply, hrun⟩
    · rw [hrun]
      exact (ih (log ++ [visit])).cons hsilent
    · rw [hrun]
      refine ⟨[], by simp, .inr ⟨visit, urls, rfl, .inl ⟨bvid, htells, ?_⟩⟩⟩
      rw [List.append_nil]
      rfl
    · rw [hrun]
      refine ⟨[], by simp, .inr ⟨visit, urls, rfl, .inr ⟨cause, hreply, ?_⟩⟩⟩
      rw [List.append_nil]

end LinkFollower

/-- Whatever links lead to: if a text has an id, the first one is the answer and nothing is
followed.  Otherwise its first three short links are followed, one after the other, up to the first
that leads to an id or fails; this decides, and if all three lead to none, there is none. -/
theorem short_links_followed (web : LinkWeb) (parse : List Char → Option Url) (text : String) :
    (∃ bvid, HasFirst text bvid ∧
        extractBvidFromTextOrShortLink web parse text [] = .ok (some bvid) []) ∨
      (HasNone text ∧ LinkFollower.Ends ((bilibiliShortUrls parse text.toList).take 3) []
        (extractBvidFromTextOrShortLink web parse text [])) := by
  unfold extractBvidFromTextOrShortLink
  simp only [bind, EStateM.bind]
  rcases LinkFollower.search_cases text with ⟨bvid, hfirst, hsearch⟩ | ⟨hnone, hsearch⟩
  · refine .inl ⟨bvid, hfirst, ?_⟩
    rw [hsearch]
    rfl
  · refine .inr ⟨hnone, ?_⟩
    rw [hsearch]
    exact LinkFollower.follow_ends web _ []

end LightEar
