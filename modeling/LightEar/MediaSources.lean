import LightEar.Foundation.FileReader
import LightEar.MediaReads

/-!
# What the decoder reads from

The decoder reads a track out of memory, where the whole file is, or out of the bytes of a stream,
which come in chunks, in any order, and are dropped again.  Both have a cursor that reads and seeks
move.  A stream is read one look at a time; between two looks downloader and player may do what
they like, and a look that finds nothing, or a stream given up, leaves the cursor.

Both are readers of one file (`StreamingMediaSource.reads_run`, `MemoryMediaSource.reads_run`), so
a decoder that reads on to the end gets the same bytes from both
(`media_sources_agree`).
-/

namespace LightEar

open Foundation

universe u

variable {α : Type u}

/-- Adds a distance to an offset, unless that leads out of the offsets. -/
def checkedAddSigned (offset : Nat) (delta : Int) : Option Nat :=
  let next := (offset : Int) + delta
  if 0 ≤ next ∧ next ≤ u64Max then some next.toNat else none

theorem eq_of_checkedAddSigned {offset next : Nat} {delta : Int}
    (h : checkedAddSigned offset delta = some next) : (next : Int) = offset + delta := by
  unfold checkedAddSigned at h
  dsimp only at h
  split at h
  · rename_i hbounds
    cases h
    exact Int.toNat_of_nonneg hbounds.1
  · cases h

theorem le_of_checkedAddSigned {offset next : Nat} {delta : Int}
    (h : checkedAddSigned offset delta = some next) : next ≤ u64Max := by
  have hnext := eq_of_checkedAddSigned h
  unfold checkedAddSigned at h
  dsimp only at h
  split at h
  · rename_i hbounds
    omega
  · cases h

/-! ## The file in memory -/

/-- A file with a place in it. -/
structure MemoryMediaSource (α : Type u) where
  /-- The place. -/
  cursor : Nat
  /-- The file. -/
  audio : List α
  deriving DecidableEq, Repr

namespace MemoryMediaSource

/-- The file at its start. -/
def new (audio : List α) : MemoryMediaSource α := ⟨0, audio⟩

/-- Reads up to a number of bytes. -/
def read (s : MemoryMediaSource α) (len : Nat) : List α × MemoryMediaSource α :=
  let bytes := (s.audio.drop s.cursor).take len
  (bytes, { s with cursor := s.cursor + bytes.length })

/-- Goes to a place. -/
def seek (s : MemoryMediaSource α) (pos : SeekFrom) :
    Except String Nat × MemoryMediaSource α :=
  let place := match pos with
    | .start pos => some pos
    | .fromEnd delta => checkedAddSigned s.audio.length delta
    | .current delta => checkedAddSigned s.cursor delta
  match place with
  | none => (.error "invalid seek to a negative or overflowing position", s)
  | some place => (.ok place, { s with cursor := place })

end MemoryMediaSource

/-! ## The file as a stream -/

/-- The bytes of a stream with a place in the file. -/
structure StreamingMediaSource (α : Type u) where
  /-- The bytes that are there. -/
  shared : StreamingBytesState α
  /-- The place. -/
  cursor : Nat
  deriving DecidableEq, Repr

namespace StreamingMediaSource

/-- A stream at its start. -/
def new (shared : StreamingBytesState α) : StreamingMediaSource α := ⟨shared, 0⟩

/-- One look of a read of up to a number of bytes. -/
def read (s : StreamingMediaSource α) (len : Nat) (decoderCanceled : Bool) :
    ReadOutcome α × StreamingMediaSource α :=
  let (outcome, shared) := s.shared.readAt s.cursor len decoderCanceled
  match outcome with
  | .read bytes => (outcome, { shared, cursor := satAdd s.cursor bytes.length })
  | .interrupted | .failed _ | .waits => (outcome, { s with shared })

/-- Goes to a place. -/
def seek (s : StreamingMediaSource α) (pos : SeekFrom) :
    Except String Nat × StreamingMediaSource α :=
  let next : Except String Nat := match pos with
    | .start pos => .ok pos
    | .current delta => (checkedAddSigned s.cursor delta).elim (.error "invalid seek") .ok
    | .fromEnd delta =>
      match s.shared.totalBytes with
      | none => .error "unknown stream length"
      | some len => (checkedAddSigned len delta).elim (.error "invalid seek") .ok
  match next with
  | .error complaint => (.error complaint, s)
  | .ok next => (.ok next, { s with cursor := next })

end StreamingMediaSource

/-! ## Runs -/

/-- What a decoder asks of its source. -/
inductive MediaRequest where
  | read (len : Nat)
  | seek (pos : SeekFrom)
  deriving DecidableEq, Repr

/-- A place that a program can name. -/
def MediaRequest.IsPossible : MediaRequest → Prop
  | read _ => True
  | seek (.start pos) => pos ≤ u64Max
  | seek (.fromEnd _) => True
  | seek (.current _) => True

/-- What happens to a stream that a decoder reads: something to its bytes, or a request. -/
inductive SourceAction (α : Type u) where
  | bytes (action : BytesAction α)
  | request (request : MediaRequest) (decoderCanceled : Bool)
  deriving DecidableEq, Repr

/-- What is appended is a part of the file, and a length that is noted is the file's. -/
def SourceAction.IsFrom (media : List α) : SourceAction α → Prop
  | bytes (.setTotal total) => ∀ length ∈ total, length = media.length
  | bytes action => action.IsFrom media
  | request asked _ => asked.IsPossible

/-- A source with the requests that it has answered. -/
structure Answered (σ : Type u) (α : Type u) where
  /-- The source. -/
  source : σ
  /-- The requests with their answers; a seek that fails has none. -/
  events : List (FileEvent α)

/-- The answer of a seek. -/
def placeOf : Except String Nat → Option Nat
  | .ok place => some place
  | .error _ => none

/-- A decoder reads the file in memory. -/
def MemoryMediaSource.answer (r : Answered (MemoryMediaSource α) α) :
    MediaRequest → Answered (MemoryMediaSource α) α
  | .read len => ⟨(r.source.read len).2, r.events ++ [.read len (r.source.read len).1]⟩
  | .seek pos => ⟨(r.source.seek pos).2, r.events ++ [.seek pos (placeOf (r.source.seek pos).1)]⟩

/-- A decoder reads the stream, while others change its bytes.  A look that finds nothing is no
answer. -/
def StreamingMediaSource.answer (r : Answered (StreamingMediaSource α) α) :
    SourceAction α → Answered (StreamingMediaSource α) α
  | .bytes action => { r with source := { r.source with shared := r.source.shared.perform action } }
  | .request (.read len) decoderCanceled =>
    let (outcome, source) := r.source.read len decoderCanceled
    match outcome with
    | .read bytes => ⟨source, r.events ++ [.read len bytes]⟩
    | .interrupted | .failed _ | .waits => { r with source }
  | .request (.seek pos) _ =>
    ⟨(r.source.seek pos).2, r.events ++ [.seek pos (placeOf (r.source.seek pos).1)]⟩

/-- A list of requests to the file in memory. -/
def MemoryMediaSource.run (media : List α) (requests : List MediaRequest) :
    Answered (MemoryMediaSource α) α :=
  requests.foldl answer ⟨new media, []⟩

/-- A list of requests to a stream, and of what happens to its bytes. -/
def StreamingMediaSource.run (actions : List (SourceAction α)) :
    Answered (StreamingMediaSource α) α :=
  actions.foldl answer ⟨new .new, []⟩

/-! ## Both read the file -/

namespace MemoryMediaSource

variable {r : Answered (MemoryMediaSource α) α} {media : List α}

/-- A seek goes where it says, or it fails and goes nowhere. -/
theorem seek_cases (s : MemoryMediaSource α) (pos : SeekFrom) :
    (∃ place, s.seek pos = (.ok place, { s with cursor := place }) ∧
      (place : Int) = pos.target s.audio.length s.cursor) ∨
    ∃ complaint, s.seek pos = (.error complaint, s) := by
  unfold seek
  cases pos with
  | start pos => exact .inl ⟨pos, rfl, rfl⟩
  | fromEnd delta =>
    dsimp only
    cases hplace : checkedAddSigned s.audio.length delta with
    | none => exact .inr ⟨_, rfl⟩
    | some place => exact .inl ⟨place, rfl, eq_of_checkedAddSigned hplace⟩
  | current delta =>
    dsimp only
    cases hplace : checkedAddSigned s.cursor delta with
    | none => exact .inr ⟨_, rfl⟩
    | some place => exact .inl ⟨place, rfl, eq_of_checkedAddSigned hplace⟩

/-- A request to the file in memory. -/
theorem reads_answer (haudio : r.source.audio = media)
    (hreads : Reads media 0 r.events r.source.cursor) (request : MediaRequest) :
    (answer r request).source.audio = media ∧
      Reads media 0 (answer r request).events (answer r request).source.cursor := by
  cases request with
  | read len =>
    refine ⟨haudio, hreads.concat ⟨rfl, List.length_take_le _ _, ?_, ?_⟩⟩
    · rw [← haudio]
      exact List.take_prefix _ _
    · intro hempty
      rw [← haudio]
      exact (List.take_eq_nil_iff.1 hempty).imp id List.drop_eq_nil_iff.1
  | seek pos =>
    unfold answer
    dsimp only
    rcases r.source.seek_cases pos with ⟨place, hseek, htarget⟩ | ⟨complaint, hseek⟩
    · rw [hseek]
      rw [haudio] at htarget
      exact ⟨haudio, hreads.concat ⟨rfl, htarget⟩⟩
    · rw [hseek]
      exact ⟨haudio, hreads.concat rfl⟩

/-- The file in memory is read as a file. -/
theorem reads_run (media : List α) (requests : List MediaRequest) :
    Reads media 0 (run media requests).events (run media requests).source.cursor := by
  have hrun : ∀ (r : Answered (MemoryMediaSource α) α), r.source.audio = media →
      Reads media 0 r.events r.source.cursor →
        Reads media 0 (requests.foldl answer r).events (requests.foldl answer r).source.cursor := by
    induction requests with
    | nil => exact fun _ _ hreads => hreads
    | cons request requests ih =>
      intro r haudio hreads
      obtain ⟨hsame, hnext⟩ := reads_answer haudio hreads request
      exact ih _ hsame hnext
  exact hrun ⟨new media, []⟩ rfl rfl

end MemoryMediaSource

namespace StreamingMediaSource

variable {s : StreamingMediaSource α} {r : Answered (StreamingMediaSource α) α} {media : List α}

/-- A seek goes where it says, provided that a known length is right, or it fails and goes
nowhere. -/
theorem seek_cases (htotal : ∀ length ∈ s.shared.totalBytes, length = media.length)
    {pos : SeekFrom} (hpos : (MediaRequest.seek pos).IsPossible) :
    (∃ place, s.seek pos = (.ok place, { s with cursor := place }) ∧
      (place : Int) = pos.target media.length s.cursor ∧ place ≤ u64Max) ∨
    ∃ complaint, s.seek pos = (.error complaint, s) := by
  unfold seek
  cases pos with
  | start pos => exact .inl ⟨pos, rfl, rfl, hpos⟩
  | fromEnd delta =>
    dsimp only
    cases hlength : s.shared.totalBytes with
    | none => exact .inr ⟨_, rfl⟩
    | some length =>
      dsimp only
      obtain rfl := htotal length hlength
      cases hplace : checkedAddSigned media.length delta with
      | none => exact .inr ⟨_, rfl⟩
      | some place =>
        exact .inl ⟨place, rfl, eq_of_checkedAddSigned hplace, le_of_checkedAddSigned hplace⟩
  | current delta =>
    dsimp only
    cases hplace : checkedAddSigned s.cursor delta with
    | none => exact .inr ⟨_, rfl⟩
    | some place =>
      exact .inl ⟨place, rfl, eq_of_checkedAddSigned hplace, le_of_checkedAddSigned hplace⟩

/-- A look of a read moves the cursor past the bytes that it brings; one that brings none leaves
the source but for its requests. -/
theorem read_cases (s : StreamingMediaSource α) (len : Nat) (decoderCanceled : Bool) :
    ∃ queue, let shared := { s.shared with requestedOffsets := queue }
      (∃ bytes, (s.shared.readAt s.cursor len decoderCanceled).1 = .read bytes ∧
        s.read len decoderCanceled =
          (.read bytes, { shared, cursor := satAdd s.cursor bytes.length })) ∨
      ∃ outcome, (∀ bytes, outcome ≠ .read bytes) ∧
        s.read len decoderCanceled = (outcome, { s with shared }) := by
  obtain ⟨queue, hqueue⟩ := s.shared.readAt_eq s.cursor len decoderCanceled
  refine ⟨queue, ?_⟩
  unfold read
  rw [← hqueue]
  dsimp only
  cases (s.shared.readAt s.cursor len decoderCanceled).1 with
  | read bytes => exact .inl ⟨bytes, rfl, rfl⟩
  | interrupted => exact .inr ⟨_, by simp, rfl⟩
  | failed error => exact .inr ⟨_, by simp, rfl⟩
  | waits => exact .inr ⟨_, by simp, rfl⟩

/-- A stream that is right about the file and has been read as the file. -/
structure IsReading (r : Answered (StreamingMediaSource α) α) (media : List α) : Prop where
  /-- The chunks are parts of the file. -/
  holds : r.source.shared.HoldsOnly (·.IsPartOf media)
  /-- A length that is known is the file's. -/
  total : ∀ length ∈ r.source.shared.totalBytes, length = media.length
  /-- The place is one that a program can name. -/
  cursor : r.source.cursor ≤ u64Max
  /-- The answers so far fit the file. -/
  reads : Reads media 0 r.events r.source.cursor

/-- Only the downloader notes a length. -/
theorem totalBytes_perform (shared : StreamingBytesState α) {action : BytesAction α}
    (haction : (SourceAction.bytes action).IsFrom media)
    (htotal : ∀ length ∈ shared.totalBytes, length = media.length) :
    ∀ length ∈ (shared.perform action).totalBytes, length = media.length := by
  cases action with
  | setTotal total => exact haction
  | append bytes range =>
    unfold StreamingBytesState.perform StreamingBytesState.append
    dsimp only
    split
    · exact htotal
    · exact htotal
  | pinRanges ranges => exact htotal
  | retainWindow retainStart retainEnd => exact htotal
  | fail error => exact htotal
  | cancel => exact htotal
  | requestOffset offset =>
    obtain ⟨queue, hqueue⟩ := shared.ask_eq offset false
    change ∀ length ∈ (shared.ask offset false).totalBytes, length = media.length
    rw [hqueue]
    exact htotal
  | prioritizeOffset offset =>
    obtain ⟨queue, hqueue⟩ := shared.ask_eq offset true
    change ∀ length ∈ (shared.ask offset true).totalBytes, length = media.length
    rw [hqueue]
    exact htotal
  | takeRequestedOffset total => exact htotal
  | readAt offset len decoderCanceled =>
    obtain ⟨queue, hqueue⟩ := shared.readAt_eq offset len decoderCanceled
    change ∀ length ∈ (shared.readAt offset len decoderCanceled).2.totalBytes,
      length = media.length
    rw [hqueue]
    exact htotal

/-- Whatever happens to the bytes, the stream stays right. -/
theorem IsReading.bytes (h : IsReading r media) {action : BytesAction α}
    (haction : (SourceAction.bytes action).IsFrom media) :
    IsReading (answer r (.bytes action)) media := by
  have hfrom : action.AppendsOnly (·.IsPartOf media) := by
    cases action with
    | append bytes range => exact haction
    | _ => trivial
  exact ⟨h.holds.perform hfrom, totalBytes_perform _ haction h.total, h.cursor, h.reads⟩

/-- Where every chunk is a part of the file, what a look brings is a part of it. -/
theorem fits_readAt {shared : StreamingBytesState α} (h : shared.HoldsOnly (·.IsPartOf media))
    (htotal : ∀ length ∈ shared.totalBytes, length = media.length) {offset len : Nat}
    {decoderCanceled : Bool} {bytes : List α}
    (hread : (shared.readAt offset len decoderCanceled).1 = .read bytes) :
    bytes.length ≤ len ∧ bytes <+: media.drop offset ∧
      (bytes = [] → len = 0 ∨ media.length ≤ offset) := by
  have hmedia : shared.HoldsMedia media := ⟨h.indexed, h.chunks⟩
  have hempty : bytes = [] → len = 0 ∨ media.length ≤ offset := by
    rintro rfl
    rcases hmedia.of_read_nil hread with hlen | ⟨total, htotals, hle⟩
    · exact .inl hlen
    · exact .inr (htotal total htotals ▸ hle)
  rw [← and_assoc]
  refine ⟨?_, hempty⟩
  unfold StreamingBytesState.readAt at hread
  split at hread
  · cases hread
    exact ⟨Nat.zero_le _, List.nil_prefix⟩
  · rename_i hlen
    split at hread
    · cases hread
    · split at hread
      · cases hread
      · split at hread
        · cases hread
          exact ⟨Nat.zero_le _, List.nil_prefix⟩
        · split at hread
          · rename_i chunk hchunk
            cases hread
            have hpart := h.chunks chunk (List.mem_of_find?_eq_some hchunk)
            have hcontains : chunk.range.Contains offset := by
              simpa using List.find?_some hchunk
            exact ⟨List.length_take_le _ _, (hpart.read hlen hcontains).2⟩
          · cases hread

/-- A request is answered as the file would. -/
theorem IsReading.request (h : IsReading r media) (hmedia : media.length ≤ u64Max)
    {request : MediaRequest} (hrequest : request.IsPossible) (decoderCanceled : Bool) :
    IsReading (answer r (.request request decoderCanceled)) media := by
  cases request with
  | read len =>
    obtain ⟨queue, hcases⟩ := r.source.read_cases len decoderCanceled
    have hshared : ({ r.source.shared with requestedOffsets := queue } :
        StreamingBytesState α).HoldsOnly (·.IsPartOf media) := h.holds.congr rfl rfl
    unfold answer
    dsimp only
    rcases hcases with ⟨bytes, houtcome, hread⟩ | ⟨outcome, hnothing, hread⟩
    · obtain ⟨hlen, hupto, hempty⟩ := fits_readAt h.holds h.total houtcome
      -- the cursor never gets past the last offset: what is read lies in the file
      have hcursor : satAdd r.source.cursor bytes.length = r.source.cursor + bytes.length := by
        unfold satAdd
        refine Nat.min_eq_left ?_
        have hle := hupto.length_le
        have hbound := h.cursor
        rw [List.length_drop] at hle
        omega
      have hnext : r.source.cursor + bytes.length ≤ u64Max := hcursor ▸ Nat.min_le_right _ _
      rw [hread]
      dsimp only
      rw [hcursor]
      exact ⟨hshared, h.total, hnext, h.reads.concat ⟨rfl, hlen, hupto, hempty⟩⟩
    · rw [hread]
      cases outcome with
      | read bytes => exact absurd rfl (hnothing bytes)
      | _ => exact ⟨hshared, h.total, h.cursor, h.reads⟩
  | seek pos =>
    unfold answer
    dsimp only
    rcases seek_cases h.total hrequest with ⟨place, hseek, htarget, hplace⟩ | ⟨complaint, hseek⟩
    · rw [hseek]
      exact ⟨h.holds, h.total, hplace, h.reads.concat ⟨rfl, htarget⟩⟩
    · rw [hseek]
      exact ⟨h.holds, h.total, h.cursor, h.reads.concat rfl⟩

/-- Whatever happens to the bytes between the requests, the stream is read as the file. -/
theorem reads_run (hmedia : media.length ≤ u64Max) {actions : List (SourceAction α)}
    (hactions : ∀ a ∈ actions, a.IsFrom media) :
    Reads media 0 (run actions).events (run actions).source.cursor := by
  have hrun : IsReading (run actions) media := by
    unfold run
    refine List.foldlRecOn actions answer (motive := fun r => IsReading r media)
      ⟨.new _, ?_, Nat.zero_le _, rfl⟩ ?_
    · intro length hlength
      cases hlength
    · intro r hr action haction
      have hfrom := hactions action haction
      cases action with
      | bytes action => exact hr.bytes hfrom
      | request request decoderCanceled => exact hr.request hmedia hfrom decoderCanceled
  exact hrun.reads

end StreamingMediaSource

/-! ## Main result -/

/-- Over any interleaving of downloader, player and decoder the stream is read as the file, and so
is the file in memory.  A decoder that reads on from one place until a read comes back empty has
the same bytes from both, the rest of the file, in whatever pieces. -/
theorem media_sources_agree {media : List α} (hmedia : media.length ≤ u64Max)
    {actions : List (SourceAction α)} (hactions : ∀ a ∈ actions, a.IsFrom media)
    (requests : List MediaRequest) :
    let streamed := StreamingMediaSource.run actions
    let stored := MemoryMediaSource.run media requests
    Reads media 0 streamed.events streamed.source.cursor ∧
    Reads media 0 stored.events stored.source.cursor ∧
    ∀ earlier reads earlier' reads' place, streamed.events = earlier ++ reads →
      stored.events = earlier' ++ reads' →
      Reads media 0 earlier place → Reads media 0 earlier' place →
      (∀ e ∈ reads, e.IsRead) → (∀ e ∈ reads', e.IsRead) →
      (∃ e ∈ reads, e.IsEnd) → (∃ e ∈ reads', e.IsEnd) →
        reads.flatMap FileEvent.bytes = media.drop place ∧
          reads'.flatMap FileEvent.bytes = media.drop place := by
  intro streamed stored
  have hstreamed := StreamingMediaSource.reads_run hmedia hactions
  have hstored := MemoryMediaSource.reads_run media requests
  refine ⟨hstreamed, hstored, ?_⟩
  intro earlier reads earlier' reads' place hsplit hsplit' hplace hplace' hreads hreads' hend hend'
  rw [hsplit] at hstreamed
  rw [hsplit'] at hstored
  exact ⟨hstreamed.bytes_eq_of_append hplace hreads hend,
    hstored.bytes_eq_of_append hplace' hreads' hend'⟩

/-- A decoder that seeks the second byte and reads on; the chunks overlap and come the wrong way
round, the look between them finds nothing, and the length comes last. -/
def lateChunks : List (SourceAction Nat) := [
  .bytes (.append [12, 13] ⟨2, 3⟩),
  .request (.seek (.start 1)) false,
  .request (.read 8) false,
  .bytes (.append [10, 11, 12] ⟨0, 2⟩),
  .request (.read 8) false,
  .request (.read 8) false,
  .bytes (.setTotal (some 4)),
  .request (.read 8) false]

/-- The main result for the late chunks: the stream is read in two pieces, the file in one. -/
theorem media_sources_agree_lateChunks :
    [.read 8 [11, 12], .read 8 [13], .read 8 []].flatMap FileEvent.bytes = [10, 11, 12, 13].drop 1 ∧
      [.read 8 [11, 12, 13], .read 8 []].flatMap FileEvent.bytes = [10, 11, 12, 13].drop 1 := by
  have hactions : ∀ a ∈ lateChunks, a.IsFrom [10, 11, 12, 13] := by
    simp only [lateChunks, List.forall_mem_cons]
    refine ⟨⟨by decide, by decide, by decide⟩, show 1 ≤ u64Max by decide, trivial, ?_⟩
    refine ⟨⟨by decide, by decide, by decide⟩, trivial, trivial, ?_⟩
    exact ⟨fun length hlength => (Option.mem_some_iff.1 hlength).symm, trivial,
      List.forall_mem_nil _⟩
  have hplace : Reads [10, 11, 12, 13] 0 [.seek (.start 1) (some 1)] 1 := ⟨1, ⟨rfl, rfl⟩, rfl⟩
  exact (media_sources_agree (by decide) hactions [.seek (.start 1), .read 8, .read 8]).2.2
    [.seek (.start 1) (some 1)] _ [.seek (.start 1) (some 1)] _ 1 rfl rfl hplace hplace
    (by simp [FileEvent.IsRead]) (by simp [FileEvent.IsRead])
    ⟨.read 8 [], by simp, by decide, rfl⟩ ⟨.read 8 [], by simp, by decide, rfl⟩

end LightEar
