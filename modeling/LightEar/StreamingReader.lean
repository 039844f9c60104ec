import LightEar.StreamingPcm

/-!
# What a streaming source reads

The buffer is a window of the stream of pushed samples that begins at a whole frame.  A source
stands at an absolute place of that stream.  When it finds the front of the window moved it keeps
its absolute place, up to the rounding: inside a frame it goes back to the frame's start, so that
it returns samples again and every later sample comes out on the wrong channel
(`syncSharedBasePosition_index`).

So a source yields the stream without gap or repetition exactly if it finds the front moved only
at the start of a frame (`yieldsNext_iff_frameStart`); with one channel every sample is a frame.
-/

namespace LightEar

open Foundation

universe u

variable {α : Type u}

/-! ## The shared buffer -/

namespace StreamingPcmState

/-- How many samples a trim drops. -/
def trimmed (p : StreamingPcmState α) (positionMs retainBehindMs : Nat) : Nat :=
  p.samples.length - (p.trimBefore positionMs retainBehindMs).samples.length

/-- Whether a source may still get samples: nothing has failed and nobody has given up. -/
def Live (p : StreamingPcmState α) : Prop := p.canceled = false ∧ p.error = none

instance (p : StreamingPcmState α) : Decidable p.Live := inferInstanceAs (Decidable (_ ∧ _))

/-- What has been dropped are whole frames, and nothing before the format is known. -/
def WholeFrames (p : StreamingPcmState α) : Prop :=
  match p.channels with
  | none => p.droppedSamples = 0
  | some channels => (channels : ℕ) ∣ p.droppedSamples

/-- A trim changes nothing, or drops whole frames that are there. -/
theorem trimBefore_cases (p : StreamingPcmState α) (positionMs retainBehindMs : Nat) :
    p.trimBefore positionMs retainBehindMs = p ∨
      ∃ channels n base, p.channels = some channels ∧ (channels : ℕ) ∣ n ∧
        n ≤ p.samples.length ∧
        p.trimBefore positionMs retainBehindMs =
          { p with
            samples := p.samples.drop n
            droppedSamples := satAdd p.droppedSamples n
            basePositionMs := base } := by
  unfold trimBefore
  split
  · rename_i channels sampleRate hchannels hrate
    dsimp only
    split_ifs with hearly hshort hnone
    · exact .inl rfl
    · exact .inl rfl
    · exact .inl rfl
    · right
      refine ⟨channels, _, _, hchannels, ?_, Nat.min_le_right _ _, rfl⟩
      have hframes : min ((positionMs - retainBehindMs - p.basePositionMs) * sampleRate / 1000)
          (p.samples.length / channels) * channels ≤ p.samples.length :=
        (Nat.mul_le_mul_right _ (Nat.min_le_right _ _)).trans (Nat.div_mul_le_self _ _)
      rw [Nat.min_eq_left hframes]
      exact Nat.dvd_mul_left _ _
  · exact .inl rfl

/-- Without overflow a trim moves the window along the stream by whole frames. -/
theorem trimBefore_window {p : StreamingPcmState α} {decoded : List α}
    (hwindow : IsWindow decoded p.droppedSamples p.samples) (hframes : p.WholeFrames)
    {positionMs retainBehindMs : Nat}
    (hcount : p.droppedSamples + p.trimmed positionMs retainBehindMs ≤ u64Max) :
    (p.trimBefore positionMs retainBehindMs).channels = p.channels ∧
    (p.trimBefore positionMs retainBehindMs).sampleRate = p.sampleRate ∧
    ((p.trimBefore positionMs retainBehindMs).Live ↔ p.Live) ∧
    (p.trimBefore positionMs retainBehindMs).droppedSamples =
      p.droppedSamples + p.trimmed positionMs retainBehindMs ∧
    IsWindow decoded (p.trimBefore positionMs retainBehindMs).droppedSamples
      (p.trimBefore positionMs retainBehindMs).samples ∧
    (p.trimBefore positionMs retainBehindMs).WholeFrames := by
  rcases p.trimBefore_cases positionMs retainBehindMs with
    hsame | ⟨channels, n, base, hchannels, hdvd, hn, htrim⟩
  · have hnone : p.trimmed positionMs retainBehindMs = 0 := by
      unfold trimmed
      rw [hsame, Nat.sub_self]
    rw [hsame, hnone]
    exact ⟨rfl, rfl, Iff.rfl, rfl, hwindow, hframes⟩
  · have htrimmed : p.trimmed positionMs retainBehindMs = n := by
      unfold trimmed
      rw [htrim, List.length_drop]
      omega
    rw [htrimmed] at hcount
    have hsum : satAdd p.droppedSamples n = p.droppedSamples + n := Nat.min_eq_left hcount
    rw [htrim, htrimmed]
    refine ⟨rfl, rfl, Iff.rfl, hsum, ?_, ?_⟩
    · dsimp only
      rw [hsum]
      exact hwindow.trim hn
    · unfold WholeFrames at hframes ⊢
      rw [hchannels] at hframes ⊢
      dsimp only at hframes ⊢
      rw [hsum]
      exact Nat.dvd_add hframes hdvd

/-- A sample of a live buffer is ready exactly if it is there. -/
theorem sample_of_live {p : StreamingPcmState α} (h : p.Live) (index : Nat) :
    p.sample index =
      match p.samples[index]? with
      | some sample => .ready sample
      | none => if p.complete then .finished else .waiting := by
  obtain ⟨hcanceled, herror⟩ := h
  unfold sample
  rw [if_neg (by simp [hcanceled])]
  split
  · next error hfailed =>
    rw [herror] at hfailed
    cases hfailed
  · rfl

/-- A buffer that is not live has no sample ready. -/
theorem sample_of_not_live {p : StreamingPcmState α} (h : ¬ p.Live) (index : Nat) (sample : α) :
    p.sample index ≠ .ready sample := by
  unfold StreamingPcmState.sample
  by_cases hcanceled : p.canceled = true
  · rw [if_pos hcanceled]
    nofun
  · rw [if_neg hcanceled]
    cases herror : p.error with
    | some error => nofun
    | none => exact absurd ⟨Bool.eq_false_iff.2 hcanceled, herror⟩ h

end StreamingPcmState

/-! ## One look of the source -/

namespace StreamingPcmSource

/-- Whether the front of the window has moved since the source last looked. -/
def WindowMoved (s : StreamingPcmSource) (shared : StreamingPcmState α) : Prop :=
  ¬ (shared.droppedSamples ≤ s.droppedSamples ∧ shared.basePositionMs ≤ s.basePositionMs)

instance (s : StreamingPcmSource) (shared : StreamingPcmState α) :
    Decidable (s.WindowMoved shared) := inferInstanceAs (Decidable (¬ _))

/-- The source has followed the window so far: both drop whole frames, and the window begins
between the place where the source last saw it begin and the source's own place. -/
structure Follows (s : StreamingPcmSource) (shared : StreamingPcmState α) : Prop where
  /-- Source and buffer agree on the format. -/
  channels : shared.channels = some s.channels
  /-- The buffer has dropped whole frames. -/
  shared_frames : (s.channels : ℕ) ∣ shared.droppedSamples
  /-- So it had when the source last looked. -/
  frames : (s.channels : ℕ) ∣ s.droppedSamples
  /-- The front moves forward. -/
  dropped_le : s.droppedSamples ≤ shared.droppedSamples
  /-- The front does not overtake the source. -/
  le_index : shared.droppedSamples ≤ s.index

variable {s : StreamingPcmSource} {shared : StreamingPcmState α}

/-- A source that finds the window where it was stays. -/
theorem syncSharedBasePosition_of_not_moved (h : ¬ s.WindowMoved shared) :
    s.syncSharedBasePosition shared = s :=
  if_pos (not_not.1 h)

/-- A source that finds the window moved goes back by what has been dropped, and down to the start
of a frame. -/
theorem syncSharedBasePosition_of_moved (h : s.WindowMoved shared) :
    s.syncSharedBasePosition shared =
      { s with
        pos := s.pos - (shared.droppedSamples - s.droppedSamples) -
          (s.pos - (shared.droppedSamples - s.droppedSamples)) % s.channels
        basePositionMs := shared.basePositionMs
        droppedSamples := shared.droppedSamples } :=
  if_neg h

/-- Looking at the window keeps the absolute place, unless the window has moved inside a frame of
the source: then the source goes back to the start of the frame. -/
theorem syncSharedBasePosition_index (h : s.Follows shared) :
    (s.syncSharedBasePosition shared).droppedSamples = shared.droppedSamples ∧
    (s.syncSharedBasePosition shared).index =
      if s.WindowMoved shared then s.index - s.pos % s.channels else s.index := by
  have hdropped := h.dropped_le
  have hindex := h.le_index
  unfold index at hindex
  by_cases hmoved : s.WindowMoved shared
  · rw [if_pos hmoved, syncSharedBasePosition_of_moved hmoved]
    refine ⟨rfl, ?_⟩
    have hplace : (s.pos - (shared.droppedSamples - s.droppedSamples)) % s.channels =
        s.pos % s.channels :=
      sub_mod_of_dvd (Nat.dvd_sub h.shared_frames h.frames) (by omega)
    have hle := Nat.mod_le (s.pos - (shared.droppedSamples - s.droppedSamples)) s.channels
    rw [hplace] at hle
    unfold index
    dsimp only
    rw [hplace]
    omega
  · rw [if_neg hmoved, syncSharedBasePosition_of_not_moved hmoved]
    exact ⟨Nat.le_antisymm hdropped (not_not.1 hmoved).1, rfl⟩

@[simp] theorem syncSharedBasePosition_channels (s : StreamingPcmSource)
    (shared : StreamingPcmState α) :
    (s.syncSharedBasePosition shared).channels = s.channels := by
  by_cases hmoved : s.WindowMoved shared
  · rw [syncSharedBasePosition_of_moved hmoved]
  · rw [syncSharedBasePosition_of_not_moved hmoved]

variable [MulOneClass α]

/-- A look that finds a sample returns it and goes on by one. -/
theorem next_of_ready {sample : α} (now : Instant)
    (h : shared.sample (s.syncSharedBasePosition shared).pos = .ready sample) :
    (s.next shared 1 now).1 = .returned (some sample) ∧
    (s.next shared 1 now).2.2 =
      { s.syncSharedBasePosition shared with
        pos := (s.syncSharedBasePosition shared).pos + 1 }.updatePosition := by
  unfold next
  dsimp only
  rw [h]
  dsimp only
  rw [mul_one]
  exact ⟨rfl, rfl⟩

/-- A look that finds none returns none and stays. -/
theorem next_of_not_ready (now : Instant)
    (h : ∀ sample, shared.sample (s.syncSharedBasePosition shared).pos ≠ .ready sample) :
    (∀ sample, (s.next shared 1 now).1 ≠ .returned (some sample)) ∧
    ∃ last, (s.next shared 1 now).2.2 =
      { s.syncSharedBasePosition shared with lastUnderrunAt := last } := by
  unfold next
  dsimp only
  split
  · rename_i sample hready
    exact absurd hready (h sample)
  · exact ⟨nofun, _, rfl⟩
  · exact ⟨nofun, _, rfl⟩
  · exact ⟨nofun, _, rfl⟩
  · split_ifs
    · exact ⟨nofun, _, rfl⟩
    · exact ⟨nofun, _, rfl⟩

end StreamingPcmSource

namespace Streaming

/-! ## What is asked of a run -/

/-- A trim drops nothing that the source has still to read. -/
def TrimsBehind (s : Streaming α) : StreamingAction α → Prop
  | .trimBefore positionMs retainBehindMs => ∀ source ∈ s.source,
    s.shared.droppedSamples + s.shared.trimmed positionMs retainBehindMs ≤ source.index
  | _ => True

/-- The count of dropped samples stays within its 64 bits. -/
def CountsDropped (s : Streaming α) : StreamingAction α → Prop
  | .trimBefore positionMs retainBehindMs =>
    s.shared.droppedSamples + s.shared.trimmed positionMs retainBehindMs ≤ u64Max
  | _ => True

/-- A sample that the source returns is the next one of the stream, it comes out on its own
channel, and the absolute place of the source goes up by one. -/
def YieldsNext [MulOneClass α] (s : Streaming α) : StreamingAction α → Prop
  | .next now => ∀ source ∈ s.source, ∀ sample,
    (source.next s.shared 1 now).1 = .returned (some sample) →
      s.decoded[s.first + s.returned]? = some sample ∧
      (s.first + s.returned) % source.channels = s.returned % source.channels ∧
      (source.next s.shared 1 now).2.2.index = s.first + s.returned + 1
  | _ => True

/-- A source that finds the window moved stands at the start of a frame. -/
def FrameStart (s : Streaming α) : StreamingAction α → Prop
  | .next _ => ∀ source ∈ s.source, s.shared.Live → source.WindowMoved s.shared →
    source.pos % source.channels = 0
  | _ => True

/-! ## The invariant -/

/-- The source has followed the window and stands behind the samples that it has returned. -/
structure ReadsOn (s : Streaming α) (source : StreamingPcmSource) : Prop where
  /-- The source has followed the window. -/
  follows : source.Follows s.shared
  /-- It began at the start of a frame. -/
  first : (source.channels : ℕ) ∣ s.first
  /-- It has gone up by one for each sample returned. -/
  index : s.shared.Live → source.index = s.first + s.returned
  /-- What it has returned had been pushed. -/
  read : s.shared.Live → s.returned = 0 ∨ source.index ≤ s.decoded.length

/-- The buffer is a window of what has been pushed, and the source reads on from where it is. -/
structure Reading (s : Streaming α) : Prop where
  /-- The buffer is a window of the stream. -/
  window : IsWindow s.decoded s.shared.droppedSamples s.shared.samples
  /-- The two parts of the format are known together. -/
  spec : s.shared.channels.isSome = s.shared.sampleRate.isSome
  /-- Whole frames have been dropped. -/
  frames : s.shared.WholeFrames
  /-- The source reads on. -/
  source : ∀ source ∈ s.source, s.ReadsOn source

theorem Reading.new : (new : Streaming α).Reading :=
  ⟨.nil, rfl, rfl, nofun⟩

/-- A change of the buffer that keeps its format, revives nothing, and moves its front by whole
frames and not past the source, lets the source read on. -/
theorem ReadsOn.of_shared {s s' : Streaming α} {source : StreamingPcmSource}
    (h : s.ReadsOn source) (hfirst : s'.first = s.first) (hreturned : s'.returned = s.returned)
    (hdecoded : s.decoded.length ≤ s'.decoded.length)
    (hchannels : s'.shared.channels = s.shared.channels)
    (hlive : s'.shared.Live → s.shared.Live) (hframes : s'.shared.WholeFrames)
    (hdropped : s.shared.droppedSamples ≤ s'.shared.droppedSamples)
    (hindex : s'.shared.droppedSamples ≤ source.index) : s'.ReadsOn source := by
  have hsome : s'.shared.channels = some source.channels := hchannels.trans h.follows.channels
  refine ⟨⟨hsome, ?_, h.follows.frames, h.follows.dropped_le.trans hdropped, hindex⟩, ?_,
    fun hl => ?_, fun hl => ?_⟩
  · unfold StreamingPcmState.WholeFrames at hframes
    rw [hsome] at hframes
    exact hframes
  · rw [hfirst]
    exact h.first
  · rw [hfirst, hreturned]
    exact h.index (hlive hl)
  · rw [hreturned]
    exact (h.read (hlive hl)).imp_right fun hread => hread.trans hdecoded

/-- What leaves format and front of the buffer alone and revives nothing keeps the invariant. -/
theorem Reading.of_shared {s : Streaming α} (h : s.Reading) {shared : StreamingPcmState α}
    {decoded : List α} (hwindow : IsWindow decoded s.shared.droppedSamples shared.samples)
    (hdecoded : s.decoded.length ≤ decoded.length)
    (hdropped : shared.droppedSamples = s.shared.droppedSamples)
    (hchannels : shared.channels = s.shared.channels)
    (hrate : shared.sampleRate = s.shared.sampleRate) (hlive : shared.Live → s.shared.Live) :
    ({ s with shared, decoded } : Streaming α).Reading := by
  have hframes : shared.WholeFrames := by
    unfold StreamingPcmState.WholeFrames
    rw [hchannels, hdropped]
    exact h.frames
  refine ⟨?_, ?_, hframes, fun source hsource => ?_⟩
  · dsimp only
    rw [hdropped]
    exact hwindow
  · dsimp only
    rw [hchannels, hrate]
    exact h.spec
  · have hreads := h.source source hsource
    refine hreads.of_shared rfl rfl hdecoded hchannels hlive hframes hdropped.ge ?_
    dsimp only
    rw [hdropped]
    exact hreads.follows.le_index

/-- The format is noted once. -/
theorem Reading.setSpec {s : Streaming α} (h : s.Reading) {channels sampleRate : ℕ+}
    {shared : StreamingPcmState α} (hset : s.shared.setSpec channels sampleRate = .ok shared) :
    ({ s with shared } : Streaming α).Reading := by
  unfold StreamingPcmState.setSpec at hset
  have hspec := h.spec
  have hframes := h.frames
  unfold StreamingPcmState.WholeFrames at hframes
  cases hchannels : s.shared.channels with
  | none =>
    rw [hchannels] at hset hframes
    cases hset
    refine ⟨h.window, rfl, ?_, fun source hsource => ?_⟩
    · unfold StreamingPcmState.WholeFrames
      dsimp only at hframes ⊢
      rw [hframes]
      exact Nat.dvd_zero _
    · have hsome := (h.source source hsource).follows.channels
      rw [hchannels] at hsome
      cases hsome
  | some existingChannels =>
    cases hrate : s.shared.sampleRate with
    | none => simp [hchannels, hrate] at hspec
    | some existingRate =>
      rw [hchannels, hrate] at hset
      dsimp only at hset
      split_ifs at hset with hchanged
      obtain ⟨rfl, rfl⟩ := not_or.1 hchanged |>.imp not_not.1 not_not.1
      cases hset
      exact h.of_shared h.window le_rfl rfl hchannels.symm hrate.symm id

/-- A trim behind the source moves the window only. -/
theorem Reading.trimBefore {s : Streaming α} (h : s.Reading) {positionMs retainBehindMs : Nat}
    (hbehind : s.TrimsBehind (.trimBefore positionMs retainBehindMs))
    (hcount : s.CountsDropped (.trimBefore positionMs retainBehindMs)) :
    ({ s with shared := s.shared.trimBefore positionMs retainBehindMs } : Streaming α).Reading := by
  obtain ⟨hchannels, hrate, hlive, hdropped, hwindow, hframes⟩ :=
    StreamingPcmState.trimBefore_window h.window h.frames hcount
  refine ⟨hwindow, ?_, hframes, fun source hsource => ?_⟩
  · dsimp only
    rw [hchannels, hrate]
    exact h.spec
  · have hreads := h.source source hsource
    refine hreads.of_shared rfl rfl le_rfl hchannels hlive.1 hframes ?_ ?_
    · dsimp only
      rw [hdropped]
      exact Nat.le_add_right _ _
    · dsimp only
      rw [hdropped]
      exact hbehind source hsource

/-- A new source stands at the start of a frame of the window. -/
theorem Reading.restart {s : Streaming α} (h : s.Reading) (positionMs : Nat)
    (sessionId trackId : String) (durationMs : Nat) :
    (s.restart positionMs sessionId trackId durationMs).Reading := by
  unfold Streaming.restart
  split
  · exact h
  · rename_i channels sampleRate hspec
    have hchannels : s.shared.channels = some channels := by
      unfold StreamingPcmState.spec at hspec
      obtain ⟨found, hfound, hrate⟩ := Option.bind_eq_some_iff.1 hspec
      obtain ⟨rate, -, hpair⟩ := Option.map_eq_some_iff.1 hrate
      cases hpair
      exact hfound
    have hframes : (channels : ℕ) ∣ s.shared.droppedSamples := by
      have hwhole := h.frames
      unfold StreamingPcmState.WholeFrames at hwhole
      rw [hchannels] at hwhole
      exact hwhole
    refine ⟨h.window, h.spec, h.frames, fun source hsource => ?_⟩
    cases hsource
    refine ⟨⟨hchannels, hframes, hframes, le_rfl, Nat.le_add_right _ _⟩, ?_, fun _ => rfl,
      fun _ => .inl rfl⟩
    exact Nat.dvd_add hframes (Nat.dvd_sub_mod _)

/-! ## One look -/

section Look

variable {s : Streaming α} {source : StreamingPcmSource}

/-- After looking at the window the source reads the stream at its absolute place. -/
theorem ReadsOn.samples_eq (hread : s.ReadsOn source) (h : s.Reading) :
    s.shared.samples[(source.syncSharedBasePosition s.shared).pos]? =
      s.decoded[(source.syncSharedBasePosition s.shared).index]? := by
  rw [h.window.getElem?_eq]
  unfold StreamingPcmSource.index
  rw [(StreamingPcmSource.syncSharedBasePosition_index hread.follows).1]

/-- At the start of a frame, and where the window has not moved, the source keeps its place. -/
theorem ReadsOn.sync_index (hread : s.ReadsOn source)
    (hstart : source.WindowMoved s.shared → source.pos % source.channels = 0) :
    (source.syncSharedBasePosition s.shared).index = source.index := by
  rw [(StreamingPcmSource.syncSharedBasePosition_index hread.follows).2]
  split_ifs with hmoved
  · rw [hstart hmoved, Nat.sub_zero]
  · rfl

/-- A sample that a look at a live buffer finds is that of the stream. -/
theorem ReadsOn.decoded_of_ready (hread : s.ReadsOn source) (h : s.Reading) (hlive : s.shared.Live)
    {sample : α}
    (hready : s.shared.sample (source.syncSharedBasePosition s.shared).pos = .ready sample) :
    s.decoded[(source.syncSharedBasePosition s.shared).index]? = some sample := by
  rw [StreamingPcmState.sample_of_live hlive, hread.samples_eq h] at hready
  split at hready
  · rename_i found hfound
    cases hready
    exact hfound
  · split_ifs at hready

/-- Inside a frame the source goes back, to a sample that it has returned before. -/
theorem ReadsOn.ready_of_inside (hread : s.ReadsOn source) (h : s.Reading)
    (hlive : s.shared.Live) (hmoved : source.WindowMoved s.shared)
    (hinside : source.pos % source.channels ≠ 0) :
    ∃ sample, s.shared.sample (source.syncSharedBasePosition s.shared).pos = .ready sample ∧
      (source.syncSharedBasePosition s.shared).index < source.index := by
  have hindex := hread.index hlive
  have hmod := Nat.mod_le source.pos source.channels
  have hback : (source.syncSharedBasePosition s.shared).index < source.index := by
    rw [(StreamingPcmSource.syncSharedBasePosition_index hread.follows).2, if_pos hmoved]
    unfold StreamingPcmSource.index at hindex ⊢
    omega
  -- the source began at the start of a frame, so it has returned something
  have hreturned : s.returned ≠ 0 := by
    intro hnone
    rw [hnone, Nat.add_zero] at hindex
    have hfirst := hread.first
    rw [← hindex] at hfirst
    exact hinside (Nat.mod_eq_zero_of_dvd ((Nat.dvd_add_right hread.follows.frames).1 hfirst))
  have hpushed : source.index ≤ s.decoded.length := (hread.read hlive).resolve_left hreturned
  obtain ⟨sample, hsample⟩ :=
    (⟨_, List.getElem?_eq_getElem (hback.trans_le hpushed)⟩ : ∃ sample, _ = some sample)
  rw [← hread.samples_eq h] at hsample
  refine ⟨sample, ?_, hback⟩
  rw [StreamingPcmState.sample_of_live hlive, hsample]

/-- A source that has seen where the window begins reads on from a place behind the samples that it
has returned. -/
theorem ReadsOn.moved_on (hread : s.ReadsOn source) (h : s.Reading) {source' : StreamingPcmSource}
    {returned : Nat} (hchannels : source'.channels = source.channels)
    (hdropped : source'.droppedSamples = s.shared.droppedSamples)
    (hindex : s.shared.Live → source'.index = s.first + returned)
    (hpushed : s.shared.Live → returned = 0 ∨ source'.index ≤ s.decoded.length) :
    ({ s with source := some source', returned } : Streaming α).Reading := by
  obtain ⟨hformat, hframes, -⟩ := hread.follows
  refine ⟨h.window, h.spec, h.frames, fun found hfound => ?_⟩
  cases hfound
  refine ⟨⟨?_, ?_, ?_, hdropped.le, ?_⟩, ?_, hindex, hpushed⟩
  · rw [hchannels]
    exact hformat
  · rw [hchannels]
    exact hframes
  · rw [hchannels, hdropped]
    exact hframes
  · unfold StreamingPcmSource.index
    rw [hdropped]
    exact Nat.le_add_right _ _
  · rw [hchannels]
    exact hread.first

variable [MulOneClass α]

/-- A look yields the next sample exactly if it does not find the window moved inside a frame. -/
theorem Reading.yieldsNext_iff (h : s.Reading) (a : StreamingAction α) :
    s.YieldsNext a ↔ s.FrameStart a := by
  cases a with
  | next now =>
    refine ⟨fun hnext source hsource hlive hmoved => ?_,
      fun hstart source hsource sample hreturned => ?_⟩
    · have hread := h.source source hsource
      by_contra hinside
      obtain ⟨sample, hready, hback⟩ := hread.ready_of_inside h hlive hmoved hinside
      obtain ⟨houtcome, hafter⟩ := StreamingPcmSource.next_of_ready now hready
      obtain ⟨-, -, hindex⟩ := hnext source hsource sample houtcome
      rw [hafter, ← hread.index hlive] at hindex
      exact hback.ne (Nat.succ.inj hindex)
    · have hread := h.source source hsource
      by_cases hready : ∃ found,
          s.shared.sample (source.syncSharedBasePosition s.shared).pos = .ready found
      · obtain ⟨found, hfound⟩ := hready
        obtain ⟨houtcome, hafter⟩ := StreamingPcmSource.next_of_ready now hfound
        have hsame : found = sample := by
          rw [houtcome] at hreturned
          exact Option.some.inj (NextOutcome.returned.inj hreturned)
        have hlive : s.shared.Live := by
          by_contra hdead
          exact StreamingPcmState.sample_of_not_live hdead _ _ hfound
        have hplace := hread.sync_index (hstart source hsource hlive)
        have hdecoded := hread.decoded_of_ready h hlive hfound
        rw [hplace, hread.index hlive, hsame] at hdecoded
        refine ⟨hdecoded, ?_, ?_⟩
        · obtain ⟨k, hk⟩ := hread.first
          rw [hk, Nat.mul_add_mod]
        · rw [hafter, ← hread.index hlive, ← hplace]
          rfl
      · have hnone := (StreamingPcmSource.next_of_not_ready now (not_exists.1 hready)).1
        exact absurd hreturned (hnone sample)
  | _ => exact Iff.rfl

/-- A look that does not find the window moved inside a frame lets the source read on. -/
theorem Reading.next (h : s.Reading) {now : Instant}
    (hstart : s.FrameStart (.next now)) : (s.next now).Reading := by
  unfold Streaming.next
  cases hsource : s.source with
  | none => exact h
  | some source =>
    have hread := h.source source hsource
    have hdropped := (StreamingPcmSource.syncSharedBasePosition_index hread.follows).1
    have hplace : s.shared.Live →
        (source.syncSharedBasePosition s.shared).index = source.index :=
      fun hlive => hread.sync_index (hstart source hsource hlive)
    by_cases hready : ∃ found,
        s.shared.sample (source.syncSharedBasePosition s.shared).pos = .ready found
    · obtain ⟨found, hfound⟩ := hready
      obtain ⟨houtcome, hafter⟩ := StreamingPcmSource.next_of_ready now hfound
      dsimp only
      rw [houtcome, hafter]
      refine hread.moved_on h (StreamingPcmSource.syncSharedBasePosition_channels _ _) hdropped
        (fun hlive => ?_) (fun hlive => .inr ?_)
      · exact congrArg Nat.succ ((hplace hlive).trans (hread.index hlive))
      · have hdecoded := hread.decoded_of_ready h hlive hfound
        exact (List.getElem?_eq_some_iff.1 hdecoded).1
    · obtain ⟨hnone, last, hafter⟩ :=
        StreamingPcmSource.next_of_not_ready now (not_exists.1 hready)
      have hsamples : (source.next s.shared 1 now).1.samples = 0 := by
        cases houtcome : (source.next s.shared 1 now).1 with
        | again => rfl
        | returned item =>
          cases item with
          | none => rfl
          | some sample => exact absurd houtcome (hnone sample)
      dsimp only
      rw [hsamples, hafter]
      refine hread.moved_on h (StreamingPcmSource.syncSharedBasePosition_channels _ _) hdropped
        (fun hlive => ?_) (fun hlive => ?_)
      · exact (hplace hlive).trans (hread.index hlive)
      · exact (hread.read hlive).imp_right fun hle => (hplace hlive).le.trans hle

/-- Every action that meets the conditions keeps the invariant. -/
theorem Reading.step (h : s.Reading) {a : StreamingAction α} (hbehind : s.TrimsBehind a)
    (hcount : s.CountsDropped a) (hstart : s.FrameStart a) : (s.step a).Reading := by
  cases a with
  | setBasePosition positionMs =>
    unfold Streaming.step StreamingPcmState.setBasePosition
    dsimp only
    split_ifs
    · exact h.of_shared h.window le_rfl rfl rfl rfl id
    · exact h
  | setSpec channels sampleRate =>
    unfold Streaming.step
    dsimp only
    split
    · rename_i shared hset
      exact h.setSpec hset
    · exact h
  | pushSamples samples =>
    refine h.of_shared (h.window.push samples) ?_ rfl rfl rfl id
    rw [List.length_append]
    exact Nat.le_add_right _ _
  | trimBefore positionMs retainBehindMs => exact h.trimBefore hbehind hcount
  | markComplete => exact h.of_shared h.window le_rfl rfl rfl rfl id
  | fail error => exact h.of_shared h.window le_rfl rfl rfl rfl nofun
  | cancel => exact h.of_shared h.window le_rfl rfl rfl rfl nofun
  | restart positionMs sessionId trackId durationMs =>
    exact h.restart positionMs sessionId trackId durationMs
  | next now => exact h.next hstart

end Look

/-! ## Runs -/

/-- In every run whose trims stay behind the source and do not overflow the count of dropped
samples, the source yields the stream without gap or repetition and on the right channels exactly
if it always finds the window moved at the start of a frame. -/
theorem yieldsNext_iff_frameStart [MulOneClass α] (actions : List (StreamingAction α))
    (hbehind : Along step TrimsBehind new actions)
    (hcount : Along step CountsDropped new actions) :
    Along step YieldsNext (new : Streaming α) actions ↔ Along step FrameStart new actions :=
  (hbehind.and hcount).iff_of_step (I := Reading) .new (fun _ a h _ => h.yieldsNext_iff a)
    fun _ _ h hC hstart => h.step hC.1 hC.2 hstart

/-- With one channel every sample is a frame. -/
theorem frameStart_of_one_channel {s : Streaming α}
    (h : ∀ source ∈ s.source, source.channels = 1) (a : StreamingAction α) : s.FrameStart a := by
  cases a with
  | next now =>
    intro source hsource _ _
    rw [h source hsource]
    exact Nat.mod_one _
  | _ => trivial

/-- Two channels with three frames, of which a source reads some samples from the front before the
first frame is dropped, and one more after that. -/
def readAcrossTrim (samples : ℕ) : List (StreamingAction ℕ) :=
  [.setSpec 2 ⟨1, Nat.one_pos⟩, .pushSamples [0, 1, 2, 3, 4, 5],
    .restart 0 "session" "track" 3000] ++ List.replicate samples (.next 0) ++
      [.trimBefore 1000 0, .next 0]

/-- The first frame lies behind a source that has read two or more samples. -/
theorem readAcrossTrim_trimsBehind {samples : ℕ} (h : samples = 3 ∨ samples = 4) :
    Along step TrimsBehind new (readAcrossTrim samples) := by
  have hbehind : ∀ s : Streaming ℕ, ∀ source, s.source = some source →
      s.shared.droppedSamples + s.shared.trimmed 1000 0 ≤ source.index →
        s.TrimsBehind (.trimBefore 1000 0) := by
    intro s source hsource hle other hother
    rw [hsource] at hother
    exact Option.some.inj hother ▸ hle
  rcases h with rfl | rfl
  · exact ⟨trivial, trivial, trivial, trivial, trivial, trivial, hbehind _ _ rfl (by decide),
      trivial, trivial⟩
  · exact ⟨trivial, trivial, trivial, trivial, trivial, trivial, trivial,
      hbehind _ _ rfl (by decide), trivial, trivial⟩

theorem readAcrossTrim_countsDropped {samples : ℕ} (h : samples = 3 ∨ samples = 4) :
    Along step CountsDropped new (readAcrossTrim samples) := by
  rcases h with rfl | rfl
  · exact ⟨trivial, trivial, trivial, trivial, trivial, trivial,
      by unfold CountsDropped; decide, trivial, trivial⟩
  · exact ⟨trivial, trivial, trivial, trivial, trivial, trivial, trivial,
      by unfold CountsDropped; decide, trivial, trivial⟩

/-- After one frame and the left sample of the next have been read, the next look goes back to the
left sample: the sample `2` is returned a second time where `3` is due. -/
theorem not_yieldsNext_halfFrame :
    Along step TrimsBehind new (readAcrossTrim 3) ∧
      Along step CountsDropped new (readAcrossTrim 3) ∧
      ¬ Along step YieldsNext new (readAcrossTrim 3) := by
  refine ⟨readAcrossTrim_trimsBehind (.inl rfl), readAcrossTrim_countsDropped (.inl rfl),
    fun hyields => ?_⟩
  obtain ⟨-, -, -, -, -, -, -, hlast, -⟩ := hyields
  obtain ⟨hsample, -⟩ := hlast _ rfl 2 rfl
  cases hsample

/-- After two frames have been read, the source finds the window moved at the start of a frame, and
the sample that it returns then, the fifth, is the one that is due. -/
theorem yieldsNext_twoFrames :
    ((readAcrossTrim 4).foldl step new).returned = 5 ∧
      Along step YieldsNext new (readAcrossTrim 4) := by
  refine ⟨by decide, (yieldsNext_iff_frameStart _ (readAcrossTrim_trimsBehind (.inr rfl))
    (readAcrossTrim_countsDropped (.inr rfl))).2 ?_⟩
  have hstart : ∀ s : Streaming ℕ, ∀ source, s.source = some source →
      source.pos % source.channels = 0 → s.FrameStart (.next 0) := by
    intro s source hsource hpos other hother _ _
    rw [hsource] at hother
    exact Option.some.inj hother ▸ hpos
  have hstill : ∀ s : Streaming ℕ, ∀ source, s.source = some source →
      ¬ source.WindowMoved s.shared → s.FrameStart (.next 0) := by
    intro s source hsource hmoved other hother _ hother'
    rw [hsource] at hother
    exact absurd (Option.some.inj hother ▸ hother') hmoved
  refine ⟨trivial, trivial, trivial, hstart _ _ rfl (by decide), ?_, hstart _ _ rfl (by decide),
    ?_, trivial, hstart _ _ rfl (by decide), trivial⟩
  · exact hstill _ _ rfl (by decide)
  · exact hstill _ _ rfl (by decide)

end Streaming

end LightEar
