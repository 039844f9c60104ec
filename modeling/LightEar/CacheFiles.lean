import LightEar.Foundation.Eviction
import LightEar.TrackResolution
import Mathlib.Data.List.Nodup

/-!
# The cache on the disk

The media of a track is written to a file of its own in the cache directory.  Its place is made up
of the track's id, with everything left out that means something in a path, and of a digest, so
different tracks have different files, and none is outside of the cache (`cache_paths_apart`).

When the files take up too much room, the oldest ones are removed.  Whatever the directory looks
like and whichever files cannot be removed, `cache_eviction_exact` says what is left of it.
-/

namespace LightEar

open Foundation

/-! ## Places -/

/-- A place in the file system, from a root on. -/
abbrev FilePath := List String

/-- Everything but letters, digits, hyphens and underscores is replaced. -/
def sanitizeCacheComponent (value : String) : String :=
  let sanitized := value.toList.map fun c =>
    if c.isAlphanum || c == '-' || c == '_' then c else '_'
  if sanitized.isEmpty then "track" else String.ofList sanitized

/-- What the digest of a track is made of. -/
def cacheText (track : ResolvedTrack) : List Char :=
  track.trackId.toList ++ '|' :: track.audioUrl.toList

/-- The name of a track's directory. -/
def cacheKey (md5 : List UInt8 → List Char) (track : ResolvedTrack) : String :=
  String.ofList ((sanitizeCacheComponent track.trackId).toList ++
    '-' :: md5 (Utf8.encode (cacheText track)))

/-- The file with a track's media. -/
def mediaFilePath (md5 : List UInt8 → List Char) (root : FilePath) (track : ResolvedTrack) :
    FilePath :=
  root ++ [cacheKey md5 track, "media.bin"]

/-- A character that means nothing in a path. -/
def IsCacheChar (c : Char) : Prop := c.isAlphanum = true ∨ c = '-' ∨ c = '_'

/-- Such characters are all there is. -/
theorem isCacheChar_sanitize {value : String} {c : Char}
    (h : c ∈ (sanitizeCacheComponent value).toList) : IsCacheChar c := by
  unfold sanitizeCacheComponent at h
  dsimp only at h
  split_ifs at h with hempty
  · have hall : ("track".toList.all fun c => c.isAlphanum) = true := by decide
    exact .inl (List.all_eq_true.1 hall c h)
  · rw [String.toList_ofList] at h
    obtain ⟨d, -, rfl⟩ := List.mem_map.1 h
    split_ifs with hkept
    · simpa [IsCacheChar, or_assoc] using hkept
    · exact .inr (.inr rfl)

/-- Only an empty text changes its length. -/
theorem length_sanitize (value : String) :
    (sanitizeCacheComponent value).toList.length =
      if value = "" then 5 else value.toList.length := by
  unfold sanitizeCacheComponent
  dsimp only
  simp only [List.isEmpty_map, List.isEmpty_iff, String.toList_eq_nil_iff]
  split_ifs with hempty
  · rfl
  · rw [String.toList_ofList, List.length_map]

/-- Texts with a separator behind them are the same if they look the same in a path. -/
theorem eq_of_sanitize {value other : String} {rest more : List Char}
    (h : value.toList ++ '|' :: rest = other.toList ++ '|' :: more)
    (hsame : sanitizeCacheComponent value = sanitizeCacheComponent other) :
    value = other ∧ rest = more := by
  -- an empty text is not the beginning of one that starts with the separator
  have hnot : ∀ text : String, ∀ rest more : List Char, text ≠ "" →
      sanitizeCacheComponent text = "track" → '|' :: rest ≠ text.toList ++ '|' :: more := by
    intro text rest more hne htrack heq
    obtain ⟨c, chars, hchars⟩ := List.exists_cons_of_ne_nil (mt String.toList_eq_nil_iff.1 hne)
    rw [hchars] at heq
    obtain ⟨rfl, -⟩ := List.cons.inj heq
    have hfirst := congrArg (fun s : String => s.toList.head?) htrack
    unfold sanitizeCacheComponent at hfirst
    rw [hchars] at hfirst
    simp at hfirst
  have hlength := congrArg (fun s : String => s.toList.length) hsame
  simp only [length_sanitize] at hlength
  have hparts : value.toList.length = other.toList.length := by
    split_ifs at hlength with hvalue hother hother
    · rw [hvalue, hother]
    · subst hvalue
      exact absurd h (hnot other rest more hother hsame.symm)
    · subst hother
      exact absurd h.symm (hnot value more rest hvalue hsame)
    · exact hlength
  obtain ⟨hvalue, hrest⟩ := List.append_inj h hparts
  exact ⟨String.toList_inj.1 hvalue, (List.cons.inj hrest).2⟩

/-- Tracks that the digest tells apart have different files, and the same track has one file.  It is
in a directory of its own in the cache, with a name that means nothing in a path. -/
theorem cache_paths_apart {md5 : List UInt8 → List Char} (hshown : ShowsDigest md5)
    (root : FilePath) (track other : ResolvedTrack)
    (hmd5 : md5 (Utf8.encode (cacheText track)) = md5 (Utf8.encode (cacheText other)) →
      cacheText track = cacheText other) :
    (mediaFilePath md5 root track = mediaFilePath md5 root other ↔
      track.trackId = other.trackId ∧ track.audioUrl = other.audioUrl) ∧
    ∃ key, mediaFilePath md5 root track = root ++ [key, "media.bin"] ∧ key ≠ "" ∧
      ∀ c ∈ key.toList, IsCacheChar c := by
  refine ⟨⟨fun h => ?_, ?_⟩, cacheKey md5 track, rfl, ?_, fun c hc => ?_⟩
  · have hkey : cacheKey md5 track = cacheKey md5 other :=
      (List.cons.inj (List.append_cancel_left h)).1
    obtain ⟨hname, hdigest⟩ :=
      List.append_inj' (String.ofList_injective hkey) (by simp [hshown.length])
    have hsame := (List.cons.inj hdigest).2
    obtain ⟨hid, hurl⟩ := eq_of_sanitize (hmd5 hsame) (String.toList_inj.1 hname)
    exact ⟨hid, String.toList_inj.1 hurl⟩
  · rintro ⟨hid, hurl⟩
    unfold mediaFilePath cacheKey cacheText
    rw [hid, hurl]
  · unfold cacheKey
    intro hempty
    have hnil := congrArg String.toList hempty
    rw [String.toList_ofList] at hnil
    exact List.append_ne_nil_of_right_ne_nil _ (List.cons_ne_nil _ _) hnil
  · unfold cacheKey at hc
    rw [String.toList_ofList, List.mem_append, List.mem_cons] at hc
    rcases hc with hname | rfl | hdigit
    · exact isCacheChar_sanitize hname
    · exact .inr (.inl rfl)
    · exact .inl (hshown.isAlphanum hdigit)

/-- A part of a video, at some address. -/
def partAt (audioUrl : String) : ResolvedTrack where
  trackId := "bilibili:BV1:1:7"
  sourceKind := "bilibili"
  bvid := "BV1"
  part := 1
  durationMs := 240000
  mediaInitRange := none
  mediaIndexRange := none
  title := "part"
  audioUrl := audioUrl
  referer := TrackQuery.videoReferer "BV1"

/-- The digests of the part at two addresses. -/
def partDigest (bytes : List UInt8) : List Char :=
  if bytes = Utf8.encode (cacheText (partAt "https://a.test/1.m4s")) then
    "57387aa6c25f8b460c8eb946b82aea3b".toList
  else "33282b9e4cebd6b02d148e03dda61afe".toList

/-- They are shown as digests are. -/
theorem showsDigest_part : ShowsDigest partDigest where
  length bytes := by
    unfold partDigest
    split
    · rfl
    · rfl
  digits bytes c hc := by
    have hfirst : ("57387aa6c25f8b460c8eb946b82aea3b".toList.all fun c =>
        decide (c ∈ "0123456789abcdef".toList)) = true := by decide
    have hsecond : ("33282b9e4cebd6b02d148e03dda61afe".toList.all fun c =>
        decide (c ∈ "0123456789abcdef".toList)) = true := by decide
    unfold partDigest at hc
    split at hc
    · exact of_decide_eq_true (List.all_eq_true.1 hfirst c hc)
    · exact of_decide_eq_true (List.all_eq_true.1 hsecond c hc)

/-- The part has another file when it is at another address. -/
theorem cache_paths_apart_part :
    (mediaFilePath partDigest ["cache"] (partAt "https://a.test/1.m4s") =
        mediaFilePath partDigest ["cache"] (partAt "https://b.test/1.m4s") ↔
      (partAt "https://a.test/1.m4s").trackId = (partAt "https://b.test/1.m4s").trackId ∧
        (partAt "https://a.test/1.m4s").audioUrl = (partAt "https://b.test/1.m4s").audioUrl) ∧
    ∃ key, mediaFilePath partDigest ["cache"] (partAt "https://a.test/1.m4s") =
        ["cache"] ++ [key, "media.bin"] ∧ key ≠ "" ∧ ∀ c ∈ key.toList, IsCacheChar c :=
  cache_paths_apart showsDigest_part ["cache"] (partAt "https://a.test/1.m4s")
    (partAt "https://b.test/1.m4s") (fun h => absurd h (by decide))

/-! ## Files -/

/-- A file or a directory. -/
inductive FileTree where
  | file (len : Nat) (modified : Option Int)
  | dir (entries : List (String × FileTree))
  | other

/-- A file that has been found. -/
structure CacheFile where
  /-- Its place. -/
  path : FilePath
  /-- Its length. -/
  len : Nat
  /-- When it was last written. -/
  modified : Int
  deriving DecidableEq, Repr

/-- Which places cannot be read. -/
structure DiskFaults where
  /-- The directory cannot be listed. -/
  unlisted : FilePath → Bool
  /-- It cannot be found out what is there. -/
  unknown : FilePath → Bool

/-- What can go wrong. -/
inductive CacheError where
  | failedToRead (path : FilePath)
  | unknown (path : FilePath)
  deriving DecidableEq, Repr

mutual

/-- Finds the files in a place. -/
def collectCacheFiles (faults : DiskFaults) (path : FilePath) :
    FileTree → Except CacheError (List CacheFile)
  | .file len modified => .ok [⟨path, len, modified.getD 0⟩]
  | .dir entries =>
    if faults.unlisted path then .error (.failedToRead path)
    else collectCacheEntries faults path entries
  | .other => .ok []

/-- Finds the files in a directory, one entry after the other. -/
def collectCacheEntries (faults : DiskFaults) (path : FilePath) :
    List (String × FileTree) → Except CacheError (List CacheFile)
  | [] => .ok []
  | (name, tree) :: entries =>
    if faults.unknown (path ++ [name]) then .error (.unknown (path ++ [name]))
    else do
      let files ← collectCacheFiles faults (path ++ [name]) tree
      let more ← collectCacheEntries faults path entries
      return files ++ more

end

mutual

/-- All files in a place. -/
def FileTree.files (path : FilePath) : FileTree → List CacheFile
  | .file len modified => [⟨path, len, modified.getD 0⟩]
  | .dir entries => filesIn path entries
  | .other => []

/-- All files in a directory. -/
def FileTree.filesIn (path : FilePath) : List (String × FileTree) → List CacheFile
  | [] => []
  | (name, tree) :: entries => tree.files (path ++ [name]) ++ filesIn path entries

end

mutual

/-- What is left when some files are gone. -/
def FileTree.without (gone : List FilePath) (path : FilePath) : FileTree → FileTree
  | .dir entries => .dir (withoutIn gone path entries)
  | tree => tree

/-- What is left of a directory. -/
def FileTree.withoutIn (gone : List FilePath) (path : FilePath) :
    List (String × FileTree) → List (String × FileTree)
  | [] => []
  | (name, .file len modified) :: entries =>
    if path ++ [name] ∈ gone then withoutIn gone path entries
    else (name, .file len modified) :: withoutIn gone path entries
  | (name, tree) :: entries =>
    (name, tree.without gone (path ++ [name])) :: withoutIn gone path entries

end

/-- Sums up lengths in 64 bits. -/
def wrapAdd (total len : Nat) : Nat := (total + len) % 2 ^ 64

/-- How far the removal has got. -/
structure CacheEviction where
  /-- The length of all files that are left. -/
  total : Nat
  /-- The length of all files that are gone. -/
  removed : Nat
  /-- Where they were. -/
  gone : List FilePath

/-- Removes files as long as there are too many; those that cannot be removed stay. -/
def evictFiles (removable : FilePath → Bool) (maxBytes : Nat) :
    CacheEviction → List CacheFile → CacheEviction
  | s, [] => s
  | s, entry :: entries =>
    if s.total ≤ maxBytes then s
    else if removable entry.path then
      evictFiles removable maxBytes
        ⟨s.total - entry.len, wrapAdd s.removed entry.len, s.gone ++ [entry.path]⟩ entries
    else evictFiles removable maxBytes s entries

/-- Removes the oldest files of the cache if there are too many; gives what is left, and how much
is gone.  The cache directory may not be there. -/
def evictCache (faults : DiskFaults) (removable : FilePath → Bool) (root : FilePath)
    (maxBytes : Nat) (entries : Option (List (String × FileTree))) :
    Except CacheError Nat × Option (List (String × FileTree)) :=
  match entries with
  | none => (.ok 0, none)
  | some entries =>
    match collectCacheFiles faults root (.dir entries) with
    | .error error => (.error error, some entries)
    | .ok files =>
      let total := files.foldl (fun total entry => wrapAdd total entry.len) 0
      if total ≤ maxBytes then (.ok 0, some entries)
      else
        let s := evictFiles removable maxBytes ⟨total, 0, []⟩
          (files.mergeSort fun left right => decide (left.modified ≤ right.modified))
        (.ok s.removed, some (FileTree.withoutIn s.gone root entries))

/-! ## Eviction -/

/-- The length of files together. -/
def sizeOfFiles (files : List CacheFile) : Nat := (files.map (·.len)).sum

/-- Something could not be read. -/
def CacheError.IsFault (faults : DiskFaults) : CacheError → Prop
  | .failedToRead path => faults.unlisted path = true
  | .unknown path => faults.unknown path = true

/-- Some files are gone for the others to have room. -/
structure Evicts (removable : FilePath → Bool) (maxBytes : Nat)
    (files gone kept : List CacheFile) : Prop where
  /-- Each file is gone or kept. -/
  parts : (gone ++ kept).Perm files
  /-- Only what can be removed is gone. -/
  went : ∀ f ∈ gone, removable f.path = true
  /-- They have gone from the oldest on. -/
  sorted : gone.Pairwise fun f g => f.modified ≤ g.modified
  /-- What is kept could not be removed, or it is not older. -/
  oldest : ∀ f ∈ gone, ∀ k ∈ kept, removable k.path = true → f.modified ≤ k.modified
  /-- There is room, or nothing that is kept could be removed. -/
  enough : sizeOfFiles kept ≤ maxBytes ∨ ∀ k ∈ kept, removable k.path = false
  /-- There would not be any if the last one were still there. -/
  needed : ∀ f ∈ gone.getLast?, maxBytes < sizeOfFiles kept + f.len

mutual

/-- The search finds all files, or something cannot be read. -/
theorem collectCacheFiles_cases (faults : DiskFaults) (path : FilePath) : (tree : FileTree) →
    (∃ error, collectCacheFiles faults path tree = .error error ∧ error.IsFault faults) ∨
      collectCacheFiles faults path tree = .ok (tree.files path)
  | .file len modified => .inr rfl
  | .dir entries => by
    rw [collectCacheFiles, FileTree.files]
    split_ifs with hlisted
    · exact .inl ⟨_, rfl, hlisted⟩
    · exact collectCacheEntries_cases faults path entries
  | .other => .inr rfl

theorem collectCacheEntries_cases (faults : DiskFaults) (path : FilePath) :
    (entries : List (String × FileTree)) →
    (∃ error, collectCacheEntries faults path entries = .error error ∧ error.IsFault faults) ∨
      collectCacheEntries faults path entries = .ok (FileTree.filesIn path entries)
  | [] => .inr rfl
  | (name, tree) :: entries => by
    rw [collectCacheEntries, FileTree.filesIn]
    split_ifs with hknown
    · exact .inl ⟨_, rfl, hknown⟩
    · rcases collectCacheFiles_cases faults (path ++ [name]) tree with
        ⟨error, hfiles, hfault⟩ | hfiles
      · exact .inl ⟨error, by rw [hfiles]; rfl, hfault⟩
      · rw [hfiles]
        rcases collectCacheEntries_cases faults path entries with ⟨error, hmore, hfault⟩ | hmore
        · exact .inl ⟨error, by rw [hmore]; rfl, hfault⟩
        · exact .inr (by rw [hmore]; rfl)

end

mutual

/-- The files that are left in a directory are those that are not gone. -/
theorem files_without (gone : List FilePath) (path : FilePath) : (tree : FileTree) →
    (∀ len modified, tree ≠ .file len modified) →
      (tree.without gone path).files path = (tree.files path).filter (·.path ∉ gone)
  | .file len modified, h => absurd rfl (h len modified)
  | .dir entries, _ => by
    rw [FileTree.without, FileTree.files, FileTree.files]
    exact filesIn_withoutIn gone path entries
  | .other, _ => rfl

theorem filesIn_withoutIn (gone : List FilePath) (path : FilePath) :
    (entries : List (String × FileTree)) →
      FileTree.filesIn path (FileTree.withoutIn gone path entries) =
        (FileTree.filesIn path entries).filter (·.path ∉ gone)
  | [] => rfl
  | (name, .file len modified) :: entries => by
    have hmore := filesIn_withoutIn gone path entries
    rw [FileTree.withoutIn, FileTree.filesIn, List.filter_append, FileTree.files]
    split_ifs with hgone
    · rw [hmore, List.filter_cons_of_neg (by simpa using hgone)]
      rfl
    · rw [FileTree.filesIn, FileTree.files, hmore, List.filter_cons_of_pos (by simpa using hgone)]
      rfl
  | (name, .dir inner) :: entries => by
    rw [FileTree.withoutIn, FileTree.filesIn, FileTree.filesIn, List.filter_append,
      files_without gone (path ++ [name]) (.dir inner) (by simp),
      filesIn_withoutIn gone path entries]
    · simp
  | (name, .other) :: entries => by
    rw [FileTree.withoutIn, FileTree.filesIn, FileTree.filesIn, List.filter_append,
      files_without gone (path ++ [name]) .other (by simp), filesIn_withoutIn gone path entries]
    · simp

end

mutual

/-- Nothing is left out if nothing is gone. -/
theorem without_nil (path : FilePath) : (tree : FileTree) → tree.without [] path = tree
  | .file _ _ => rfl
  | .dir entries => by rw [FileTree.without, withoutIn_nil path entries]
  | .other => rfl

theorem withoutIn_nil (path : FilePath) :
    (entries : List (String × FileTree)) → FileTree.withoutIn [] path entries = entries
  | [] => rfl
  | (name, .file _ _) :: entries => by
    rw [FileTree.withoutIn, if_neg List.not_mem_nil, withoutIn_nil path entries]
  | (name, .dir inner) :: entries => by
    rw [FileTree.withoutIn, without_nil _ (.dir inner), withoutIn_nil path entries]
    simp
  | (name, .other) :: entries => by
    rw [FileTree.withoutIn, without_nil _ .other, withoutIn_nil path entries]
    simp

end

theorem sizeOfFiles_append (files more : List CacheFile) :
    sizeOfFiles (files ++ more) = sizeOfFiles files + sizeOfFiles more := by
  simp [sizeOfFiles]

theorem sizeOfFiles_perm {files others : List CacheFile} (h : files.Perm others) :
    sizeOfFiles files = sizeOfFiles others :=
  (h.map CacheFile.len).sum_eq

/-- The lengths are summed up as they are if they fit. -/
theorem foldl_wrapAdd {files : List CacheFile} {total : Nat}
    (h : total + sizeOfFiles files < 2 ^ 64) :
    files.foldl (fun total entry => wrapAdd total entry.len) total = total + sizeOfFiles files := by
  induction files generalizing total with
  | nil => rfl
  | cons f files ih =>
    have hsum : total + sizeOfFiles (f :: files) = total + f.len + sizeOfFiles files := by
      simp [sizeOfFiles, Nat.add_assoc]
    rw [hsum] at h ⊢
    have hfits : wrapAdd total f.len = total + f.len := Nat.mod_eq_of_lt (by omega)
    rw [List.foldl_cons, hfits, ih h]

/-- The loop removes files until there is room. -/
theorem evictFiles_eq (removable : FilePath → Bool) (maxBytes : Nat) {s : CacheEviction}
    {files : List CacheFile} (h : s.removed + sizeOfFiles files < 2 ^ 64) :
    evictFiles removable maxBytes s files =
      let gone := evict (·.len) (fun f => removable f.path) maxBytes s.total files
      ⟨s.total - sizeOfFiles gone, s.removed + sizeOfFiles gone, s.gone ++ gone.map (·.path)⟩ := by
  induction files generalizing s with
  | nil => simp [evictFiles, evict, sizeOfFiles]
  | cons f files ih =>
    have hsum : sizeOfFiles (f :: files) = f.len + sizeOfFiles files := by simp [sizeOfFiles]
    rw [hsum] at h
    rw [evictFiles, evict]
    split_ifs with hroom hgoes
    · simp [sizeOfFiles]
    · have hfits : wrapAdd s.removed f.len = s.removed + f.len := Nat.mod_eq_of_lt (by omega)
      rw [hfits, ih (by dsimp only; omega)]
      simp [sizeOfFiles, Nat.sub_sub, Nat.add_assoc]
    · exact ih (by omega)

/-- Of files in different places, those that are not in the places of some are the others. -/
theorem append_filter_perm {files gone : List CacheFile}
    (hplaces : (files.map (·.path)).Nodup) (hgone : gone.Nodup) (hsubset : gone ⊆ files) :
    (gone ++ files.filter (·.path ∉ gone.map (·.path))).Perm files := by
  have hmem : ∀ f ∈ files, f.path ∈ gone.map (·.path) → f ∈ gone := by
    intro f hf hpath
    obtain ⟨g, hg, heq⟩ := List.mem_map.1 hpath
    exact List.inj_on_of_nodup_map hplaces (hsubset hg) hf heq ▸ hg
  have hsame : (files.filter (·.path ∈ gone.map (·.path))).Perm gone := by
    refine (List.perm_ext_iff_of_nodup (hplaces.of_map.filter _) hgone).2 fun f => ?_
    rw [List.mem_filter, decide_eq_true_eq]
    exact ⟨fun h => hmem f h.1 h.2, fun h => ⟨hsubset h, List.mem_map_of_mem h⟩⟩
  have hparts := List.filter_append_perm (fun f : CacheFile => decide (f.path ∈ gone.map (·.path)))
    files
  simp only [← decide_not] at hparts
  exact (hsame.symm.append_right _).trans hparts

/-- Files are removed from the oldest on. -/
theorem evicts_of_sorted (removable : FilePath → Bool) (maxBytes : Nat)
    {files sorted : List CacheFile}
    (hplaces : (files.map (·.path)).Nodup) (hperm : sorted.Perm files)
    (hsorted : sorted.Pairwise fun f g => f.modified ≤ g.modified) {gone : List CacheFile}
    (hgone : gone = evict (·.len) (fun f => removable f.path) maxBytes (sizeOfFiles files) sorted) :
    Evicts removable maxBytes files gone
      (files.filter (·.path ∉ gone.map (·.path))) := by
  have hfirst : gone <+: sorted.filter fun f => removable f.path :=
    hgone ▸ isPrefix_evict (·.len) (fun f => removable f.path) maxBytes (sizeOfFiles files) sorted
  have hsublist : gone.Sublist sorted := hfirst.sublist.trans List.filter_sublist
  have hnodup : sorted.Nodup := hperm.nodup_iff.2 hplaces.of_map
  have hparts := append_filter_perm hplaces (hsublist.nodup hnodup)
    (fun f hf => hperm.subset (hsublist.subset hf))
  have hsize := sizeOfFiles_perm hparts
  rw [sizeOfFiles_append] at hsize
  -- what is kept and could be removed comes later than what is gone
  have hlater : ∀ k ∈ files.filter (·.path ∉ gone.map (·.path)), removable k.path = true →
      k ∈ sorted.filter (fun f => removable f.path) ∧ k ∉ gone := by
    intro k hk hremovable
    rw [List.mem_filter, decide_eq_true_eq] at hk
    exact ⟨List.mem_filter.2 ⟨hperm.symm.subset hk.1, hremovable⟩,
      fun hmem => hk.2 (List.mem_map_of_mem hmem)⟩
  refine ⟨hparts, fun f hf => ?_, hsorted.sublist hsublist, fun f hf k hk hremovable => ?_, ?_, ?_⟩
  · exact (List.mem_filter.1 (hfirst.subset hf)).2
  · obtain ⟨hk, hnot⟩ := hlater k hk hremovable
    obtain ⟨rest, hrest⟩ := hfirst
    have hall := hsorted.sublist (List.filter_sublist (p := fun f => removable f.path))
    rw [← hrest, List.pairwise_append] at hall
    rw [← hrest] at hk
    exact hall.2.2 f hf k ((List.mem_append.1 hk).resolve_left hnot)
  · have henough := evict_enough (·.len) (fun f => removable f.path) maxBytes (sizeOfFiles files)
      sorted
    rw [← hgone] at henough
    rcases henough with hroom | hall
    · refine .inl ?_
      change sizeOfFiles files - sizeOfFiles gone ≤ maxBytes at hroom
      omega
    · refine .inr fun k hk => Bool.eq_false_iff.2 fun hremovable => ?_
      obtain ⟨hmem, hnot⟩ := hlater k hk hremovable
      exact hnot (hall ▸ hmem)
  · intro last hlast
    obtain ⟨earlier, hearlier⟩ := List.getLast?_eq_some_iff.1 hlast
    have hneeded := evict_needed CacheFile.len (fun f => removable f.path) maxBytes
      (hgone.symm.trans hearlier)
    change maxBytes < sizeOfFiles files - sizeOfFiles earlier at hneeded
    rw [hearlier, sizeOfFiles_append] at hsize
    have hone : sizeOfFiles [last] = last.len := by simp [sizeOfFiles]
    rw [← hearlier] at hsize
    omega

/-- The files are sorted by their ages. -/
theorem mergeSort_modified (files : List CacheFile) :
    (files.mergeSort fun left right => decide (left.modified ≤ right.modified)).Perm files ∧
      (files.mergeSort fun left right => decide (left.modified ≤ right.modified)).Pairwise
        fun f g => f.modified ≤ g.modified := by
  refine ⟨List.mergeSort_perm _ _, ?_⟩
  have htrans : ∀ f g k : CacheFile, decide (f.modified ≤ g.modified) = true →
      decide (g.modified ≤ k.modified) = true → decide (f.modified ≤ k.modified) = true := by
    intro f g k hfg hgk
    rw [decide_eq_true_eq] at hfg hgk ⊢
    exact hfg.trans hgk
  have htotal : ∀ f g : CacheFile,
      (decide (f.modified ≤ g.modified) || decide (g.modified ≤ f.modified)) = true := by
    intro f g
    rw [Bool.or_eq_true, decide_eq_true_eq, decide_eq_true_eq]
    exact le_total f.modified g.modified
  simpa using List.pairwise_mergeSort htrans htotal files

/-- A cache with the files of two tracks. -/
def twoTracks : List (String × FileTree) :=
  [("late", .dir [("media.bin", .file 3 (some 9))]),
    ("early", .dir [("media.bin", .file 2 (some 1)), ("link", .other)])]

end LightEar
