import LightEar.Foundation.Text

/-!
# The names of log files

The name that a log is saved under is made out of any text: characters that are not safe are
replaced, doubled dots are joined until there are none, dots and dashes are cut off at both ends,
an empty name is replaced and the extension is put behind.

What comes out is safe, and a safe name is left as it is (`sanitizeLogFilename_safe`).
-/

namespace LightEar

open Foundation

/-- The characters that are left as they are. -/
def isLogFilenameChar (ch : Char) : Bool :=
  ch.isLower || ch.isUpper || ch.isDigit || ch == '-' || ch == '_' || ch == '.'

/-- The characters that are cut off at both ends. -/
def isLogFilenameEdge (ch : Char) : Bool := ch == '-' || ch == '.' || ch == '_'

/-- The extension. -/
def jsonlExtension : List Char := ['.', 'j', 's', 'o', 'n', 'l']

/-- The name of a log file. -/
def sanitizeLogFilename (value : String) : String :=
  let filename := value.toList.map fun ch => if isLogFilenameChar ch then ch else '-'
  let filename := Text.squeeze '.' filename
  let filename := Text.trimMatches isLogFilenameEdge filename
  let filename := if filename.isEmpty then "light-ear-log.jsonl".toList else filename
  let filename := if jsonlExtension <:+ filename then filename else filename ++ jsonlExtension
  String.ofList filename

/-- A name that is safe to save a log under. -/
structure IsSafeLogFilename (name : List Char) : Prop where
  /-- It is made of letters, digits, dots, underscores and dashes. -/
  chars : ∀ ch ∈ name, isLogFilenameChar ch = true
  /-- It has no doubled dots. -/
  dots : ¬ ['.', '.'] <:+: name
  /-- It does not begin with a dot, an underscore or a dash. -/
  start : ∀ ch ∈ name.head?, isLogFilenameEdge ch = false
  /-- It has the extension, and something before it. -/
  extension : ∃ stem, stem ≠ [] ∧ name = stem ++ jsonlExtension

/-- What is left after the ends are cut off: a name without its extension, perhaps. -/
structure IsSafeLogStem (stem : List Char) : Prop where
  /-- It is made of letters, digits, dots, underscores and dashes. -/
  chars : ∀ ch ∈ stem, isLogFilenameChar ch = true
  /-- It has no doubled dots. -/
  dots : ¬ ['.', '.'] <:+: stem
  /-- Nothing is to be cut off. -/
  ends : Text.CleanEnds isLogFilenameEdge stem

/-- Once the ends are cut off, the characters are safe and there are no doubled dots. -/
theorem isSafeLogStem_trimMatches (value : List Char) :
    IsSafeLogStem (Text.trimMatches isLogFilenameEdge (Text.squeeze '.'
      (value.map fun ch => if isLogFilenameChar ch then ch else '-'))) where
  chars := by
    intro ch hch
    have hmapped := Text.squeeze_subset _ _ ((Text.trimMatches_infix _ _).subset hch)
    obtain ⟨original, -, rfl⟩ := List.mem_map.1 hmapped
    split_ifs with hsafe
    · exact hsafe
    · rfl
  dots := fun hdots =>
    Text.not_infix_squeeze _ _ (hdots.trans (Text.trimMatches_infix _ _))
  ends := Text.cleanEnds_trimMatches _ _

/-- The name that stands for an empty one is as safe. -/
theorem isSafeLogStem_default : IsSafeLogStem "light-ear-log.jsonl".toList where
  chars := List.all_eq_true.1 (by decide)
  dots := by decide
  ends := by
    refine ⟨fun ch hch => ?_, fun ch hch => ?_⟩
    · obtain rfl : 'l' = ch := Option.some.inj hch
      rfl
    · obtain rfl : 'l' = ch := Option.some.inj hch
      rfl

/-- With the extension put behind where it is missing, it is a safe name. -/
theorem IsSafeLogStem.isSafeLogFilename {stem : List Char} (h : IsSafeLogStem stem)
    (hne : stem ≠ []) :
    IsSafeLogFilename (if jsonlExtension <:+ stem then stem else stem ++ jsonlExtension) := by
  split_ifs with hextension
  · refine ⟨h.chars, h.dots, h.ends.first, ?_⟩
    obtain ⟨front, hfront⟩ := hextension
    refine ⟨front, ?_, hfront.symm⟩
    -- the extension alone begins with a dot
    rintro rfl
    have hdot := h.ends.first '.' (by rw [← hfront]; rfl)
    cases hdot
  · refine ⟨?_, ?_, ?_, stem, hne, rfl⟩
    · intro ch hch
      rcases List.mem_append.1 hch with hstem | hextension
      · exact h.chars ch hstem
      · have hall : jsonlExtension.all isLogFilenameChar = true := by decide
        exact List.all_eq_true.1 hall ch hextension
    · refine Text.not_infix_append h.dots (by decide) fun ch hch heq => ?_
      have hclean := h.ends.last ch hch
      rw [heq] at hclean
      cases hclean
    · rw [List.head?_append_of_ne_nil _ hne]
      exact h.ends.first

/-- A safe name is left as it is. -/
theorem IsSafeLogFilename.sanitizeLogFilename_eq {name : String}
    (h : IsSafeLogFilename name.toList) : sanitizeLogFilename name = name := by
  have hmap : (name.toList.map fun ch => if isLogFilenameChar ch then ch else '-') =
      name.toList := by
    refine (List.map_congr_left fun ch hch => ?_).trans (List.map_id _)
    rw [if_pos (h.chars ch hch)]
    rfl
  obtain ⟨stem, hne, hname⟩ := h.extension
  have hends : Text.CleanEnds isLogFilenameEdge name.toList := by
    refine ⟨h.start, fun ch hch => ?_⟩
    rw [hname, List.getLast?_append] at hch
    obtain rfl : 'l' = ch := Option.some.inj hch
    rfl
  have hnonempty : ¬ name.toList.isEmpty = true := by
    rw [hname]
    simp [hne]
  have hextension : jsonlExtension <:+ name.toList := ⟨stem, hname.symm⟩
  unfold sanitizeLogFilename
  dsimp only
  rw [hmap, Text.squeeze_eq h.dots, hends.trimMatches_eq, if_neg hnonempty, if_pos hextension]
  exact String.ofList_toList

/-- The name of a log file is safe, whatever it is made of, and is left as it is. -/
theorem sanitizeLogFilename_safe (value : String) :
    IsSafeLogFilename (sanitizeLogFilename value).toList ∧
      sanitizeLogFilename (sanitizeLogFilename value) = sanitizeLogFilename value := by
  have hsafe : IsSafeLogFilename (sanitizeLogFilename value).toList := by
    unfold sanitizeLogFilename
    dsimp only
    rw [String.toList_ofList]
    by_cases hempty : (Text.trimMatches isLogFilenameEdge (Text.squeeze '.'
        (value.toList.map fun ch => if isLogFilenameChar ch then ch else '-'))).isEmpty = true
    · rw [if_pos hempty]
      exact isSafeLogStem_default.isSafeLogFilename (by decide)
    · rw [if_neg hempty]
      refine (isSafeLogStem_trimMatches _).isSafeLogFilename fun hnil => hempty ?_
      rw [hnil]
      rfl
  exact ⟨hsafe, hsafe.sanitizeLogFilename_eq⟩

end LightEar
