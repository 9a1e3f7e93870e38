import PortalScript.Proofs.Mount.Grammar

/-! # Stripping twice

The lines that are left when the directives are gone are trimmed as one text. This takes the blanks in
front of the first of them that is not blank, and nothing else that tells directives from text: so
stripping again finds a directive just if this line was an indented one (`extract_extract`). -/

namespace PortalScript.Mount

/-- The directives of a text, line by line. -/
def directives (text : List Char) : List Mount := (Text.splitOn '\n' text).filterMap readLine?

/-- The directive that trimming moves to the start of its line. -/
def uncovered? (script : String) : Option Mount :=
  let lines := Text.splitOn '\n' script.toList
  if directives script.toList = [] then none
  else (lines.find? fun line => readLine? line = none ∧ ¬ Text.allBlank line).bind fun line =>
    readLine? (Text.trimLeft line)

variable {text s : List Char} {lines : List (List Char)}

theorem extract_eq (script : String) : extract script =
    if directives script.toList = [] then ([], script)
    else (directives script.toList, .ofList (Text.trim (Text.joinWith '\n'
      ((Text.splitOn '\n' script.toList).filter fun line => (readLine? line).isNone)))) := by
  unfold extract directives
  dsimp only
  split <;> rename_i h
  · rw [if_pos h]
  · rw [if_neg h]

theorem extract_fst (script : String) : (extract script).1 = directives script.toList := by
  rw [extract_eq]
  split <;> rename_i h
  · exact h.symm
  · rfl

theorem extract_eq_self_iff {script : String} :
    extract script = ([], script) ↔ directives script.toList = [] := by
  refine ⟨fun h => ?_, fun h => by rw [extract_eq, if_pos h]⟩
  rw [← extract_fst, h]

theorem directives_append_blank (hs : ∀ c ∈ s, Text.isBlank c) (text : List Char) :
    directives (text ++ s) = directives text := by
  obtain ⟨init, last, first, rest, ht, hr, h⟩ := Text.splitOn_append '\n' text s
  have hblank {line : List Char} (hl : line ∈ first :: rest) : ∀ c ∈ line, Text.isBlank c :=
    fun c hc => hs c (Text.joinWith_splitOn '\n' s ▸ hr ▸ Text.mem_joinWith hl hc)
  have hrest : rest.filterMap readLine? = [] :=
    List.filterMap_eq_nil_iff.2 fun line hl => readLine?_blank (hblank (List.mem_cons_of_mem _ hl))
  rw [directives, directives, h, ht, List.filterMap_append, List.filterMap_append,
    List.filterMap_cons, readLine?_append_blank (hblank List.mem_cons_self), hrest]
  rfl

theorem directives_trimRight (text : List Char) : directives (Text.trimRight text) = directives text := by
  obtain ⟨s, hs, hb⟩ := Text.exists_append_trimRight text
  conv_rhs => rw [hs]
  exact (directives_append_blank hb _).symm

theorem trimLeft_joinWith_of_allBlank {line : List Char} (h : Text.allBlank line) :
    Text.trimLeft (Text.joinWith '\n' (line :: lines)) = Text.trimLeft (Text.joinWith '\n' lines) := by
  have hs := List.all_eq_true.1 h
  cases lines with
  | nil =>
    exact List.dropWhile_eq_nil_iff.2 hs
  | cons next lines =>
    show Text.trimLeft (line ++ ('\n' :: Text.joinWith '\n' (next :: lines))) = _
    rw [Text.trimLeft_blank_append hs]
    exact List.dropWhile_cons_of_pos (by decide)

theorem trimLeft_joinWith {line : List Char} (h : ¬ Text.allBlank line) :
    Text.trimLeft (Text.joinWith '\n' (line :: lines)) =
      Text.joinWith '\n' (Text.trimLeft line :: lines) := by
  cases lines with
  | nil => rfl
  | cons next lines => exact Text.trimLeft_append h _

/-- Lines that are no directives, trimmed at the start: the first that is not blank may become one. -/
theorem directives_trimLeft (hn : ∀ line ∈ lines, '\n' ∉ line)
    (hd : ∀ line ∈ lines, readLine? line = none) :
    directives (Text.trimLeft (Text.joinWith '\n' lines)) =
      ((lines.find? fun line => !Text.allBlank line).bind fun line =>
        readLine? (Text.trimLeft line)).toList := by
  induction lines with
  | nil => rfl
  | cons line lines ih =>
    obtain ⟨hline, hlines⟩ := List.forall_mem_cons.1 hn
    obtain ⟨-, hrest⟩ := List.forall_mem_cons.1 hd
    by_cases hb : Text.allBlank line
    · rw [List.find?_cons_of_neg (by simpa using hb), ← ih hlines hrest,
        trimLeft_joinWith_of_allBlank hb]
    -- Trimming stops in the first line that is not blank, and the lines behind it are as they were.
    · rw [List.find?_cons_of_pos (by simpa using hb), trimLeft_joinWith hb, directives,
        Text.splitOn_joinWith (List.forall_mem_cons.2 ⟨?_, hlines⟩) (List.cons_ne_nil _ _),
        List.filterMap_cons, List.filterMap_eq_nil_iff.2 hrest, Option.bind_some]
      · cases readLine? (Text.trimLeft line) <;> rfl
      · exact fun h => hline ((List.dropWhile_sublist _).subset h)

/-- Stripping a text again finds the directive that trimming moved to the front, if there is one, and no
other. -/
theorem extract_extract (script : String) :
    (extract (extract script).2).1 = (uncovered? script).toList ∧
      (extract (extract script).2 = ([], (extract script).2) ↔ uncovered? script = none) := by
  have hfst : directives (extract script).2.toList = (uncovered? script).toList := by
    rw [extract_eq, uncovered?]
    split <;> rename_i h
    · exact h
    -- Only trimming at the start can turn a line that is kept into a directive.
    · rw [String.toList_ofList, Text.trim, directives_trimRight, directives_trimLeft, List.find?_filter]
      · simp only [Option.isNone_iff_eq_none, Bool.not_eq_eq_eq_not, Bool.not_true, Bool.not_eq_true]
      · exact fun line hl => Text.not_mem_of_mem_splitOn (List.mem_of_mem_filter hl)
      · exact fun line hl => Option.isNone_iff_eq_none.1 (List.mem_filter.1 hl).2
  rw [extract_fst, extract_eq_self_iff, hfst, Option.toList_eq_nil_iff]
  exact ⟨rfl, Iff.rfl⟩

end PortalScript.Mount
