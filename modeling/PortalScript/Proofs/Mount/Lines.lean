import PortalScript.Proofs.Mount.Stripping

/-! # Directives line by line

A line is a directive just if it has the form of one, and it has that form in one way at most. So what
is extracted from lines put together is what each of them says by itself (`extract_lines`): the
directives in order, and the other lines in order. -/

namespace PortalScript.Mount
variable {line : List Char} {m m' : Mount} {lines : List String}

theorem Reads.unique (h : Reads line m) (h' : Reads line m') : m = m' := by
  rw [← readLine?_eq_some_iff] at h h'
  exact Option.some.inj (h.symm.trans h')

theorem toList_lines (lines : List String) :
    ("\n".intercalate lines).toList = Text.joinWith '\n' (lines.map String.toList) := by
  rw [String.toList_intercalate, Text.joinWith_eq]
  rfl

/-- A text of lines splits into them; the text of no lines is one empty line. -/
theorem splitOn_lines (h : ∀ line ∈ lines, '\n' ∉ line.toList) (hne : lines ≠ []) :
    Text.splitOn '\n' ("\n".intercalate lines).toList = lines.map String.toList := by
  rw [toList_lines]
  exact Text.splitOn_joinWith (List.forall_mem_map.2 h) (by simpa using hne)

theorem directives_lines (h : ∀ line ∈ lines, '\n' ∉ line.toList) :
    directives ("\n".intercalate lines).toList = lines.filterMap ofLine? := by
  by_cases hne : lines = []
  · subst hne
    rfl
  · rw [directives, splitOn_lines h hne, List.filterMap_map]
    rfl

theorem kept_lines (h : ∀ line ∈ lines, '\n' ∉ line.toList) (hne : lines ≠ []) :
    (Text.splitOn '\n' ("\n".intercalate lines).toList).filter (fun line => (readLine? line).isNone) =
      (lines.filter fun line => (ofLine? line).isNone).map String.toList := by
  rw [splitOn_lines h hne, List.filter_map]
  rfl

/-- A line is read as a directive just if it has the form of one, with one alias and one source. What is
extracted from a text of lines are the directives of those that have that form, in order, and, if there
is one, the text of the other lines, in order and trimmed. -/
theorem extract_lines :
    (∀ (line : String) m, ofLine? line = some m ↔ Reads line.toList m) ∧
    (∀ (line : String) m m', Reads line.toList m → Reads line.toList m' → m = m') ∧
    ∀ lines : List String, (∀ line ∈ lines, '\n' ∉ line.toList) →
      extract ("\n".intercalate lines) =
        if lines.filterMap ofLine? = [] then ([], "\n".intercalate lines)
        else (lines.filterMap ofLine?,
          Text.trimmed ("\n".intercalate (lines.filter fun line => (ofLine? line).isNone))) := by
  refine ⟨fun line m => readLine?_eq_some_iff, fun line m m' => Reads.unique, fun lines h => ?_⟩
  rw [extract_eq, directives_lines h]
  split <;> rename_i hd
  · rfl
  · have hne : lines ≠ [] := by
      rintro rfl
      exact hd rfl
    rw [kept_lines h hne, Text.trimmed, toList_lines]

/-- Words of the form within the quotes are text there. -/
example : extract "#>mount['#> mount[']from'from'\r\n #> mount['a'] from 'b'\n" =
    ([⟨"#> mount[", "from"⟩], "#> mount['a'] from 'b'") := by
  decide +kernel

end PortalScript.Mount
