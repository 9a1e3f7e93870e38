import PortalScript.Library
import PortalScript.Proofs.Text.Split
import PortalScript.Proofs.Text.Trim

/-! # Prompt files read back

No marker of a prompt file has a line break in it, so none is found across the end of a line. Hence a
section on lines of its own ends just where its closing marker was put, unless its text has that marker
(`Prompt.between?_lines`), and a file is read as the preview and the template body that it was made of
(`Prompt.read_file`). -/

namespace PortalScript.Prompt
variable {closing preview body : String} {u inner : List Char}

/-- The file of a preview and a template body, each on lines of its own between the markers. What
follows the last marker belongs to neither. -/
def file (preview body rest : String) : String :=
  beforeMarker ++ "\n" ++ preview ++ "\n" ++ instructionsMarker ++ "\n" ++ body ++ "\n" ++
    afterMarker ++ rest

theorem toList_file (preview body rest : String) : (file preview body rest).toList =
    beforeMarker.toList ++ '\n' :: (preview.toList ++ '\n' :: (instructionsMarker.toList ++
      '\n' :: (body.toList ++ '\n' :: (afterMarker.toList ++ rest.toList)))) := by
  simp [file, String.toList_append]

theorem between?_eq (opening closing : String) (text : List Char) : between? opening closing text =
    (Text.cutAt? opening.toList text).bind fun x =>
      (Text.cutAt? closing.toList x.2).map fun y => .ofList (Text.trim y.1) := by
  unfold between?
  rcases Text.cutAt? opening.toList text with - | ⟨before, rest⟩
  · rfl
  · show (Text.cutAt? closing.toList rest).bind _ = (Text.cutAt? closing.toList rest).map _
    cases Text.cutAt? closing.toList rest <;> rfl

theorem between?_append_cons {opening : String} (ho : '\n' ∉ opening.toList)
    (hu : ¬ opening.toList <:+: u) (closing : String) (v : List Char) :
    between? opening closing (u ++ '\n' :: v) = between? opening closing v := by
  rw [between?_eq, between?_eq, Text.cutAt?_append_cons ho hu, Option.bind_map]
  rfl

theorem trim_lines (inner : List Char) : Text.trim ('\n' :: (inner ++ ['\n'])) = Text.trim inner := by
  have hblank : ∀ c ∈ ['\n'], Text.isBlank c := List.forall_mem_singleton.2 (by decide)
  rw [← Text.trim_trimLeft, ← List.singleton_append, Text.trimLeft_blank_append hblank,
    Text.trim_trimLeft, Text.trim_append_blank hblank]

/-- What stands on lines of its own right behind the opening marker. -/
theorem between?_lines (hc : '\n' ∉ closing.toList) (hi : ¬ closing.toList <:+: inner)
    (opening : String) (rest : List Char) :
    between? opening closing
        (opening.toList ++ '\n' :: (inner ++ '\n' :: (closing.toList ++ rest))) =
      some (.ofList (Text.trim inner)) := by
  have hnil : ¬ closing.toList <:+: [] := fun h => hi (List.infix_nil.1 h ▸ List.nil_infix)
  have hcut : Text.cutAt? closing.toList ('\n' :: (inner ++ '\n' :: (closing.toList ++ rest))) =
      some ('\n' :: (inner ++ ['\n']), rest) := by
    rw [← List.nil_append ('\n' :: _), Text.cutAt?_append_cons hc hnil,
      Text.cutAt?_append_cons hc hi, Text.cutAt?_append_self]
    rfl
  rw [between?_eq, Text.cutAt?_append_self, Option.bind_some, hcut, Option.map_some, trim_lines]

theorem instructions?_file (hp : ¬ instructionsMarker.toList <:+: preview.toList)
    (hb : ¬ afterMarker.toList <:+: body.toList) (rest : String) :
    instructions? (file preview body rest) = some (Text.trimmed body) := by
  have hline : '\n' ∉ instructionsMarker.toList := by decide +kernel
  have hfirst : ¬ instructionsMarker.toList <:+: beforeMarker.toList := by decide +kernel
  rw [instructions?, toList_file, between?_append_cons hline hfirst, between?_append_cons hline hp,
    between?_lines (by decide +kernel) hb]
  rfl

/-- Reading a prompt file undoes writing it: a preview without the instructions marker and a template
body without the marker behind it are read back, trimmed, and importing the file stores the body. -/
theorem read_file (hp : ¬ instructionsMarker.toList <:+: preview.toList)
    (hb : ¬ afterMarker.toList <:+: body.toList) (rest : String) :
    (∀ place, parse? (file preview body rest) place =
      some ⟨idAt place, Text.trimmed preview, Text.trimmed body⟩) ∧
    ∀ l : Library, l.importText (file preview body rest) =
      { l with imported := l.imported ++ [⟨l.nextId, "", Text.trimmed body⟩] } := by
  have hbody := instructions?_file hp hb rest
  refine ⟨fun place => ?_, fun l => ?_⟩
  · have hpreview : between? beforeMarker instructionsMarker (file preview body rest).toList =
        some (Text.trimmed preview) := by
      rw [toList_file, between?_lines (by decide +kernel) hp]
      rfl
    rw [parse?, hbody, hpreview]
    rfl
  · rw [Library.importText, Library.entryOf, hbody]
    rfl

/-- A template body may have the markers that stand before it, and parts of the one behind it. -/
theorem read_file_markers :
    let preview := "~~####SYSTEM_INSTRUCTIONS####~"
    let body := instructionsMarker ++ beforeMarker ++ "~~####PROMPT_AFTER####~"
    ¬ instructionsMarker.toList <:+: preview.toList ∧ ¬ afterMarker.toList <:+: body.toList ∧
      parse? (file preview body afterMarker) 0 = some ⟨"SI-001", preview, body⟩ := by
  intro preview body
  have hp : ¬ instructionsMarker.toList <:+: preview.toList := by decide +kernel
  have hb : ¬ afterMarker.toList <:+: body.toList := by decide +kernel
  refine ⟨hp, hb, ((read_file hp hb afterMarker).1 0).trans ?_⟩
  decide +kernel

end PortalScript.Prompt
