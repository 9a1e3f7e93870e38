import PortalScript.Text.Split

/-! # Portal markers

Portals stand between `~{{~` and `~}}~`. `Marker.cut?` divides a text around its first marker; reading
on behind it finds the next one, so markers never share characters. -/

namespace PortalScript

inductive Marker
  | opening
  | closing
deriving Repr, DecidableEq

namespace Marker

def spelling : Marker → List Char
  | opening => ['~', '{', '{', '~']
  | closing => ['~', '}', '}', '~']

/-- The marker at the start of a text and what follows it. -/
def at? (cs : List Char) : Option (Marker × List Char) :=
  match Text.after? opening.spelling cs with
  | some rest => some (opening, rest)
  | none => (Text.after? closing.spelling cs).map (closing, ·)

/-- The first marker of a text, between what stands before it and what follows it. -/
def cut? : List Char → Option (List Char × Marker × List Char)
  | [] => none
  | c :: cs =>
    match at? (c :: cs) with
    | some (m, rest) => some ([], m, rest)
    | none => (cut? cs).map fun (before, m, rest) => (c :: before, m, rest)

theorem eq_append_of_at? {cs rest : List Char} {m : Marker} (h : at? cs = some (m, rest)) :
    cs = m.spelling ++ rest := by
  unfold at? at h
  split at h
  · rename_i r hr
    cases h
    exact Text.after?_eq_some_iff.1 hr
  · obtain ⟨r, hr, he⟩ := Option.map_eq_some_iff.1 h
    cases he
    exact Text.after?_eq_some_iff.1 hr

theorem eq_append_of_cut? {cs before rest : List Char} {m : Marker}
    (h : cut? cs = some (before, m, rest)) : cs = before ++ m.spelling ++ rest := by
  induction cs generalizing before rest with
  | nil => simp [cut?] at h
  | cons c cs ih =>
    simp only [cut?] at h
    split at h
    · rename_i m' r hr
      cases h
      simpa using eq_append_of_at? hr
    · obtain ⟨⟨b, m', r⟩, hb, he⟩ := Option.map_eq_some_iff.1 h
      cases he
      simp [ih hb]

@[simp] theorem length_spelling (m : Marker) : m.spelling.length = 4 := by cases m <;> rfl

end Marker

end PortalScript
