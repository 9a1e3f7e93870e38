import PortalScript.Proofs.Fragment.Locality

/-! # Source text before a fragment

Source text before a fragment is a case of glyphs before it (`written_append_eq_prepend`), with texts
in the place of glyphs. A `Solid` fragment is resolved text that is not blank before source text. -/

namespace PortalScript

/-- A character as written in the script. -/
def Glyph.ofScript (c : Char) : Glyph := ⟨c, false, false⟩

namespace Fragment
variable {f f' : Fragment} {a b : List Char} {c d : Char} {p : Glyph → Bool}

theorem written_append (a : List Char) (f : Fragment) :
    written a ++ f = ⟨a.map Glyph.ofScript ++ f.glyphs, f.gapAtEnd⟩ := by
  show append _ _ = _
  unfold append
  split <;> rename_i h
  · simp [written, ofText, h, Glyph.ofScript]
  · simp [written, ofText, h, Glyph.ofScript]

@[simp] theorem written_nil_append (f : Fragment) : written [] ++ f = f := written_append [] f

theorem written_eq (a : List Char) : written a = ⟨a.map Glyph.ofScript, false⟩ := by
  simp [written, ofText, Glyph.ofScript]

theorem written_append_eq (a b : List Char) : written a ++ written b = written (a ++ b) := by
  rw [written_append, written_eq, written_eq, List.map_append]

theorem eat?_written_cons (c d : Char) (a : List Char) (f : Fragment) :
    (written (c :: a) ++ f).eat? d = if c = d then some (written a ++ f) else none := by
  simp [written_append, eat?, Glyph.ofScript, Glyph.isWritten]

theorem written_append_eq_prepend (a : List Char) (f : Fragment) :
    written a ++ f = prepend (a.map Glyph.ofScript) f := written_append a f

theorem passes_or_stops (p : Glyph → Bool) (a : List Char) : (∀ c ∈ a, p (.ofScript c)) ∨
    ∃ b c b', a = b ++ c :: b' ∧ (∀ d ∈ b, p (.ofScript d)) ∧ ¬ p (.ofScript c) := by
  rcases passes_or_stops_at p (a.map Glyph.ofScript) with ha | ⟨as, g, bs, h, has, hg⟩
  · exact .inl (List.forall_mem_map.1 ha)
  · obtain ⟨b, u, rfl, rfl, hu⟩ := List.map_eq_append_iff.1 h
    obtain ⟨c, b', rfl, rfl, rfl⟩ := List.map_eq_cons_iff.1 hu
    exact .inr ⟨b, c, b', rfl, List.forall_mem_map.1 has, hg⟩

theorem dropWhile_passes (h : ∀ c ∈ a, p (.ofScript c)) (f : Fragment) :
    (written a ++ f).dropWhile p = f.dropWhile p := by
  rw [written_append_eq_prepend]
  exact dropWhile_prepend (List.forall_mem_map.2 h) f

theorem dropWhile_stops (h : ∀ d ∈ a, p (.ofScript d)) (hc : ¬ p (.ofScript c)) (b : List Char)
    (f : Fragment) : (written (a ++ c :: b) ++ f).dropWhile p = written (c :: b) ++ f := by
  simp only [written_append_eq_prepend, List.map_append, List.map_cons]
  exact dropWhile_prepend_stop (List.forall_mem_map.2 h) hc _ f

theorem takeWhile_passes (h : ∀ c ∈ a, p (.ofScript c)) (f : Fragment) :
    (written a ++ f).takeWhile p = written a ++ f.takeWhile p := by
  simp only [written_append_eq_prepend]
  exact takeWhile_prepend (List.forall_mem_map.2 h) f

theorem eat?_written (c d : Char) (a : List Char) :
    (written (c :: a)).eat? d = if c = d then some (written a) else none := by
  simp [written, ofText, eat?, Glyph.isWritten]

theorem dropWhile_written (h : ∀ c ∈ a, p (.ofScript c)) (hb : ∀ c ∈ b.head?, ¬ p (.ofScript c)) :
    (written (a ++ b)).dropWhile p = written b := by
  rw [← written_append_eq, dropWhile_passes h]
  cases b with
  | nil => rfl
  | cons c b =>
    have := dropWhile_stops (a := []) (by simp) (hb c rfl) b (written [])
    rwa [List.nil_append, written_append_eq, List.append_nil] at this

theorem takeWhile_written (h : ∀ c ∈ a, p (.ofScript c)) (hb : ∀ c ∈ b.head?, ¬ p (.ofScript c)) :
    (written (a ++ b)).takeWhile p = written a := by
  have hnil : (written b).takeWhile p = written [] := by
    cases b with
    | nil => rfl
    | cons c b =>
      have hc := hb c rfl
      rw [written_eq, List.map_cons, takeWhile, dropWhile]
      dsimp only
      rw [List.takeWhile_cons_of_neg hc, List.dropWhile_cons_of_neg hc]
      rfl
  rw [← written_append_eq, takeWhile_passes h, hnil, written_append_eq, List.append_nil]

theorem forall_not_isWritten (h : c ∉ a) : ∀ d ∈ a, !(Glyph.ofScript d).isWritten c := by
  intro d hd
  have hne : d ≠ c := fun he => h (he ▸ hd)
  simp [Glyph.ofScript, Glyph.isWritten, hne]

theorem head_isWritten (c : Char) (b : List Char) :
    ∀ d ∈ (c :: b).head?, ¬ !(Glyph.ofScript d).isWritten c := by
  rintro d ⟨⟩
  simp [Glyph.ofScript, Glyph.isWritten]

theorem takeUntil_written (h : c ∉ a) (b : List Char) :
    (written (a ++ c :: b)).takeUntil c = written a :=
  takeWhile_written (p := fun g => !g.isWritten c) (forall_not_isWritten h) (head_isWritten c b)

theorem eat?_dropUntil_written (h : c ∉ a) (b : List Char) :
    ((written (a ++ c :: b)).dropUntil c).eat? c = some (written b) := by
  have hdrop : (written (a ++ c :: b)).dropUntil c = written (c :: b) :=
    dropWhile_written (p := fun g => !g.isWritten c) (forall_not_isWritten h) (head_isWritten c b)
  rw [hdrop, eat?_written, if_pos rfl]

@[simp] theorem chars_written (a : List Char) : (written a).chars = a := by
  simp [written, ofText, chars, Function.comp_def]

theorem skipBlank_written (h : ∀ c ∈ a.head?, ¬ Text.isBlank c) : (written a).skipBlank = written a :=
  dropWhile_written (a := []) (by simp) h

/-- Resolved text that is not blank before a rest that is written. -/
structure Solid (f : Fragment) (g : Glyph) (rest : Fragment) : Prop where
  glyphs : f.glyphs = g :: rest.glyphs
  gapAtEnd : f.gapAtEnd = rest.gapAtEnd
  resolved : g.resolved
  not_blank : ¬ g.isBlank
  rest_written : ∀ h ∈ rest.glyphs, h.resolved = false

namespace Solid
variable {g : Glyph} {rest : Fragment} (hf : f.Solid g rest)
include hf

theorem blocked : f.Blocked g rest where
  eq := by
    cases f
    cases rest
    simpa [prepend] using And.intro hf.glyphs hf.gapAtEnd
  resolved := hf.resolved
  not_blank := hf.not_blank

theorem eat?_append (h : (written a ++ f).eat? c = some f') :
    ∃ b, a = c :: b ∧ f' = written b ++ f := by
  rw [written_append_eq_prepend] at h
  obtain ⟨g, gs, he, hw, rfl⟩ := hf.blocked.eat?_prepend h
  obtain ⟨d, b, rfl, rfl, rfl⟩ := List.map_eq_cons_iff.1 he
  have hd : d = c := of_decide_eq_true hw
  exact ⟨b, hd ▸ rfl, (written_append_eq_prepend b f).symm⟩

end Solid

end Fragment

end PortalScript
