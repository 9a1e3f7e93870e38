import PortalScript.Proofs.Fragment.Alike
import PortalScript.Proofs.Fragment.Prefix

/-! # Trimming

`trim` does to the text of a fragment what trimming does to a text (`chars_trim`). It leaves what starts
and ends with text that is not blank (`trim_eq`, `trim_written`). Every source text is such a text
between blanks, or blank (`exists_blank_append`, `exists_append_blank`). -/

namespace PortalScript.Fragment
variable {f : Fragment} {g : Glyph} {s a z : List Char}

theorem chars_trimEnd (gap : Bool) (gs : List Glyph) :
    (trimEnd gap gs).1.map (·.char) = Text.trimRight (gs.map (·.char)) := by
  induction gs with
  | nil => rfl
  | cons g gs ih =>
    rw [trimEnd, List.map_cons, Text.trimRight, ← ih]
    split <;> rename_i h <;> rw [h]
    · rw [List.map_nil]
      by_cases hg : Text.isBlank g.char <;> simp [Glyph.isBlank, hg]
    · rename_i kept _ hk
      cases kept with
      | nil => exact (hk rfl).elim
      | cons a kept => rfl

theorem chars_trim (f : Fragment) : f.trim.chars = Text.trim f.chars := by
  have hd : Text.trimLeft f.chars = (f.glyphs.dropWhile (·.isBlank)).map (·.char) :=
    List.dropWhile_map
  unfold trim Text.trim
  rw [hd]
  split <;> rename_i h
  · rw [h]
    rfl
  · exact chars_trimEnd _ _

theorem mem_trimEnd {gap : Bool} {gs : List Glyph} (h : g ∈ gs) (hg : ¬ g.isBlank) :
    g ∈ (trimEnd gap gs).1 := by
  induction gs with
  | nil => cases h
  | cons a gs ih =>
    rw [trimEnd]
    split <;> rename_i ht
    · rcases List.mem_cons.1 h with rfl | h
      · rw [if_neg hg]
        exact List.mem_singleton_self g
      · have := ih h
        rw [ht] at this
        cases this
    · rcases List.mem_cons.1 h with rfl | h
      · exact List.mem_cons_self
      · have := ih h
        rw [ht] at this
        exact List.mem_cons_of_mem _ this

theorem mem_trim (h : g ∈ f.glyphs) (hg : ¬ g.isBlank) : g ∈ f.trim.glyphs := by
  have hd := mem_dropWhile_blank h hg
  unfold trim
  split <;> rename_i ht
  · rw [ht] at hd
    cases hd
  · exact mem_trimEnd hd hg

theorem trimEnd_append {gap : Bool} (a : List Glyph) {b : List Glyph}
    (h : (trimEnd gap b).1 ≠ []) : trimEnd gap (a ++ b) = (a ++ (trimEnd gap b).1, (trimEnd gap b).2) := by
  induction a with
  | nil => rfl
  | cons g a ih =>
    rw [List.cons_append, trimEnd, ih]
    split <;> rename_i ht
    · simp only [Prod.mk.injEq, List.append_eq_nil_iff] at ht
      exact absurd ht.1.2 h
    · obtain ⟨rfl, rfl⟩ := Prod.mk.inj ht
      rfl

theorem trimEnd_blank {s : List Char} (h : ∀ c ∈ s, Text.isBlank c) :
    trimEnd false (s.map Glyph.ofScript) = ([], false) := by
  induction s with
  | nil => rfl
  | cons c s ih =>
    rw [List.map_cons, trimEnd, ih fun d hd => h d (List.mem_cons_of_mem _ hd)]
    exact if_pos (h c List.mem_cons_self)

/-- Trimming keeps what starts and ends with text that is not blank, if there are only blanks around
it and those behind it are written. -/
theorem trim_eq {f : Fragment} {a m : List Glyph} {s : List Char}
    (hf : f.glyphs = a ++ m ++ s.map Glyph.ofScript) (he : f.gapAtEnd = false)
    (ha : ∀ g ∈ a, g.isBlank) (hm : m ≠ []) (hh : ∀ g ∈ m.head?, ¬ g.isBlank)
    (hl : ∀ g ∈ m.getLast?, ¬ g.isBlank) (hs : ∀ c ∈ s, Text.isBlank c) : f.trim = ⟨m, false⟩ := by
  have ht : trimEnd false (m ++ s.map Glyph.ofScript) = (m, false) := by
    obtain ⟨m, g, rfl⟩ := List.eq_nil_or_concat' m |>.resolve_left hm
    have hg : trimEnd false (g :: s.map Glyph.ofScript) = ([g], false) := by
      rw [trimEnd, trimEnd_blank hs]
      exact if_neg (hl g (by simp))
    rw [List.append_assoc, List.singleton_append, trimEnd_append _ (by rw [hg]; simp), hg]
  have hd : f.glyphs.dropWhile (·.isBlank) = m ++ s.map Glyph.ofScript := by
    rw [hf, List.append_assoc, List.dropWhile_append_of_pos ha]
    obtain ⟨g, m, rfl⟩ := List.exists_cons_of_ne_nil hm
    exact List.dropWhile_cons_of_neg (hh g rfl)
  unfold trim
  rw [hd, he]
  obtain ⟨g, m, rfl⟩ := List.exists_cons_of_ne_nil hm
  rw [List.cons_append] at ht ⊢
  dsimp only
  rw [ht]

theorem exists_blank_append (t : List Char) : ∃ s a, t = s ++ a ∧ (∀ c ∈ s, Text.isBlank c) ∧
    ∀ c ∈ a.head?, ¬ Text.isBlank c := by
  rcases passes_or_stops (·.isBlank) t with h | ⟨s, d, a, rfl, hs, hd⟩
  · exact ⟨t, [], by simp, h, by simp⟩
  · refine ⟨s, d :: a, rfl, hs, fun c hc => ?_⟩
    cases hc
    exact hd

theorem exists_append_blank (t : List Char) : ∃ b z, t = b ++ z ∧ (∀ c ∈ z, Text.isBlank c) ∧
    ∀ c ∈ b.getLast?, ¬ Text.isBlank c := by
  obtain ⟨s, a, h, hs, ha⟩ := exists_blank_append t.reverse
  refine ⟨a.reverse, s.reverse, ?_, by simpa using hs, by simpa using ha⟩
  rw [← List.reverse_append, ← h, List.reverse_reverse]

theorem trim_written (hs : ∀ c ∈ s, Text.isBlank c) (hz : ∀ c ∈ z, Text.isBlank c) (hne : a ≠ [])
    (hh : ∀ c ∈ a.head?, ¬ Text.isBlank c) (hl : ∀ c ∈ a.getLast?, ¬ Text.isBlank c) :
    (written (s ++ a ++ z)).trim = written a := by
  rw [written_eq, written_eq]
  refine trim_eq (a := s.map Glyph.ofScript) (s := z) (by simp) rfl ?_ (by simpa using hne) ?_ ?_ hz
  · intro g hg
    obtain ⟨c, hc, rfl⟩ := List.mem_map.1 hg
    exact hs c hc
  · intro g hg
    rw [List.head?_map] at hg
    obtain ⟨c, hc, rfl⟩ := Option.map_eq_some_iff.1 hg
    exact hh c hc
  · intro g hg
    rw [List.getLast?_map] at hg
    obtain ⟨c, hc, rfl⟩ := Option.map_eq_some_iff.1 hg
    exact hl c hc

theorem trim_written_self (hne : a ≠ []) (hh : ∀ c ∈ a.head?, ¬ Text.isBlank c)
    (hl : ∀ c ∈ a.getLast?, ¬ Text.isBlank c) : (written a).trim = written a := by
  have := trim_written (s := []) (z := []) (by simp) (by simp) hne hh hl
  rwa [List.nil_append, List.append_nil] at this

end PortalScript.Fragment
