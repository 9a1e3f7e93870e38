import Mathlib.Data.List.DropRight
import PortalScript.Fragment

/-! # Fragments with other resolved text

Two fragments are `Alike` if they differ at most in what stands in resolved runs that are not blank.
Trimming keeps fragments alike (`Alike.trim`): a run that is not blank is never trimmed away as a
whole, so what remains of two runs in one place still is two runs in one place. -/

namespace PortalScript

namespace Fragment

theorem glyphs_trimEnd (gap : Bool) (gs : List Glyph) :
    (trimEnd gap gs).1 = gs.rdropWhile (·.isBlank) := by
  induction gs with
  | nil => rfl
  | cons g gs ih =>
    rw [trimEnd, List.rdropWhile, List.reverse_cons, List.dropWhile_append]
    rw [List.rdropWhile] at ih
    split <;> rename_i h <;> rw [h] at ih
    · have hn : gs.reverse.dropWhile (·.isBlank) = [] := List.reverse_eq_nil_iff.1 ih.symm
      rw [hn]
      by_cases hb : g.isBlank <;> simp [hb]
    · have hn : ¬ (gs.reverse.dropWhile (·.isBlank)).isEmpty := by
        intro he
        rw [List.isEmpty_iff.1 he] at ih
        simp_all
      rw [if_neg hn, List.reverse_append, ← ih]
      rfl

theorem glyphs_trim_eq (f : Fragment) :
    f.trim.glyphs = (f.glyphs.dropWhile (·.isBlank)).rdropWhile (·.isBlank) := by
  unfold trim
  split <;> rename_i h
  · rw [h]
    rfl
  · exact glyphs_trimEnd _ _

end Fragment

theorem Fragment.mem_dropWhile_blank {g : Glyph} {gs : List Glyph} (hg : g ∈ gs) (hb : ¬ g.isBlank) :
    g ∈ gs.dropWhile (·.isBlank) := by
  rw [← List.takeWhile_append_dropWhile (p := (·.isBlank)) (l := gs)] at hg
  exact (List.mem_append.1 hg).resolve_left fun hg => hb (List.mem_takeWhile_imp hg)

/-- A resolved run that is not blank. -/
def SolidRun (w : List Glyph) : Prop := (∀ g ∈ w, g.resolved) ∧ ∃ g ∈ w, ¬ g.isBlank

theorem SolidRun.reverse {w : List Glyph} (h : SolidRun w) : SolidRun w.reverse := by
  simpa [SolidRun] using h

theorem SolidRun.dropWhile {w : List Glyph} (h : SolidRun w) : SolidRun (w.dropWhile (·.isBlank)) := by
  obtain ⟨hr, g, hg, hb⟩ := h
  exact ⟨fun a ha => hr a ((List.dropWhile_sublist _).subset ha), g,
    Fragment.mem_dropWhile_blank hg hb, hb⟩

/-- Glyphs that are the same up to gaps, but that a resolved run that is not blank may stand in the
place of another. -/
inductive Alike : List Glyph → List Glyph → Prop
  | nil : Alike [] []
  | same {a b : Glyph} {f g : List Glyph} (hc : a.char = b.char) (hr : a.resolved = b.resolved)
      (h : Alike f g) : Alike (a :: f) (b :: g)
  | run {v w f g : List Glyph} (hv : SolidRun v) (hw : SolidRun w) (h : Alike f g) :
      Alike (v ++ f) (w ++ g)

namespace Alike
variable {f g f' g' : List Glyph}

theorem refl (f : List Glyph) : Alike f f := by
  induction f with
  | nil => exact .nil
  | cons a f ih => exact .same rfl rfl ih

theorem append (h : Alike f g) (h' : Alike f' g') : Alike (f ++ f') (g ++ g') := by
  induction h with
  | nil => exact h'
  | same hc hr h ih => exact .same hc hr ih
  | run hv hw h ih =>
    rw [List.append_assoc, List.append_assoc]
    exact .run hv hw ih

theorem reverse (h : Alike f g) : Alike f.reverse g.reverse := by
  induction h with
  | nil => exact .nil
  | same hc hr h ih =>
    rw [List.reverse_cons, List.reverse_cons]
    exact ih.append (.same hc hr .nil)
  | @run v w f g hv hw h ih =>
    rw [List.reverse_append, List.reverse_append]
    have hvw : Alike (v.reverse ++ []) (w.reverse ++ []) := .run hv.reverse hw.reverse .nil
    rw [List.append_nil, List.append_nil] at hvw
    exact ih.append hvw

theorem dropWhile (h : Alike f g) :
    Alike (f.dropWhile (·.isBlank)) (g.dropWhile (·.isBlank)) := by
  induction h with
  | nil => exact .nil
  | @same a b f g hc hr h ih =>
    have hb : a.isBlank = b.isBlank := by rw [Glyph.isBlank, hc, Glyph.isBlank]
    rw [List.dropWhile_cons, List.dropWhile_cons, hb]
    split
    · exact ih
    · exact .same hc hr h
  | @run v w f g hv hw h ih =>
    have hne {w : List Glyph} (hw : SolidRun w) : ¬ (w.dropWhile (·.isBlank)).isEmpty := by
      obtain ⟨-, g, hg, -⟩ := hw.dropWhile
      exact fun he => List.not_mem_nil (List.isEmpty_iff.1 he ▸ hg)
    rw [List.dropWhile_append, List.dropWhile_append, if_neg (hne hv), if_neg (hne hw)]
    exact .run hv.dropWhile hw.dropWhile h

theorem eq_nil_iff (h : Alike f g) : f = [] ↔ g = [] := by
  cases h with
  | nil => simp
  | same => simp
  | run hv hw =>
    obtain ⟨-, a, ha, -⟩ := hv
    obtain ⟨-, b, hb, -⟩ := hw
    have := List.ne_nil_of_mem ha
    have := List.ne_nil_of_mem hb
    simp_all

theorem head? (h : Alike f g) : f.head?.any (·.resolved) = g.head?.any (·.resolved) ∧
    ∀ c, f.head?.any (·.isWritten c) = g.head?.any (·.isWritten c) := by
  cases h with
  | nil => exact ⟨rfl, fun _ => rfl⟩
  | same hc hr => simp [Glyph.isWritten, hc, hr]
  | @run v w f g hv hw h =>
    obtain ⟨a, v, rfl⟩ := List.exists_cons_of_ne_nil (List.ne_nil_of_mem hv.2.choose_spec.1)
    obtain ⟨b, w, rfl⟩ := List.exists_cons_of_ne_nil (List.ne_nil_of_mem hw.2.choose_spec.1)
    have ha := hv.1 a List.mem_cons_self
    have hb := hw.1 b List.mem_cons_self
    simp [Glyph.isWritten, ha, hb]

theorem startsWritten (h : Alike f g) (p : List Char) :
    Fragment.startsWritten p f = Fragment.startsWritten p g := by
  induction h generalizing p with
  | nil => rfl
  | same hc hr h ih =>
    cases p with
    | nil => rfl
    | cons c p => simp [Fragment.startsWritten, Glyph.isWritten, hc, hr, ih]
  | @run v w f g hv hw h ih =>
    cases p with
    | nil => simp [Fragment.startsWritten]
    | cons c p =>
      obtain ⟨a, v, rfl⟩ := List.exists_cons_of_ne_nil (List.ne_nil_of_mem hv.2.choose_spec.1)
      obtain ⟨b, w, rfl⟩ := List.exists_cons_of_ne_nil (List.ne_nil_of_mem hw.2.choose_spec.1)
      have ha := hv.1 a List.mem_cons_self
      have hb := hw.1 b List.mem_cons_self
      simp [Fragment.startsWritten, Glyph.isWritten, ha, hb]

theorem map_char_eq (h : Alike f g) (hf : ∀ a ∈ f, a.resolved = false) :
    f.map Glyph.char = g.map Glyph.char := by
  induction h with
  | nil => rfl
  | same hc hr h ih =>
    rw [List.map_cons, List.map_cons, hc, ih fun a ha => hf a (List.mem_cons_of_mem _ ha)]
  | run hv hw h ih =>
    obtain ⟨hr, a, ha, -⟩ := hv
    have := hf a (List.mem_append_left _ ha)
    rw [hr a ha] at this
    cases this

end Alike

namespace Fragment
variable {f g : Fragment}

/-- The fragments differ at most in gaps and in what stands in resolved runs that are not blank. -/
def Alike (f g : Fragment) : Prop := PortalScript.Alike f.glyphs g.glyphs

theorem Alike.refl (f : Fragment) : f.Alike f := PortalScript.Alike.refl f.glyphs

theorem Alike.trim (h : f.Alike g) : f.trim.Alike g.trim := by
  unfold Alike
  rw [glyphs_trim_eq, glyphs_trim_eq]
  exact h.dropWhile.reverse.dropWhile.reverse

theorem Alike.isQuoted (h : f.Alike g) : f.isQuoted = g.isQuoted := by
  have hfirst := h.head?.2 '\''
  have hlast := h.reverse.head?.2 '\''
  rw [List.head?_reverse, List.head?_reverse] at hlast
  unfold Fragment.isQuoted Fragment.length
  rw [hfirst, hlast]
  obtain ⟨f, _⟩ := f
  obtain ⟨g, _⟩ := g
  have hfg : PortalScript.Alike f g := h
  cases hfg with
  | nil => rfl
  | @same a b f g hc hr hfg =>
    -- there is a second glyph in both or in neither
    have hn := hfg.eq_nil_iff
    cases f <;> cases g <;> simp_all
  | @run v w f g hv hw hfg =>
    obtain ⟨b, w, rfl⟩ := List.exists_cons_of_ne_nil (List.ne_nil_of_mem hw.2.choose_spec.1)
    have hb := hw.1 b List.mem_cons_self
    simp [Glyph.isWritten, hb]

end Fragment

end PortalScript
