import PortalScript.Fragment.Scan
import PortalScript.Proofs.Fragment.Alike
import PortalScript.Value

/-! # What resolved text has to do with how a value is read

Other resolved text in the same places leaves a value what it is: a portal, a quoted or a bare text
(`Value.kindOf_congr`). That is so unless the value starts with the sigil of a link as written in the
script: then all that follows the sigil is read as a link, resolved or not, and what is resolved
decides which link it is, or whether it is one at all (`Value.inert_iff`). -/

namespace PortalScript

namespace Fragment
variable {f g : Fragment}

/-- Whether the fragment starts with the sigil of a link as written in the script. -/
def startsLink (f : Fragment) : Bool := f.startsAt '$' || f.startsAt '@'

/-- All glyphs are text of the script. -/
def IsScript (f : Fragment) : Prop := ∀ g ∈ f.glyphs, g.resolved = false

theorem Alike.startsLink (h : f.Alike g) : f.startsLink = g.startsLink := by
  have hc := h.head?.2
  simp only [Fragment.startsLink, startsAt, hc]

theorem isToken_chars (h : ¬ f.startsResolved) : Link.isToken f.chars = f.startsLink := by
  obtain ⟨gs, _⟩ := f
  cases gs with
  | nil => rfl
  | cons a gs =>
    have ha : a.resolved = false := by simpa [startsResolved] using h
    simp [Link.isToken, chars, Fragment.startsLink, startsAt, Glyph.isWritten, ha]

theorem not_marker_of_startsLink (h : f.startsLink) : ¬ f.startsResolved ∧
    f.startsWith Marker.opening.spelling = false := by
  obtain ⟨gs, _⟩ := f
  cases gs with
  | nil => cases h
  | cons a gs =>
    simp only [Fragment.startsLink, startsAt, List.head?_cons, Option.any_some, Bool.or_eq_true,
      Glyph.isWritten, Bool.and_eq_true, Bool.not_eq_true', decide_eq_true_eq] at h
    rcases h with ⟨hr, hc⟩ | ⟨hr, hc⟩ <;>
      simp [startsResolved, startsWith, startsWritten, Marker.spelling, Glyph.isWritten, hr, hc]

theorem Alike.text_eq (h : f.Alike g) (hf : f.IsScript) : f.text = g.text :=
  congrArg String.ofList (h.map_char_eq hf)

end Fragment

namespace Value

/-- What a value can be, and that it can be malformed. -/
inductive Kind
  | portal
  | link
  | quoted
  | bare
  | malformed
deriving Repr, DecidableEq

def kind : Value → Kind
  | portal _ => .portal
  | link _ _ => .link
  | quoted _ => .quoted
  | bare _ => .bare

def kindOf (raw : Fragment) : Kind :=
  match classify raw with
  | .ok v => v.kind
  | .error _ => .malformed

variable {f g : Fragment}

theorem classify_of_startsLink (h : f.trim.startsLink) :
    classify f = (Link.parse f.trim.text).map (.link · f.trim.text) := by
  obtain ⟨hr, hw⟩ := Fragment.not_marker_of_startsLink h
  unfold classify
  dsimp only
  rw [if_neg hr, hw, Fragment.isToken_chars hr, h]
  rfl

theorem kindOf_of_startsLink (h : f.trim.startsLink) : kindOf f = .link ∨ kindOf f = .malformed := by
  rw [kindOf, classify_of_startsLink h]
  cases Link.parse f.trim.text with
  | ok l => exact .inl rfl
  | error e => exact .inr rfl

theorem kindOf_of_not_startsLink (h : ¬ f.trim.startsLink) : kindOf f =
    if f.trim.startsResolved then .bare
    else if f.trim.startsWith Marker.opening.spelling then .portal
    else if f.trim.isQuoted then .quoted else .bare := by
  unfold kindOf classify
  dsimp only
  by_cases hr : f.trim.startsResolved
  · rw [if_pos hr, if_pos hr]
    rfl
  rw [if_neg hr, if_neg hr, Fragment.isToken_chars hr, if_neg h]
  by_cases hw : f.trim.startsWith Marker.opening.spelling
  · rw [if_pos hw, if_pos hw]
    rfl
  rw [if_neg hw, if_neg hw]
  cases f.trim.isQuoted <;> rfl

/-- Resolved text has no part in what a value without a written sigil is, which is never a link and
never malformed. -/
theorem kindOf_congr (h : f.Alike g) (hs : ¬ f.trim.startsLink) :
    kindOf g = kindOf f ∧ kindOf f ≠ .link ∧ kindOf f ≠ .malformed := by
  have ht := h.trim
  have hs' : ¬ g.trim.startsLink := by rwa [← ht.startsLink]
  rw [kindOf_of_not_startsLink hs, kindOf_of_not_startsLink hs', Fragment.startsResolved,
    Fragment.startsResolved, ht.head?.1, Fragment.startsWith, Fragment.startsWith,
    ht.startsWritten, ht.isQuoted]
  refine ⟨rfl, ?_, ?_⟩ <;> repeat' split
  all_goals decide

theorem classify_congr (h : f.Alike g) (hf : f.trim.IsScript) (hs : f.trim.startsLink) :
    classify g = classify f := by
  have ht := h.trim
  rw [classify_of_startsLink hs, classify_of_startsLink (ht.startsLink ▸ hs), ht.text_eq hf]

/-- Resolved text is literal in the value: other resolved text in the same places leaves the value
what it is, and the same link if it is one, and a link is text of the script throughout. -/
def Inert (f : Fragment) : Prop :=
  (∀ g, f.Alike g → kindOf g = kindOf f ∧
    ∀ l token, classify f = .ok (.link l token) → classify g = .ok (.link l token)) ∧
  (kindOf f = .link → f.trim.IsScript)

/-- Resolved text is literal in just the values that do not start with a sigil of a link written in
the script, that are text of the script throughout, or that are no link with any resolved text. -/
theorem inert_iff (f : Fragment) : Inert f ↔
    ¬ f.trim.startsLink ∨ f.trim.IsScript ∨ ∀ g, f.Alike g → kindOf g ≠ .link := by
  constructor
  · rintro ⟨hk, hl⟩
    by_cases hs : f.trim.IsScript
    · exact .inr (.inl hs)
    · refine .inr (.inr fun g h hg => hs (hl ?_))
      rw [← (hk g h).1, hg]
  · intro h
    by_cases hs : f.trim.startsLink
    · rcases h with h | hf | hn
      · exact absurd hs h
      · refine ⟨fun g hg => ?_, fun _ => hf⟩
        rw [kindOf, kindOf, classify_congr hg hf hs]
        exact ⟨rfl, fun _ _ h => h⟩
      · have hf := hn f (.refl f)
        have hm := (kindOf_of_startsLink hs).resolve_left hf
        refine ⟨fun g hg => ⟨?_, fun l token hc => ?_⟩, fun h => absurd h hf⟩
        · rw [hm]
          exact (kindOf_of_startsLink (hg.trim.startsLink ▸ hs)).resolve_left (hn g hg)
        · rw [kindOf, hc] at hf
          exact absurd rfl hf
    · refine ⟨fun g hg => ⟨(kindOf_congr hg hs).1, fun l token hc => ?_⟩, fun h => ?_⟩
      · have := (kindOf_congr hg hs).2.1
        rw [kindOf, hc] at this
        exact absurd rfl this
      · exact absurd h (kindOf_congr (.refl f) hs).2.1

/-- Behind a sigil written in the script, resolved text names the link or makes it malformed. -/
theorem not_inert_sigil :
    let named : Fragment := .append (.written ['$']) (.ofText ['x'] true)
    let spoilt : Fragment := .append (.written ['$']) (.ofText ['x', ' ', 'y'] true)
    named.Alike spoilt ∧ classify named = .ok (.link (.session "x") "$x") ∧
      ¬ named.trim.IsScript ∧ kindOf spoilt = .malformed := by
  refine ⟨.same rfl rfl (.run (f := []) (g := []) (v := [⟨'x', true, false⟩])
    (w := [⟨'x', true, false⟩, ⟨' ', true, false⟩, ⟨'y', true, false⟩]) ?_ ?_ .nil), ?_, ?_, ?_⟩
  · exact ⟨by decide, by decide⟩
  · exact ⟨by decide, by decide⟩
  · decide +kernel
  · intro h
    exact absurd (h ⟨'x', true, false⟩ (by decide)) (by decide)
  · decide +kernel

end Value

end PortalScript
