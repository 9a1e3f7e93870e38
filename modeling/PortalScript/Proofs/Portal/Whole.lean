import PortalScript.Proofs.Params.Whole
import PortalScript.Proofs.Portal.Locality
import PortalScript.Proofs.Table.Entries

/-! # Portals around the place of a value

`IsWholeValue` says that some place in the body of a data portal is the whole value of a parameter:
whatever is resolved there is that value. `Site` takes such a body apart, and what other text in that
place is read as follows from the parts (`Site.reads`). -/

namespace PortalScript

namespace Portal

open Fragment Params

variable {before after : Template} {key : String} {quoted gap : Bool} {x : Char} {r : List Char}
  {gs : List Glyph} {left : Fragment} {head : Head} {es : List (String × Fragment)} {p : Portal}

/-- With the character `x` resolved between `before` and `after`, that is the whole value of `key` in a
data portal, bare or between quotes. -/
def IsValueAt (before after : Template) (key : String) (quoted : Bool) (x : Char) : Prop :=
  ∃ p, parse (Template.fragment (before ++ .resolved [x] :: after)) = .ok (.data p) ∧
    p.params.get? key = some (wholeValue quoted [x])

/-- Between `before` and `after` there is the place of the whole value of `key` in a data portal: any
character that is not blank is that value. -/
def IsWholeValue (before after : Template) (key : String) (quoted : Bool) : Prop :=
  ∀ x, ¬ Text.isBlank x → IsValueAt before after key quoted x

/-- A data portal around the place of a value: `gs` are the glyphs before it, of which `list` stand in
the list and `w` in the entry's value, and `left` is what stands behind it. -/
structure Site (gs : List Glyph) (gap : Bool) (left : Fragment) (key : String) (quoted : Bool) where
  id : String
  (list w : List Glyph)
  (before after : List (String × Fragment))
  read : Fragment → Fragment
  (behind rest : Fragment)
  opens : OpensTo gs (.data id) list
  leads : LeadsTo list before key w
  encloses : Encloses w left read behind
  read_eq : ∀ x, ¬ Text.isBlank x → read (inserted gap [x] left) = wholeValue quoted [x]
  frames : Frames w left quoted behind
  tail : ReadsTail behind after rest
  finished : rest.skipBlank.isEmpty
  last : ∀ e ∈ after, e.1 ≠ key

namespace Site
variable (site : Site gs gap left key quoted)

theorem reads {f value behind : Fragment} (hv : ReadsValue (prepend site.w f).skipBlank value behind)
    (hend : ∀ c, behind.skipBlank.eat? c = site.behind.skipBlank.eat? c) :
    Reads (prepend gs f) (.data site.id) (site.before ++ (key, value) :: site.after) :=
  (site.opens.reads_iff site.leads f).2 ⟨rfl, value, behind, site.after, site.rest, rfl, hv,
    (readsTail_congr hend).2 site.tail, site.finished⟩

theorem parse_eq_ok {f value behind body : Fragment} (hb : body.trim = prepend gs f)
    (hv : ReadsValue (prepend site.w f).skipBlank value behind)
    (hend : ∀ c, behind.skipBlank.eat? c = site.behind.skipBlank.eat? c) :
    ∃ p, parse body = .ok (.data p) ∧ p.params.get? key = some value := by
  have hr := site.reads hv hend
  rw [← hb] at hr
  exact ⟨_, parse_ok_iff.2 ⟨_, _, hr, rfl⟩, Table.get?_ofList_last site.last value site.before⟩

end Site

/-- The body with the text `r` between `before` and `after`, without the blanks around it. -/
def bodyAt (before after : Template) (r : List Char) : Fragment :=
  prepend (before.fragment.glyphs.dropWhile (·.isBlank))
    (inserted before.fragment.gapAtEnd r after.fragment.trimRight)

theorem trim_fragment (hx : ¬ Text.isBlank x) :
    (Template.fragment (before ++ .resolved [x] :: after)).trim = bodyAt before after [x] := by
  have hb (f : Fragment) := (blocked_inserted hx before.fragment.gapAtEnd f).eq
  rw [Template.fragment_around, bodyAt, hb, hb]
  exact trim_prepend (g := ⟨x, true, _⟩) hx _ _

namespace IsValueAt

theorem reads (h : IsValueAt before after key quoted x) (hx : ¬ Text.isBlank x) :
    ∃ id es, Reads (bodyAt before after [x]) (.data id) es := by
  obtain ⟨p, hp, -⟩ := h
  obtain ⟨head, es, hr, he⟩ := parse_ok_iff.1 hp
  rw [trim_fragment hx] at hr
  cases head with
  | data id => exact ⟨id, es, hr⟩
  | action => cases he

theorem get?_of_reads (h : IsValueAt before after key quoted x) (hx : ¬ Text.isBlank x)
    (hr : Reads (bodyAt before after [x]) head es) :
    (Table.ofList es).get? key = some (wholeValue quoted [x]) := by
  obtain ⟨p, hp, hv⟩ := h
  rw [← trim_fragment hx] at hr
  have he := parse_ok_iff.2 ⟨head, es, hr, rfl⟩
  rw [hp] at he
  cases head with
  | data id =>
    cases he
    exact hv
  | action => cases he

section
variable (h : IsValueAt before after key quoted 'x') (h' : IsValueAt before after key quoted 'y')
include h h'

theorem not_forall_reads (es : List (String × Fragment)) :
    ¬ ∀ x, ¬ Text.isBlank x → ∃ head, Reads (bodyAt before after [x]) head es := by
  intro hall
  obtain ⟨_, hr⟩ := hall 'x' (by decide)
  obtain ⟨_, hr'⟩ := hall 'y' (by decide)
  have hv := h.get?_of_reads (by decide) hr
  rw [h'.get?_of_reads (by decide) hr'] at hv
  cases quoted <;> exact absurd hv (by decide)

theorem exists_site : Nonempty (Site (before.fragment.glyphs.dropWhile (·.isBlank))
    before.fragment.gapAtEnd after.fragment.trimRight key quoted) := by
  have hx : ¬ Text.isBlank 'x' := by decide
  have hy : ¬ Text.isBlank 'y' := by decide
  have hf {z : Char} (hz : ¬ Text.isBlank z) :=
    blocked_inserted hz before.fragment.gapAtEnd after.fragment.trimRight
  obtain ⟨id, es, hr⟩ := h.reads hx
  have hes : es ≠ [] := by
    rintro rfl
    cases h.get?_of_reads hx hr
  have hr' := hr
  cases hr' with
  | data ho hc hi hp he =>
    rcases reads_data_local (hf hx) ho hc hi hp hes with ⟨list, -, hopens⟩ | ⟨q, u, hgs, hq, hu, hc'⟩
    · obtain ⟨-, rest, hl, he⟩ := (hopens _ _ _).1 hr
      rcases readsList_local (hf hx) hl with ⟨as, rfl, -⟩ |
          ⟨before', key', read, after', w, behind, -, hleads, rfl, henc, htail, -⟩
      · exact absurd he ((hf hx).not_isEmpty_skipBlank as)
      · have hread {z : Char} (hz : ¬ Text.isBlank z) := (hopens.reads_iff hleads _).2
          ⟨rfl, _, behind, after', rest, rfl, henc.readsValue (hf hz), htail, he⟩
        have hne : wholeValue quoted ['x'] ≠ wholeValue quoted ['y'] := by cases quoted <;> decide
        obtain ⟨rfl, hlast, hv⟩ := Table.eq_of_get?_ne (h.get?_of_reads hx (hread hx))
          (h'.get?_of_reads hy (hread hy)) hne
        obtain ⟨hframes, hread⟩ := henc.whole hx hv htail
        exact ⟨⟨_, list, w, before', after', read, behind, rest, hopens, hleads, henc, hread, hframes,
          htail, he, hlast⟩⟩
    · -- the place would be in the id of the template
      refine (not_forall_reads h h' es fun z hz => ?_).elim
      obtain ⟨id, hr⟩ := exists_reads_id (hf hz) hq hu hc' hp he
      rw [bodyAt, hgs]
      exact ⟨_, hr⟩

end

end IsValueAt

/-- Two characters tell whether a place is that of a whole value. -/
theorem isWholeValue_iff : IsWholeValue before after key quoted ↔
    IsValueAt before after key quoted 'x' ∧ IsValueAt before after key quoted 'y' := by
  constructor
  · exact fun h => ⟨h 'x' (by decide), h 'y' (by decide)⟩
  · rintro ⟨h, h'⟩ x hx
    obtain ⟨site⟩ := h.exists_site h'
    have hf := blocked_inserted hx before.fragment.gapAtEnd after.fragment.trimRight
    have hv := site.encloses.readsValue hf
    rw [site.read_eq x hx] at hv
    exact site.parse_eq_ok (trim_fragment hx) hv fun _ => rfl

namespace IsWholeValue
variable (h : IsWholeValue before after key quoted)
include h

theorem exists_site : Nonempty (Site (before.fragment.glyphs.dropWhile (·.isBlank))
    before.fragment.gapAtEnd after.fragment.trimRight key quoted) :=
  (isWholeValue_iff.1 h).1.exists_site (isWholeValue_iff.1 h).2

theorem front_ne_nil : before.fragment.glyphs.dropWhile (·.isBlank) ≠ [] := by
  have hx : ¬ Text.isBlank 'x' := by decide
  obtain ⟨id, es, hr⟩ := (h 'x' hx).reads hx
  intro hn
  rw [bodyAt, hn] at hr
  have hf := blocked_inserted hx before.fragment.gapAtEnd after.fragment.trimRight
  cases hr with
  | data ho =>
    obtain ⟨a, as, hnil, -⟩ := hf.eat?_prepend ho
    cases hnil

theorem exists_not_isBlank : ∃ b ∈ after.fragment.glyphs, ¬ b.isBlank := by
  obtain ⟨site⟩ := h.exists_site
  obtain ⟨b, hb, hn⟩ := site.frames.exists_not_isBlank
  exact ⟨b, (trimEnd_isPrefix _ _).subset hb, hn⟩

theorem trim_fragment (r : List Char) :
    (Template.fragment (before ++ .resolved r :: after)).trim = bodyAt before after r := by
  rw [Template.fragment_around]
  exact trim_inserted h.front_ne_nil h.exists_not_isBlank _ r

theorem gapAtStart_iff (hr : Text.allBlank r) :
    (inserted before.fragment.gapAtEnd r after.fragment.trimRight).skipBlank.gapAtStart ↔
      (Template.fragment (.resolved r :: after)).skipBlank.gapAtStart := by
  have he : inserted false r after.fragment = Template.fragment (.resolved r :: after) := empty_append _
  rw [gapAtStart_skipBlank_trimRight hr h.exists_not_isBlank _ false, he]

/-- A portal around a whole value is read with other text for it, if that text is not blank or a gap is
left where the value ends. -/
theorem exists_parse (hr : quoted ∨ ¬ Text.allBlank r ∨
      (Template.fragment (.resolved r :: after)).skipBlank.gapAtStart) :
    ∃ p value, parse (Template.fragment (before ++ .resolved r :: after)) = .ok (.data p) ∧
      p.params.get? key = some value ∧ Value.IsText value (if quoted then r else Text.trim r) := by
  obtain ⟨site⟩ := h.exists_site
  have hr : quoted ∨ ¬ Text.allBlank r ∨
      (inserted before.fragment.gapAtEnd r after.fragment.trimRight).skipBlank.gapAtStart := by
    by_cases hb : Text.allBlank r
    · rwa [h.gapAtStart_iff hb]
    · exact .inr (.inl hb)
  obtain ⟨value, behind, hv, ht, hend⟩ := site.frames.exists_readsValue _ r hr
  obtain ⟨p, hp, hk⟩ := site.parse_eq_ok (h.trim_fragment r) hv hend
  exact ⟨p, value, hp, hk, ht⟩

theorem of_parse (hp : parse (Template.fragment (before ++ .resolved r :: after)) = .ok p) :
    quoted ∨ ¬ Text.allBlank r ∨
      (Template.fragment (.resolved r :: after)).skipBlank.gapAtStart := by
  obtain ⟨site⟩ := h.exists_site
  obtain ⟨head, es, hreads, -⟩ := parse_ok_iff.1 hp
  rw [h.trim_fragment, bodyAt, site.opens.reads_iff site.leads] at hreads
  obtain ⟨-, value, behind, -, -, -, hv, -⟩ := hreads
  by_cases hb : Text.allBlank r
  · cases quoted with
    | false => exact .inr (.inr ((h.gapAtStart_iff hb).1 (site.frames.gap_of_readsValue hb hv)))
    | true => exact .inl rfl
  · exact .inr (.inl hb)

end IsWholeValue

end Portal

end PortalScript
