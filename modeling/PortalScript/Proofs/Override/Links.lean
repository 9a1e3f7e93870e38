import PortalScript.Proofs.Fragment.Trim
import PortalScript.Proofs.Link.Spelling
import PortalScript.Resolution.Override
import PortalScript.Value

/-! # An override beside longer links

A link in a parameter value stands behind a colon or blanks, and a blank, a comma or a bracket
stands behind it. The override of another link changes it just if that link occurs in it between
characters that are no token characters (`leaves_link_iff`). Token characters leave out some that
names have, such as the dot. -/

namespace PortalScript

open Template

theorem Link.read_of_parse {token : String} {l : Link} (h : Link.parse token = .ok l) :
    Link.read token.toList = .ok l := Portal.within_ok_iff.1 h

theorem Value.classify_link {token : String} {l : Link} (h : Link.parse token = .ok l) :
    Value.classify (.written token.toList) = .ok (.link l token) := by
  have hs := Link.spelled_of_read (Link.read_of_parse h)
  obtain ⟨c, cs, hc, hsigil⟩ := hs.exists_sigil
  have ht : (Fragment.written token.toList).trim = .written token.toList :=
    Fragment.trim_written_self (by simp [hc]) (fun c hm => hs.not_blank c (List.mem_of_mem_head? hm))
      (fun c hm => hs.not_blank c (List.mem_of_mem_getLast? hm))
  have hr : (Fragment.written token.toList).startsResolved = false := by
    simp [Fragment.written, Fragment.ofText, Fragment.startsResolved, hc]
  have hm : (Fragment.written token.toList).startsWith Marker.opening.spelling = false := by
    rcases hsigil with rfl | rfl <;>
      simp [Fragment.written, Fragment.ofText, Fragment.startsWith, hc, Marker.spelling,
        Fragment.startsWritten, Glyph.isWritten]
  have htext := Fragment.chars_written token.toList
  have hi : Link.isToken token.toList := by
    rcases hsigil with rfl | rfl <;> simp [Link.isToken, hc]
  unfold Value.classify
  simp only [ht, hr, hm, htext, hi, Fragment.text, String.ofList_toList, h]
  rfl

namespace Override
variable {key token : String} {lk l : Link} {pre post : List Char}

theorem ordered_link (h : Link.parse key = .ok lk) (text : String) :
    ordered ⟨[(key, text)]⟩ = [(key, text)] := by
  obtain ⟨c, cs, hc, hsigil⟩ := (Link.spelled_of_read (Link.read_of_parse h)).exists_sigil
  have ht : isTemplateToken key = false := by
    rcases hsigil with rfl | rfl <;> simp [isTemplateToken, hc]
  simp [ordered, ht]

theorem apply_link (h : Link.parse key = .ok lk) (text : String) (script : List Char) :
    ∃ c cs, key.toList = c :: cs ∧ isTokenChar c ∧
      (apply ⟨[(key, text)]⟩ (.ofScript (.ofList script))).1 =
        (substituteSource c cs text.toList script).1 := by
  obtain ⟨c, cs, hc, hsigil⟩ := (Link.spelled_of_read (Link.read_of_parse h)).exists_sigil
  refine ⟨c, cs, hc, ?_, ?_⟩
  · rcases hsigil with rfl | rfl <;> decide
  · rw [apply, ordered_link h]
    simp [applyAll, substitute, ofScript, substituteChars, hc]

/-- The override of `key` leaves `token` as it is behind `pre`: all of it stays source text. -/
def Leaves (key text : String) (pre : List Char) (token : String) (post : List Char) : Prop :=
  Kept key.toList pre token.toList post
    (apply ⟨[(key, text)]⟩ (.ofScript (.ofList (pre ++ (token.toList ++ post))))).1

/-- A stretch is left as it is just if no whole-token occurrence of the key overlaps it. -/
theorem leaves_iff (hk : Link.parse key = .ok lk) (text : String) :
    Leaves key text pre token post ↔
      ∀ u v, pre ++ (token.toList ++ post) = u ++ (key.toList ++ v) → WholeToken u v →
        Apart u key.toList.length pre token.toList := by
  obtain ⟨c, cs, hc, htc, ha⟩ := apply_link hk text (pre ++ (token.toList ++ post))
  have hself : NoOverlap key.toList := (Link.spelled_of_read (Link.read_of_parse hk)).noOverlap
  rw [hc] at hself
  rw [Leaves, ha, hc]
  exact kept_substituteSource_iff htc hself pre token.toList post

/-- Where the value of a parameter stands, and ends right behind its text. -/
structure AroundValue (pre post : List Char) : Prop where
  before : ∀ c ∈ pre.getLast?, c = ':' ∨ Text.isBlank c
  behind : ∀ c ∈ post.head?, c = ',' ∨ c = ']' ∨ Text.isBlank c

theorem part_of_not_apart {k t u v : List Char} (hk : Link.Spelled k) (ht : Link.Spelled t)
    (hv : AroundValue pre post) (hkey : ∀ c ∈ k, c ≠ ',' ∧ c ≠ ']')
    (hu : pre ++ (t ++ post) = u ++ (k ++ v)) (ha : ¬ Apart u k.length pre t) :
    ∃ p q, t = p ++ (k ++ q) ∧ u = pre ++ p ∧ v = q ++ post := by
  rw [Apart, not_or, Nat.not_le, Nat.not_le] at ha
  rcases Nat.lt_or_ge u.length pre.length with hl | hl
  · -- the key starts before the link, so it holds the link's sigil behind a colon or a blank
    exfalso
    obtain ⟨w, rfl⟩ : u <+: pre := by
      refine List.prefix_of_prefix_length_le ⟨k ++ v, hu.symm⟩ ?_ (Nat.le_of_lt hl)
      exact List.prefix_append pre (t ++ post)
    rw [List.append_assoc, List.append_cancel_left_eq] at hu
    rcases List.append_eq_append_iff.1 hu with ⟨x, rfl, hx⟩ | ⟨x, rfl, -⟩
    · obtain ⟨c, cs, rfl, hsigil⟩ := ht.exists_sigil
      have hx0 : x ≠ [] := by
        rintro rfl
        simp at ha
      obtain ⟨e, x, rfl⟩ := List.exists_cons_of_ne_nil hx0
      obtain ⟨rfl, -⟩ := List.cons.inj hx
      rcases List.eq_nil_or_concat' w with rfl | ⟨w, d, rfl⟩
      · simp at hl
      rcases hv.before d (by simp) with rfl | hd
      · exact hk.not_sigil hsigil (u := w) (v := x) (by simp)
      · exact hk.not_blank d (by simp) hd
    · simp only [List.length_append] at ha
      omega
  · obtain ⟨p, rfl⟩ : pre <+: u := by
      refine List.prefix_of_prefix_length_le ⟨t ++ post, hu⟩ ?_ hl
      exact List.prefix_append u (k ++ v)
    rw [List.append_assoc, List.append_cancel_left_eq] at hu
    rcases List.append_eq_append_iff.1 hu with ⟨x, rfl, hx⟩ | ⟨d, rfl, hd⟩
    · simp only [List.length_append] at ha
      omega
    rcases List.append_eq_append_iff.1 hd with ⟨q, rfl, hq⟩ | ⟨x, rfl, hx⟩
    · exact ⟨p, q, rfl, rfl, hq⟩
    · -- the key must end with the link, or it holds what stands behind the link
      cases x with
      | nil => exact ⟨p, [], by simp, rfl, by simpa using hx.symm⟩
      | cons c x =>
        exfalso
        have hc : c ∈ d ++ c :: x := by simp
        rcases hv.behind c (by simp [hx]) with rfl | rfl | hb
        · exact (hkey _ hc).1 rfl
        · exact (hkey _ hc).2 rfl
        · exact hk.not_blank c hc hb

theorem leaves_value_iff (hk : Link.parse key = .ok lk) (ht : Link.parse token = .ok l)
    (hv : AroundValue pre post) (hkey : ∀ c ∈ key.toList, c ≠ ',' ∧ c ≠ ']') (text : String) :
    Leaves key text pre token post ↔
      ∀ p q, token.toList = p ++ (key.toList ++ q) → ¬ WholeToken (pre ++ p) (q ++ post) := by
  have hks := Link.spelled_of_read (Link.read_of_parse hk)
  have hts := Link.spelled_of_read (Link.read_of_parse ht)
  rw [leaves_iff hk]
  constructor
  · intro h p q hpq hw
    have ha := h (pre ++ p) (q ++ post) (by simp [hpq]) hw
    obtain ⟨c, cs, hc, -⟩ := hks.exists_sigil
    simp [Apart, hpq, hc] at ha
    omega
  · intro h u v hu hw
    by_contra ha
    obtain ⟨p, q, hpq, rfl, rfl⟩ := part_of_not_apart hks hts hv hkey hu ha
    exact h p q hpq hw

theorem eq_of_wholeToken {k t p q : List Char} (hc : ∀ c ∈ t, isTokenChar c)
    (h : t = p ++ (k ++ q)) (hw : WholeToken (pre ++ p) (q ++ post)) : k = t := by
  subst h
  have hp : p = [] := by
    rcases List.eq_nil_or_concat' p with rfl | ⟨p, d, rfl⟩
    · rfl
    · have := hw.1
      simp [isBoundary, hc d (by simp)] at this
  have hq : q = [] := by
    cases q with
    | nil => rfl
    | cons d q =>
      have := hw.2
      simp [isBoundary, hc d (by simp)] at this
  simp [hp, hq]

/-- When the override of one link leaves another link as it is, which is classified as that link
then. In a parameter value it does so just if the key does not occur in the link between characters
that are no token characters; a link spelled in token characters stays under all other keys. -/
theorem leaves_link_iff (hk : Link.parse key = .ok lk) (ht : Link.parse token = .ok l)
    (text : String) (pre post : List Char) :
    Value.classify (.written token.toList) = .ok (.link l token) ∧
    (Leaves key text pre token post ↔
      ∀ u v, pre ++ (token.toList ++ post) = u ++ (key.toList ++ v) → WholeToken u v →
        Apart u key.toList.length pre token.toList) ∧
    (AroundValue pre post → (∀ c ∈ key.toList, c ≠ ',' ∧ c ≠ ']') →
      (Leaves key text pre token post ↔
        ∀ p q, token.toList = p ++ (key.toList ++ q) → ¬ WholeToken (pre ++ p) (q ++ post)) ∧
      (key ≠ token → (∀ c ∈ token.toList, isTokenChar c) → Leaves key text pre token post)) := by
  refine ⟨Value.classify_link ht, leaves_iff hk text, fun hv hkey => ?_⟩
  have hiff := leaves_value_iff hk ht hv hkey text
  refine ⟨hiff, fun hne hc => hiff.2 fun p q hpq hw => ?_⟩
  exact hne (String.toList_inj.1 (eq_of_wholeToken hc hpq hw))

/-- A link that goes on with a token character. -/
theorem leaves_name2 : Link.parse "$name" = .ok (.session "name") ∧
    Link.parse "$name2" = .ok (.session "name2") ∧
    Leaves "$name" "x" (Marker.opening.spelling ++ "'t'[v: ".toList) "$name2"
      ("]".toList ++ Marker.closing.spelling) := by
  have hk : Link.parse "$name" = .ok (.session "name") := by decide +kernel
  have ht : Link.parse "$name2" = .ok (.session "name2") := by decide +kernel
  have hv : AroundValue (Marker.opening.spelling ++ "'t'[v: ".toList)
      ("]".toList ++ Marker.closing.spelling) := ⟨by rintro c ⟨⟩; decide, by rintro c ⟨⟩; decide⟩
  have hkey : "$name".toList.all fun c => c ≠ ',' ∧ c ≠ ']' := by decide
  have htoken : "$name2".toList.all isTokenChar := by decide +kernel
  exact ⟨hk, ht, ((leaves_link_iff hk ht "x" _ _).2.2 hv
    fun c hc => of_decide_eq_true (List.all_eq_true.1 hkey c hc)).2 (by decide)
    (List.all_eq_true.1 htoken)⟩

/-- A link that goes on with a dot: its start is replaced, and the text is no link any more. -/
theorem not_leaves_dot : Link.parse "$a" = .ok (.session "a") ∧
    Link.parse "$a.b" = .ok (.session "a.b") ∧
    AroundValue (Marker.opening.spelling ++ "'t'[v: ".toList) ("]".toList ++ Marker.closing.spelling) ∧
    ¬ Leaves "$a" "X" (Marker.opening.spelling ++ "'t'[v: ".toList) "$a.b"
      ("]".toList ++ Marker.closing.spelling) ∧
    (apply ⟨[("$a", "X")]⟩ [.source (Marker.opening.spelling ++ "'t'[v: $a.b]".toList ++
      Marker.closing.spelling)]).1 =
      [.source (Marker.opening.spelling ++ "'t'[v: ".toList), .resolved "X".toList,
        .source (".b]".toList ++ Marker.closing.spelling)] := by
  have hk : Link.parse "$a" = .ok (.session "a") := by decide +kernel
  refine ⟨hk, by decide +kernel, ⟨by rintro c ⟨⟩; decide, by rintro c ⟨⟩; decide⟩, fun h => ?_,
    by decide +kernel⟩
  have := (leaves_iff hk "X").1 h (Marker.opening.spelling ++ "'t'[v: ".toList)
    (".b]".toList ++ Marker.closing.spelling) (by decide +kernel) ⟨by decide +kernel, by decide +kernel⟩
  revert this
  unfold Apart
  decide +kernel

end Override

end PortalScript
