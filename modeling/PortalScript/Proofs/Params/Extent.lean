import PortalScript.Proofs.Fragment.Slice
import PortalScript.Proofs.Params.Whole

/-! # How far a parameter list goes

A list goes from its opening bracket to the bracket that closes it, and what stands behind that bracket
has no part in what is read (`scan_extent`). `Ends R c f rest` says so of any reading `R`: it comes to
`rest` right behind a written `c`, whatever `rest` is. Readings that end so can be put one after another
(`Ends.comp`, `Ends.behind`), and so those of values, entries and lists are put together. -/

namespace PortalScript

namespace Fragment
variable {f g mid rest : Fragment} {c d : Char}

/-! ### What is left -/

/-- What can be left of a fragment that is read from the left. -/
def IsRestOf (rest f : Fragment) : Prop := ∃ n ≤ f.length, rest = f.drop n

theorem IsRestOf.refl (f : Fragment) : f.IsRestOf f := ⟨0, Nat.zero_le _, rfl⟩

theorem IsRestOf.trans (h : rest.IsRestOf mid) (h' : mid.IsRestOf f) : rest.IsRestOf f := by
  obtain ⟨m, hm, rfl⟩ := h
  obtain ⟨n, hn, rfl⟩ := h'
  rw [length_drop] at hm
  exact ⟨n + m, by omega, drop_drop f n m⟩

theorem isRestOf_dropWhile (p : Glyph → Bool) (f : Fragment) : (f.dropWhile p).IsRestOf f :=
  ⟨_, (List.takeWhile_prefix p).length_le, dropWhile_eq_drop p f⟩

theorem isRestOf_skipBlank (f : Fragment) : f.skipBlank.IsRestOf f := isRestOf_dropWhile _ f

theorem isRestOf_eat? (h : f.eat? c = some rest) : rest.IsRestOf f := by
  obtain ⟨gap, hg, hend⟩ := eat?_eq_some_iff.1 h
  refine ⟨1, by simp [length, hg], ?_⟩
  rw [drop, hg, hend]
  rfl

/-! ### Readings that end at a character -/

/-- From `f` the reading `R` comes to `rest` right behind a written `c`, and so it does with any other
fragment behind that character. -/
def Ends (R : Fragment → Fragment → Prop) (c : Char) (f rest : Fragment) : Prop :=
  ∃ gs a, f = prepend (gs ++ [a]) rest ∧ a.isWritten c ∧ ∀ left, R (prepend (gs ++ [a]) left) left

namespace Ends
variable {R S : Fragment → Fragment → Prop}

theorem eat (h : f.eat? c = some rest) : Ends (fun g left => g.eat? c = some left) c f rest := by
  obtain ⟨gap, hg, hend⟩ := eat?_eq_some_iff.1 h
  have hc : Glyph.isWritten ⟨c, false, gap⟩ c := by simp [Glyph.isWritten]
  refine ⟨[], ⟨c, false, gap⟩, ?_, hc, fun left => ?_⟩
  · show f = ⟨[_] ++ rest.glyphs, rest.gapAtEnd⟩
    rw [List.singleton_append, ← hg, ← hend]
  · show (prepend [_] left).eat? c = some left
    rw [eat?_prepend_cons, if_pos hc, prepend_nil]

theorem mono (h : Ends R c f rest) (hRS : ∀ {g left}, R g left → S g left) : Ends S c f rest := by
  obtain ⟨gs, a, hf, ha, hR⟩ := h
  exact ⟨gs, a, hf, ha, fun left => hRS (hR left)⟩

theorem comp (h : Ends R c f mid) (h' : Ends S d mid rest) :
    Ends (fun g left => ∃ mid, R g mid ∧ S mid left) d f rest := by
  obtain ⟨gs, a, rfl, ha, hR⟩ := h
  obtain ⟨hs, b, rfl, hb, hS⟩ := h'
  refine ⟨gs ++ [a] ++ hs, b, ?_, hb, fun left => ⟨prepend (hs ++ [b]) left, ?_, hS left⟩⟩
  · rw [← prepend_append, ← List.append_assoc]
  · rw [List.append_assoc, prepend_append]
    exact hR _

/-- A reading behind glyphs that are passed over, which are the same then. -/
theorem behind {p : Glyph → Bool} (h : Ends R c (f.dropWhile p) rest) :
    Ends (fun g left => g.takeWhile p = f.takeWhile p ∧ R (g.dropWhile p) left) c f rest := by
  obtain ⟨gs, a, hdrop, ha, hR⟩ := h
  obtain ⟨b, bs, hb⟩ := List.exists_cons_of_ne_nil (List.append_ne_nil_of_right_ne_nil gs
    (List.cons_ne_nil a []))
  have htake : ∀ x ∈ f.glyphs.takeWhile p, p x := fun x hx => List.mem_takeWhile_imp hx
  have hstop : ¬ p b := by
    have hglyphs : f.glyphs.dropWhile p = b :: (bs ++ rest.glyphs) := by
      rw [hb] at hdrop
      exact congrArg Fragment.glyphs hdrop
    exact not_of_dropWhile hglyphs
  have hf : f = prepend (f.glyphs.takeWhile p ++ b :: bs) rest := by
    rw [prepend_append, ← hb, ← hdrop, prepend, dropWhile, List.takeWhile_append_dropWhile]
  refine ⟨f.glyphs.takeWhile p ++ gs, a, ?_, ha, fun left => ⟨?_, ?_⟩⟩
  · rw [List.append_assoc, hb, ← hf]
  · rw [List.append_assoc, hb, takeWhile_prepend_stop htake hstop]
    conv_rhs => rw [hf, takeWhile_prepend_stop htake hstop]
  · rw [List.append_assoc, hb, dropWhile_prepend_stop htake hstop, ← hb]
    exact hR left

/-- The last symbol that is read is the character at which reading ends, and a fragment with the same
symbols and gaps up to there is read in the same way. -/
theorem extent {i n : Nat} (h : Ends R c (f.drop i) (f.drop (i + n))) (hle : i + n ≤ f.length) :
    0 < n ∧ f.symbols[i + n - 1]? = some (c, false) ∧ ∀ g : Fragment,
      (∀ k, i ≤ k → k < i + n → g.symbols[k]? = f.symbols[k]? ∧ (k ∈ g.gaps ↔ k ∈ f.gaps)) →
      R (g.drop i) (g.drop (i + n)) := by
  obtain ⟨gs, a, hf, ha, hR⟩ := h
  have hglyphs : (f.drop i).glyphs = gs ++ [a] ++ (f.drop (i + n)).glyphs := congrArg glyphs hf
  have hn : n = gs.length + 1 := by
    have hlength := congrArg List.length hglyphs
    have hi := length_drop i f
    have hj := length_drop (i + n) f
    simp only [length, List.length_append, List.length_singleton] at hlength hi hj hle
    omega
  refine ⟨by omega, ?_, fun g hg => ?_⟩
  · have hlast := getElem?_symbols_add f i gs.length
    have hsymbol : a.symbol = (c, false) := by
      simpa [Glyph.isWritten, Glyph.symbol, and_comm] using ha
    rw [hglyphs, List.append_assoc, List.getElem?_append_right (Nat.le_refl _), Nat.sub_self] at hlast
    rw [hn]
    exact hlast.trans (congrArg some hsymbol)
  · have htake : (f.glyphs.drop i).take n = gs ++ [a] := by
      refine (congrArg (List.take n) hglyphs).trans (List.take_left' ?_)
      rw [hn, List.length_append, List.length_singleton]
    rw [drop_eq_prepend g i n, take_drop_glyphs_congr hg, htake]
    exact hR _

end Ends

theorem skipBlank_skipBlank (f : Fragment) : f.skipBlank.skipBlank = f.skipBlank := by
  rw [skipBlank, skipBlank, dropWhile, dropWhile, List.dropWhile_idempotent]

end Fragment

namespace Params

open Fragment

variable {f rest behind : Fragment} {value : Fragment} {entry : String × Fragment}
  {entries : List (String × Fragment)} {c : Char} {ps : Params}

/-! ### What the scanners leave -/

theorem scanQuoted_isRestOf (f : Fragment) : (scanQuoted f).2.IsRestOf f := by
  have hdrop := isRestOf_dropWhile (!·.isWritten '\'') f
  unfold scanQuoted dropUntil
  split
  · exact hdrop
  · rename_i rest h
    have hrest := (isRestOf_skipBlank rest).trans ((isRestOf_eat? h).trans hdrop)
    dsimp only
    split <;> exact hrest

theorem scanBare_isRestOf (key : String) (f : Fragment) : (scanBare key f).2.IsRestOf f := by
  have hdrop := isRestOf_dropWhile isBareGlyph f
  unfold scanBare
  dsimp only
  split <;> exact hdrop

theorem scanEntry_isRestOf (f : Fragment) : (scanEntry f).2.IsRestOf f := by
  have hkey := isRestOf_dropWhile isKeyGlyph f
  have hskip := (isRestOf_skipBlank (f.dropWhile isKeyGlyph)).trans hkey
  unfold scanEntry
  dsimp only
  split
  · exact hkey
  · split
    · exact hskip
    · rename_i behind h
      have hbehind := (isRestOf_skipBlank behind).trans ((isRestOf_eat? h).trans hskip)
      split
      · rename_i inner hq
        exact (scanQuoted_isRestOf inner).trans ((isRestOf_eat? hq).trans hbehind)
      · exact (scanBare_isRestOf _ behind.skipBlank).trans hbehind

theorem scanEntries_isRestOf (ps : Params) (f : Fragment) : (scanEntries ps f).2.IsRestOf f := by
  have hentry {f : Fragment} {result : Except ParseError.Cause (String × Fragment)} {behind : Fragment}
      (he : scanEntry f.skipBlank = (result, behind)) : behind.IsRestOf f := by
    have hrest := scanEntry_isRestOf f.skipBlank
    rw [he] at hrest
    exact hrest.trans (isRestOf_skipBlank f)
  fun_induction scanEntries ps f with
  | case1 ps f rest h => exact (isRestOf_eat? h).trans (isRestOf_skipBlank f)
  | case2 ps f h he => exact isRestOf_skipBlank f
  | case3 ps f h hne cause rest he => exact hentry he
  | case4 ps f h hne key value behind he next hc ih =>
    exact ih.trans ((isRestOf_eat? hc).trans ((isRestOf_skipBlank behind).trans (hentry he)))
  | case5 ps f h hne key value behind he hc rest hb =>
    exact (isRestOf_eat? hb).trans ((isRestOf_skipBlank behind).trans (hentry he))
  | case6 ps f h hne key value behind he hc hb => exact (isRestOf_skipBlank behind).trans (hentry he)

theorem scan_isRestOf (f : Fragment) : (scan f).2.IsRestOf f := by
  unfold scan
  split
  · exact .refl f
  · rename_i inner h
    exact (scanEntries_isRestOf ∅ inner).trans (isRestOf_eat? h)

/-! ### Where a list ends -/

theorem skipBlank_dropWhile_bare (f : Fragment) :
    (f.dropWhile isBareGlyph).skipBlank = f.dropWhile isBareGlyph := by
  rw [dropWhile, skipBlank, dropWhile]
  cases hd : f.glyphs.dropWhile isBareGlyph with
  | nil => rfl
  | cons a as => rw [List.dropWhile_cons_of_neg (not_isBlank_of_not_isBareGlyph (not_of_dropWhile hd)).1]

/-- A quote at the start is text of a bare value. -/
theorem startsAt_quote_takeWhile (f : Fragment) :
    (f.takeWhile isBareGlyph).startsAt '\'' = f.startsAt '\'' := by
  obtain ⟨gs, e⟩ := f
  cases gs with
  | nil => rfl
  | cons a gs =>
    by_cases ha : isBareGlyph a
    · simp [startsAt, takeWhile, ha]
    · have hquote := (not_isBlank_of_not_isBareGlyph ha).2
      simp [startsAt, takeWhile, ha, hquote]

section
variable (hc : c = ',' ∨ c = ']')
include hc

theorem ReadsValue.ends (h : ReadsValue f value behind) (hb : behind.skipBlank.eat? c = some rest) :
    Ends (fun g left => ∃ behind, ReadsValue g value behind ∧ behind.skipBlank.eat? c = some left)
      c f rest := by
  cases h with
  | @quoted inner close ho hq he =>
    rw [skipBlank_skipBlank] at hb
    have hclose := (Ends.eat hq).behind.comp (Ends.eat hb).behind
    refine ((Ends.eat ho).comp hclose).mono ?_
    rintro g left ⟨inner', ho', close', ⟨htake, hq'⟩, -, hb'⟩
    replace hb' : close'.skipBlank.eat? c = some left := hb'
    refine ⟨close'.skipBlank, ?_, (skipBlank_skipBlank close').symm ▸ hb'⟩
    have he' : close'.skipBlank.startsAt ',' || close'.skipBlank.startsAt ']' ||
        close'.skipBlank.isEmpty := by
      have hstart := startsAt_iff.2 ⟨left, hb'⟩
      rcases hc with rfl | rfl <;> simp [hstart]
    have hvalue := ReadsValue.quoted ho' hq' he'
    rwa [takeUntil, htake] at hvalue
  | bare ho hv =>
    rw [skipBlank_dropWhile_bare] at hb
    refine (Ends.eat hb).behind.mono ?_
    rintro g left ⟨htake, hb'⟩
    have ho' : g.eat? '\'' = none := by
      have hstart := startsAt_quote_takeWhile g
      rw [htake, startsAt_quote_takeWhile, startsAt_eq_isSome, startsAt_eq_isSome, ho] at hstart
      exact Option.not_isSome_iff_eq_none.1 (Bool.eq_false_iff.1 hstart.symm)
    refine ⟨_, ?_, (skipBlank_dropWhile_bare g).symm ▸ hb'⟩
    rw [← htake] at hv ⊢
    exact .bare ho' hv

theorem ReadsEntry.ends (h : ReadsEntry f entry behind) (hb : behind.skipBlank.eat? c = some rest) :
    Ends (fun g left => ∃ behind, ReadsEntry g entry behind ∧ behind.skipBlank.eat? c = some left)
      c f rest := by
  cases h with
  | mk hk hcolon hv =>
    have hname := (Ends.eat hcolon).behind.behind
    refine (hname.comp (hv.ends hc hb).behind).mono ?_
    rintro g left ⟨mid, ⟨hkey, -, hcolon'⟩, -, behind', hv', hb'⟩
    refine ⟨behind', ?_, hb'⟩
    rw [← hkey] at hk ⊢
    exact .mk hk hcolon' hv'

end

theorem ReadsList.ends (h : ReadsList f entries rest) :
    Ends (fun g left => ReadsList g entries left) ']' f rest := by
  induction h with
  | close hb =>
    refine (Ends.eat hb).behind.mono ?_
    rintro g left ⟨-, hb'⟩
    exact .close hb'
  | last he hb =>
    refine (he.ends (.inr rfl) hb).behind.mono ?_
    rintro g left ⟨-, behind, he', hb'⟩
    exact .last he' hb'
  | more he hc hl ih =>
    refine ((he.ends (.inl rfl) hc).behind.comp ih).mono ?_
    rintro g left ⟨next, ⟨-, behind, he', hc'⟩, hl'⟩
    exact .more he' hc' hl'

theorem scan_ends (h : scan f = (.ok ps, rest)) :
    Ends (fun g left => scan g = (.ok ps, left)) ']' f rest := by
  obtain ⟨inner, entries, ho, hl, rfl⟩ := scan_ok_iff.1 h
  refine ((Ends.eat ho).comp hl.ends).mono ?_
  rintro g left ⟨inner', ho', hl'⟩
  exact scan_ok_iff.2 ⟨inner', entries, ho', hl', rfl⟩

/-- From any place in a fragment a list is read up to a place that is neither before it nor behind the
end, and what is left is all from there on, also after a refusal. A list that is read starts with a written
opening bracket and ends with a written closing one. It is read in the same way, with the same
parameters and up to the same place, in every fragment that has the same symbols from the one bracket to
the other and gaps at the same places up to the closing one. -/
theorem scan_extent (f : Fragment) (i : Nat) (hi : i ≤ f.length) :
    ∃ j, i ≤ j ∧ j ≤ f.length ∧ (scan (f.drop i)).2 = f.drop j ∧
      ∀ ps, (scan (f.drop i)).1 = .ok ps →
        i + 1 < j ∧ f.symbols[i]? = some ('[', false) ∧ f.symbols[j - 1]? = some (']', false) ∧
        ∀ g : Fragment,
          (∀ k, i ≤ k → k < j → g.symbols[k]? = f.symbols[k]? ∧ (k ∈ g.gaps ↔ k ∈ f.gaps)) →
          scan (g.drop i) = (.ok ps, g.drop j) := by
  obtain ⟨n, hle, hrest⟩ := scan_isRestOf (f.drop i)
  rw [length_drop] at hle
  rw [drop_drop] at hrest
  refine ⟨i + n, Nat.le_add_right i n, by omega, hrest, fun ps hps => ?_⟩
  have hscan : scan (f.drop i) = (.ok ps, f.drop (i + n)) := Prod.ext hps hrest
  obtain ⟨hpos, hclose, hread⟩ := (scan_ends hscan).extent (by omega)
  have hopen : f.symbols[i]? = some ('[', false) := by
    obtain ⟨inner, entries, ho, -, -⟩ := scan_ok_iff.1 hscan
    obtain ⟨gap, hfirst, -⟩ := eat?_eq_some_iff.1 ho
    have hsymbol := getElem?_symbols_add f i 0
    rwa [hfirst] at hsymbol
  refine ⟨?_, hopen, hclose, hread⟩
  -- one symbol cannot be both brackets
  by_contra hshort
  obtain rfl : n = 1 := by omega
  rw [Nat.add_sub_cancel, hopen] at hclose
  exact absurd hclose (by decide)

/-- With other text before the list, and behind it a gap and one more bracket. -/
theorem scan_extent_between :
    let f := written ['-', '[', 'a', ':', ' ', '1', ']']
    let g := ofText ['+'] true ++ written ['[', 'a', ':', ' ', '1', ']'] ++ ofText [] true ++ written [']']
    1 ≤ f.length ∧ scan (g.drop 1) = (.ok ⟨[("a", written ['1'])]⟩, g.drop 7) := by
  intro f g
  have hentry : ReadsEntry (f.drop 2).skipBlank ("a", written ['1']) (f.drop 6) :=
    .mk (by decide) rfl (.bare rfl (by decide))
  have hf : scan (f.drop 1) = (.ok ⟨[("a", written ['1'])]⟩, f.drop 7) :=
    scan_ok_iff.2 ⟨f.drop 2, _, rfl, .last hentry rfl, rfl⟩
  obtain ⟨j, hij, hj, hrest, hread⟩ := scan_extent f 1 (by decide)
  have hplace : j = 7 := by
    have hlength := congrArg length hrest
    rw [hf, length_drop, length_drop] at hlength
    have h7 : f.length = 7 := rfl
    omega
  subst hplace
  have hsame : ∀ k < 7, 1 ≤ k → g.symbols[k]? = f.symbols[k]? ∧ (k ∈ g.gaps ↔ k ∈ f.gaps) := by
    decide
  obtain ⟨-, -, -, hg⟩ := hread _ (congrArg Prod.fst hf)
  exact ⟨by decide, hg g fun k hk hk' => hsame k hk' hk⟩

end Params

end PortalScript
