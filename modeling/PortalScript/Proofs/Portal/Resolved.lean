import PortalScript.Proofs.Fragment.Trim
import PortalScript.Proofs.Params.Resolved
import PortalScript.Proofs.Portal.Prefix
import PortalScript.Proofs.Table.Entries

/-! # Portals around resolved text

A portal is read with some resolved text in a parameter value. `parse_around_iff` says for which
other texts in its place the portal is read as the same one, the value of that parameter aside:
for all but blank ones at the start of a bare value. These are skipped with the blanks around them,
and the portal is read as if they were not there. An empty text counts just if the value ends right
behind it. -/

namespace PortalScript

namespace Fragment

/-- Resolved text between source texts. -/
def around (pre r post : List Char) : Fragment := written pre ++ hole r post

variable {s a b z r : List Char} {x : Char}

theorem glyphs_around (a r b : List Char) : (around a r b).glyphs =
    a.map Glyph.ofScript ++ (r.map (⟨·, true, false⟩) ++ markGap r.isEmpty (b.map Glyph.ofScript)) := by
  rw [around, written_append, hole_eq]

theorem chars_around (a r b : List Char) : (around a r b).chars = a ++ r ++ b := by
  rw [chars, glyphs_around]
  cases b <;> simp [markGap, Glyph.ofScript, Function.comp_def]

theorem trim_around (hs : ∀ c ∈ s, Text.isBlank c) (hz : ∀ c ∈ z, Text.isBlank c)
    (hne : r ++ b ≠ []) (hh : ∀ c ∈ (a ++ r ++ b).head?, ¬ Text.isBlank c)
    (hl : ∀ c ∈ (a ++ r ++ b).getLast?, ¬ Text.isBlank c) :
    (around (s ++ a) r (b ++ z)).trim = around a r b := by
  have hgap (a b : List Char) (h : r ++ b ≠ []) : (around a r b).gapAtEnd = false := by
    rw [around, written_append, hole_eq]
    cases r <;> cases b <;> simp_all
  have hg : around a r b = ⟨(around a r b).glyphs, false⟩ := by rw [← hgap a b hne]
  have hc : (around a r b).glyphs.map Glyph.char = a ++ r ++ b := chars_around a r b
  rw [hg]
  refine trim_eq (a := s.map Glyph.ofScript) (s := z) ?_ ?_ ?_ ?_ ?_ ?_ hz
  · simp only [glyphs_around, List.map_append, List.append_assoc]
    cases b with
    | nil =>
      have hr : r ≠ [] := by simpa using hne
      cases z <;> simp [markGap, List.isEmpty_eq_false_iff.2 hr]
    | cons c b => simp [markGap]
  · refine hgap _ _ ?_
    rw [← List.append_assoc]
    exact fun h => hne (List.append_eq_nil_iff.1 h).1
  · intro g hg
    obtain ⟨c, hc, rfl⟩ := List.mem_map.1 hg
    exact hs c hc
  · intro h
    have hn : a ++ r ++ b = [] := by rw [← hc, h]; rfl
    rw [List.append_assoc, List.append_eq_nil_iff] at hn
    exact hne hn.2
  · intro g hg
    exact hh _ (by rw [← hc, List.head?_map]; exact Option.mem_map_of_mem _ hg)
  · intro g hg
    exact hl _ (by rw [← hc, List.getLast?_map]; exact Option.mem_map_of_mem _ hg)

end Fragment

namespace Table
variable {α : Type} {t t' : Table α} {key k : String} {v v' : α}

/-- Two tables list the same names in the same order and give them the same values, that of `key`
aside. -/
def SameBut (key : String) (t t' : Table α) : Prop :=
  t'.keys = t.keys ∧ ∀ k, k ≠ key → t'.get? k = t.get? k

theorem keys_insert_congr (h : t'.keys = t.keys) (k : String) (v v' : α) :
    (t'.insert k v').keys = (t.insert k v).keys := by
  rw [keys_insert, keys_insert, h]

theorem SameBut.insert (h : t.SameBut key t') (hv : k ≠ key → v' = v) :
    (t.insert k v).SameBut key (t'.insert k v') := by
  refine ⟨keys_insert_congr h.1 k v v', fun k' hk' => ?_⟩
  rw [get?_insert, get?_insert, h.2 k' hk']
  by_cases hk : k = k'
  · rw [if_pos hk, if_pos hk, hv (hk ▸ hk')]
  · rw [if_neg hk, if_neg hk]

theorem SameBut.foldl (h : t.SameBut key t') (es : List (String × α)) :
    (es.foldl (fun t (k, v) => t.insert k v) t).SameBut key
      (es.foldl (fun t (k, v) => t.insert k v) t') := by
  induction es generalizing t t' with
  | nil => exact h
  | cons e es ih => exact ih (h.insert fun _ => rfl)

theorem sameBut_ofList (before after : List (String × α)) (key : String) (v v' : α) :
    (ofList (before ++ (key, v) :: after)).SameBut key (ofList (before ++ (key, v') :: after)) := by
  unfold ofList
  rw [List.foldl_append, List.foldl_append]
  refine SameBut.foldl (SameBut.insert ⟨rfl, fun _ _ => rfl⟩ fun h => absurd rfl h) after

end Table

namespace Portal

open Fragment

/-- The same portal, the value of one parameter aside: the same head, the same parameter names in
the same order, and the same values of all others. -/
def SameBut (key : String) (p q : Portal) : Prop :=
  q.head = p.head ∧ p.params.SameBut key q.params

/-- The portal that `f` reads as has, in an entry under `key`, a value with resolved text in it. -/
def Holds (f : Fragment) (key : String) (value : Fragment) : Prop :=
  ∃ head entries, Reads f.trim head entries ∧ (key, value) ∈ entries ∧ ∃ a ∈ value.glyphs, a.resolved

variable {f : Fragment} {a a' b w r pre post : List Char} {head h : Head}
  {before es : List (String × Fragment)} {key : String} {value : Fragment} {p q q' : Portal}

theorem SameBut.trans (h : SameBut key p q) (h' : SameBut key q q') : SameBut key p q' :=
  ⟨h'.1.trans h.1, h'.2.1.trans h.2.1, fun k hk => (h'.2.2 k hk).trans (h.2.2 k hk)⟩

/-- Source text that leads to a value settles all of the portal but what is read from there on. -/
theorem reads_iff (ho : Opens a head a') (hl : Params.Leads a' before key w) (f : Fragment) :
    Reads (written a ++ f) h es ↔ h = head ∧ ∃ value behind after rest,
      es = before ++ (key, value) :: after ∧
      Params.ReadsValue (written w ++ f).skipBlank value behind ∧
      Params.ReadsTail behind after rest ∧ rest.skipBlank.isEmpty := by
  simp only [written_append_eq_prepend]
  exact (opens_iff.1 ho).reads_iff (Params.leads_iff.1 hl) f

/-- Where the value at hand may be read differently with the same text left behind it, the portal is
the same but for that value. -/
theorem SameBut.of_reads (ho : Opens a head a') (hl : Params.Leads a' before key w) {f f' : Fragment}
    (hv : ∀ behind, (∃ value, Params.ReadsValue (written w ++ f).skipBlank value behind) →
      ∃ value, Params.ReadsValue (written w ++ f').skipBlank value behind)
    (hr : Reads (written a ++ f) h es) : ∃ es', Reads (written a ++ f') h es' ∧
      SameBut key (h.portal (.ofList es)) (h.portal (.ofList es')) := by
  obtain ⟨rfl, value, behind, after, rest, rfl, hval, ht, he⟩ := (reads_iff ho hl f).1 hr
  obtain ⟨value', hval'⟩ := hv behind ⟨value, hval⟩
  refine ⟨_, (reads_iff ho hl f').2 ⟨rfl, value', behind, after, rest, rfl, hval', ht, he⟩, ?_⟩
  exact ⟨by simp, by simpa using Table.sameBut_ofList before after key value value'⟩

theorem holds_of_parse (h : parse f = .ok p) (hm : (key, value) ∈ p.params.entries)
    (hr : ∃ a ∈ value.glyphs, a.resolved) : Holds f key value := by
  obtain ⟨head, es, hreads, rfl⟩ := parse_ok_iff.1 h
  rw [params_portal] at hm
  exact ⟨head, es, hreads, Table.mem_of_mem_ofList hm, hr⟩

/-- A portal with resolved text `x` in a value, taken apart: `a` and `b` are the source texts around
`x` without the blanks around them, `list` is what `a` has of the parameter list, and `w` what it has
of the value. -/
structure Place (pre : List Char) (x : Char) (post : List Char) (key : String) (value : Fragment) where
  (front a b back list w : List Char)
  (head : Head)
  (before after : List (String × Fragment))
  (behind rest : Fragment)
  pre_eq : pre = front ++ a
  post_eq : post = b ++ back
  front_blank : ∀ c ∈ front, Text.isBlank c
  back_blank : ∀ c ∈ back, Text.isBlank c
  head_not_blank : ∀ c ∈ a.head?, ¬ Text.isBlank c
  last_not_blank : ∀ c ∈ b.getLast?, ¬ Text.isBlank c
  a_ne_nil : a ≠ []
  b_ne_nil : b ≠ []
  opens : Opens a head list
  leads : Params.Leads list before key w
  reads : Reads (around pre [x] post).trim head (before ++ (key, value) :: after)
  holds : Params.HoldsSolid w (hole [x] b) (written b) value behind
  tail : Params.ReadsTail behind after rest
  finished : rest.skipBlank.isEmpty

theorem Holds.place {x : Char} (hx : ¬ Text.isBlank x) (hp : Holds (around pre [x] post) key value) :
    Nonempty (Place pre x post key value) := by
  obtain ⟨head, es, hr, hm, hres⟩ := hp
  obtain ⟨s, a, rfl, hs, ha⟩ := exists_blank_append pre
  obtain ⟨b, z, rfl, hz, hb⟩ := exists_append_blank post
  have hf := solid_hole hx b
  have ht : (around (s ++ a) [x] (b ++ z)).trim = written a ++ hole [x] b := by
    refine trim_around hs hz (by simp) ?_ ?_
    · cases a <;> simp_all
    · rcases List.eq_nil_or_concat' b with rfl | ⟨b, c, rfl⟩
      · simpa using hx
      · rw [← List.append_assoc, List.getLast?_concat]
        simpa using hb
  have hr' := hr
  rw [ht] at hr'
  obtain ⟨list, ho⟩ := exists_opens hf hr' ⟨_, hm, hres⟩
  obtain ⟨-, rest, hl, he⟩ := (ho _ _ _).1 hr'
  obtain ⟨before, key', value', after, w, hL, rfl, hv, hbefore⟩ := Params.exists_leads hf hl ⟨_, hm, hres⟩
  obtain ⟨value'', behind, after', heq, hval, htail⟩ := (hL _ _ _).1 hl
  cases List.append_cancel_left heq
  have hhold := hval.holdsSolid hf hv
  have hbehind : ∀ g ∈ behind.glyphs, g.resolved = false := fun g hg =>
    hf.rest_written g (hhold.behind_suffix.subset hg)
  -- no other entry has resolved text in its value
  have hkey : (key, value) = (key', value') := by
    obtain ⟨g, hg, hr⟩ := hres
    rcases List.mem_append.1 hm with h | h
    · rw [hbefore _ h g hg] at hr
      cases hr
    · rcases List.mem_cons.1 h with h | h
      · exact h
      · rw [(htail.isValueOf _ h).not_resolved hbehind g hg] at hr
        cases hr
  cases hkey
  refine ⟨⟨s, a, b, z, list, w, head, before, after, behind, rest, rfl, rfl, hs, hz, ha, hb, ?_, ?_, ho,
    hL, hr, hhold, htail, he⟩⟩
  · rintro rfl
    cases hr' with
    | data hq =>
      obtain ⟨_, h, -⟩ := hf.eat?_append hq
      cases h
    | action hq =>
      obtain ⟨_, h, -⟩ := hf.eat?_append hq
      cases h
  · rintro rfl
    have hnil : behind.glyphs = [] := List.suffix_nil.1 hhold.behind_suffix
    rcases htail with ⟨-, h⟩ | ⟨next, h, -⟩
    all_goals simp [skipBlank, dropWhile, hnil, eat?] at h

namespace Place
variable {x : Char} (pl : Place pre x post key value)
include pl

theorem trim_eq (r : List Char) : (around pre r post).trim = written pl.a ++ hole r pl.b := by
  have h : around pre r post = around (pl.front ++ pl.a) r (pl.b ++ pl.back) := by
    rw [← pl.pre_eq, ← pl.post_eq]
  rw [h]
  refine trim_around pl.front_blank pl.back_blank ?_ ?_ ?_
  · simp [pl.b_ne_nil]
  · intro c hc
    rw [List.append_assoc, List.head?_append_of_ne_nil _ pl.a_ne_nil] at hc
    exact pl.head_not_blank c hc
  · intro c hc
    rw [List.getLast?_append_of_ne_nil _ pl.b_ne_nil] at hc
    exact pl.last_not_blank c hc

theorem trim_written : (written (pre ++ post)).trim = written pl.a ++ written pl.b := by
  have h : pre ++ post = pl.front ++ (pl.a ++ pl.b) ++ pl.back := by
    rw [List.append_assoc, List.append_assoc, ← pl.post_eq, ← List.append_assoc, ← pl.pre_eq]
  rw [h, Fragment.trim_written pl.front_blank pl.back_blank (by simp [pl.a_ne_nil])]
  · exact (written_append_eq pl.a pl.b).symm
  · intro c hc
    rw [List.head?_append_of_ne_nil _ pl.a_ne_nil] at hc
    exact pl.head_not_blank c hc
  · intro c hc
    rw [List.getLast?_append_of_ne_nil _ pl.b_ne_nil] at hc
    exact pl.last_not_blank c hc

theorem keeps_iff (r : List Char) :
    Params.Keeps value r pl.b ↔ Params.Keeps value r post := by
  have h : post.head? = pl.b.head? := by
    conv_lhs => rw [pl.post_eq]
    exact List.head?_append_of_ne_nil _ pl.b_ne_nil
  unfold Params.Keeps
  rw [h]

theorem parse_of_keeps (hx : ¬ Text.isBlank x) (hp : parse (around pre [x] post) = .ok p)
    {r : List Char} (hk : Params.Keeps value r post) :
    ∃ q, parse (around pre r post) = .ok q ∧ SameBut key p q := by
  obtain ⟨value', behind', hv, hb⟩ := pl.holds.hole_of_keeps hx ((pl.keeps_iff r).2 hk)
  have hr : Reads (written pl.a ++ hole r pl.b) pl.head (pl.before ++ (key, value') :: pl.after) :=
    (reads_iff pl.opens pl.leads _).2
      ⟨rfl, value', behind', pl.after, pl.rest, rfl, hv, (Params.readsTail_congr hb).2 pl.tail,
        pl.finished⟩
  rw [← pl.trim_eq] at hr
  have hp' := parse_ok_iff.2 ⟨_, _, pl.reads, rfl⟩
  rw [hp] at hp'
  cases hp'
  refine ⟨_, parse_ok_iff.2 ⟨_, _, hr, rfl⟩, by simp, ?_⟩
  simpa using Table.sameBut_ofList pl.before pl.after key value value'

theorem parse_of_not_keeps (hx : ¬ Text.isBlank x) {r : List Char}
    (hk : ¬ Params.Keeps value r post) (p : Portal) :
    (∃ q, parse (around pre r post) = .ok q ∧ SameBut key p q) ↔
      ∃ q, parse (.written (pre ++ post)) = .ok q ∧ SameBut key p q := by
  rw [← pl.keeps_iff] at hk
  obtain ⟨hr, hs, hd⟩ : Text.allBlank r ∧ value.startsResolved ∧
      ¬ (r = [] ∧ (pl.b.head? = some ',' ∨ pl.b.head? = some ']')) := by
    simpa [Params.Keeps, not_or] using hk
  have hw := (pl.holds.startsResolved_iff (solid_hole hx pl.b)).1 hs
  have hiff := Params.readsValue_hole_blank hr hw pl.b_ne_nil hd
  constructor
  · rintro ⟨q, hq, hpq⟩
    obtain ⟨head, es, hreads, rfl⟩ := parse_ok_iff.1 hq
    rw [pl.trim_eq] at hreads
    obtain ⟨es', hes, hsame⟩ := SameBut.of_reads pl.opens pl.leads (fun b => (hiff b).1) hreads
    rw [← pl.trim_written] at hes
    exact ⟨_, parse_ok_iff.2 ⟨_, _, hes, rfl⟩, hpq.trans hsame⟩
  · rintro ⟨q, hq, hpq⟩
    obtain ⟨head, es, hreads, rfl⟩ := parse_ok_iff.1 hq
    rw [pl.trim_written] at hreads
    obtain ⟨es', hes, hsame⟩ := SameBut.of_reads pl.opens pl.leads (fun b => (hiff b).2) hreads
    rw [← pl.trim_eq] at hes
    exact ⟨_, parse_ok_iff.2 ⟨_, _, hes, rfl⟩, hpq.trans hsame⟩

end Place

/-- A portal is read with the resolved text `x` in a value of the parameter `key`. Resolved text `r`
in its place is read as the same portal, that parameter's value aside, just if `r` is kept as part of
the value, or the portal happens to be the same without it. -/
theorem parse_around_iff (hp : parse (around pre ['x'] post) = .ok p)
    (hx : Holds (around pre ['x'] post) key value) (r : List Char) :
    (∃ q, parse (around pre r post) = .ok q ∧ SameBut key p q) ↔
      Params.Keeps value r post ∨ ∃ q, parse (.written (pre ++ post)) = .ok q ∧ SameBut key p q := by
  have hb : ¬ Text.isBlank 'x' := by decide
  obtain ⟨pl⟩ := hx.place hb
  by_cases hk : Params.Keeps value r post
  · exact ⟨fun _ => .inl hk, fun _ => pl.parse_of_keeps hb hp hk⟩
  · rw [pl.parse_of_not_keeps hb hk]
    exact ⟨.inr, fun h => h.resolve_left hk⟩

/-- Brackets, commas and quotes that were resolved are text of the value. -/
theorem parse_around_brackets :
    Holds (around "'t'[a: ".toList ['x'] ", b: 1]".toList) "a" ⟨[⟨'x', true, false⟩], false⟩ ∧
      ∃ q, parse (around "'t'[a: ".toList "'], b: [".toList ", b: 1]".toList) = .ok q ∧
        SameBut "a" (.data ⟨"t", ⟨[("a", ⟨[⟨'x', true, false⟩], false⟩), ("b", .written ['1'])]⟩⟩) q := by
  have hp : parse (around "'t'[a: ".toList ['x'] ", b: 1]".toList) =
      .ok (.data ⟨"t", ⟨[("a", ⟨[⟨'x', true, false⟩], false⟩), ("b", .written ['1'])]⟩⟩) := by decide +kernel
  have hx := holds_of_parse hp (List.mem_cons_self ..) ⟨_, List.mem_cons_self .., rfl⟩
  exact ⟨hx, (parse_around_iff hp hx _).2 (.inl (.inl (by decide)))⟩

/-- A value of which nothing is left is missing where blanks stand between it and the bracket, though
a value with text in its place is read. -/
theorem parse_around_empty :
    let v : Fragment := ⟨[⟨'x', true, false⟩], false⟩
    parse (around "'t'[a: ".toList ['x'] " ]".toList) = .ok (.data ⟨"t", ⟨[("a", v)]⟩⟩) ∧
      Holds (around "'t'[a: ".toList ['x'] " ]".toList) "a" v ∧
      parse (around "'t'[a: ".toList [] " ]".toList) = .error ⟨.missingValue "a", "[a:  ]"⟩ := by
  have hp : parse (around "'t'[a: ".toList ['x'] " ]".toList) =
      .ok (.data ⟨"t", ⟨[("a", ⟨[⟨'x', true, false⟩], false⟩)]⟩⟩) := by decide +kernel
  refine ⟨hp, holds_of_parse hp (List.mem_cons_self ..) ⟨_, List.mem_cons_self .., rfl⟩, ?_⟩
  decide +kernel

end Portal

end PortalScript
