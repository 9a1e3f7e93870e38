import PortalScript.Proofs.Mount.Grammar
import PortalScript.Proofs.Override.Links
import PortalScript.Proofs.Params.Bare
import PortalScript.Proofs.Resolution.Mounted

/-! # Which conduits links can address

A directive mounts under any name without a quote. A link can name a conduit just if its alias is not
empty, has neither blanks nor colons, and does not start like a turn reference (`parse_token_iff`), and a
parameter list can hold that link just if the alias has neither commas nor closing brackets besides
(`parse_link_iff`). What is mounted under a name that links can address is what they read. -/

namespace PortalScript

namespace Value
variable {raw inner : Fragment} {l : Link} {token : String}

theorem token_of_classify (h : classify raw = .ok (.link l token)) :
    token = raw.trim.text ∧ Link.isToken raw.trim.chars := by
  unfold classify at h
  dsimp only at h
  split at h
  · cases h
  split at h
  · cases h
  split at h
  · rename_i ht
    obtain ⟨l', -, he⟩ := Params.map_eq_ok_iff.1 h
    cases he
    exact ⟨rfl, ht⟩
  split at h <;> cases h

theorem classify_quote_ne_link : classify inner.quote ≠ .ok (.link l token) := by
  intro h
  have htoken := (token_of_classify h).2
  have hhead := Fragment.head?_trim (f := inner.quote) rfl (by decide)
  rw [Link.isToken, Fragment.chars, List.head?_map, hhead] at htoken
  exact absurd htoken (by decide)

end Value

namespace TurnLink
variable {name : List Char}

/-- What a link can have before its colon as the alias of a conduit. -/
structure IsAlias (name : List Char) : Prop where
  ne_nil : name ≠ []
  not_blank : ∀ c ∈ name, ¬ Text.isBlank c
  not_colon : ':' ∉ name
  not_ref : ¬ startsLikeRef name

theorem isAlias_iff : IsAlias name ↔ IsAliasOf name false :=
  ⟨fun h => ⟨h.ne_nil, h.not_blank, h.not_colon, fun _ => h.not_ref⟩,
    fun h => ⟨h.ne_nil, h.not_blank, h.not_colon, h.not_ref rfl⟩⟩

theorem read_alias {l : TurnLink} (h : read (name ++ ":USER-1".toList) = .ok l) :
    IsAlias name ∧ l = ⟨some (.ofList name), ⟨.user, 1⟩, false⟩ := by
  obtain ⟨hl, digits, hd, hs⟩ := read_ok_iff_segments.1 h
  obtain ⟨init, last, first, rest, hname, href, hbody⟩ := Text.splitOn_append ':' name ":USER-1".toList
  have hsplit : Text.splitOn ':' ":USER-1".toList = [[], "USER-1".toList] := by decide
  rw [hsplit] at href
  cases href
  rw [List.append_nil] at hbody
  obtain ⟨conduit, r, thoughts⟩ := l
  cases thoughts with
  | true =>
    -- the reference is no specifier
    have hlast := congrArg List.getLast? (hbody.symm.trans hs)
    simp [segments] at hlast
  | false =>
    have hparts : (init ++ [last]) ++ ["USER-1".toList] =
        (conduit.map String.toList).toList ++ [r.spelled digits] := by
      rw [List.append_assoc]
      exact hbody.symm.trans hs
    obtain ⟨hconduit, href⟩ := List.append_inj' hparts rfl
    have hparse : TurnRef.parse "USER-1".toList = .ok r :=
      TurnRef.parse_ok_iff.2 ⟨digits, hd, List.singleton_inj.1 href⟩
    have href : TurnRef.parse "USER-1".toList = .ok ⟨.user, 1⟩ := by decide
    cases href.symm.trans hparse
    rw [← hname] at hconduit
    cases conduit with
    | none => exact absurd hconduit (Text.splitOn_ne_nil ':' name)
    | some name' =>
      have hj := Text.joinWith_splitOn ':' name
      have hname' : name'.toList = name := by rwa [hconduit] at hj
      rw [← hname', String.ofList_toList]
      exact ⟨isAlias_iff.2 (hl.conduit name' rfl), rfl⟩

theorem read_of_isAlias (h : IsAlias name) :
    read (name ++ ":USER-1".toList) = .ok ⟨some (.ofList name), ⟨.user, 1⟩, false⟩ := by
  have hd : TurnRef.Indexed ⟨.user, 1⟩ "1".toList := ⟨by decide, by decide, by decide⟩
  refine read_ok_iff.2 ⟨⟨fun name' hn => ?_, by rintro ⟨⟩⟩, "1".toList, hd, ?_⟩
  · cases hn
    rw [String.toList_ofList]
    exact isAlias_iff.1 h
  · simp [spelled, aliasText, specifierText, TurnRef.spelled, Author.label]

end TurnLink

namespace Mount
variable {m : Mount}

/-- The link that names the latest user turn of what is mounted under the alias. -/
def link (m : Mount) : TurnLink := ⟨some m.conduit, ⟨.user, 1⟩, false⟩

def token (m : Mount) : String := "@" ++ m.conduit ++ ":USER-1"

theorem toList_token (m : Mount) :
    m.token.toList = '@' :: (m.conduit.toList ++ ":USER-1".toList) := by
  simp [token]

theorem mem_token_iff {c : Char} (hc : c ∉ '@' :: ":USER-1".toList) :
    c ∈ m.token.toList ↔ c ∈ m.conduit.toList := by
  rw [List.mem_cons, not_or] at hc
  rw [toList_token, List.mem_cons, List.mem_append, or_iff_right hc.1, or_iff_left hc.2]

theorem parse_token_iff {l : Link} :
    Link.parse m.token = .ok l ↔ l = .turn m.link ∧ TurnLink.IsAlias m.conduit.toList := by
  have hlink : m.link = ⟨some (.ofList m.conduit.toList), ⟨.user, 1⟩, false⟩ := by
    rw [String.ofList_toList]
    rfl
  rw [Link.parse, Portal.within_ok_iff, toList_token, Link.read, Params.map_eq_ok_iff, hlink]
  constructor
  · rintro ⟨l, hl, rfl⟩
    obtain ⟨halias, rfl⟩ := TurnLink.read_alias hl
    exact ⟨rfl, halias⟩
  · rintro ⟨rfl, halias⟩
    exact ⟨_, TurnLink.read_of_isAlias halias, rfl⟩

/-- A list holds a link as it is spelled just if the link has neither commas nor closing brackets. -/
theorem parse_link_iff {token : String} {l : Link} (ht : Link.parse token = .ok l) :
    (∃ value, Params.parse (.ofList ("[v: ".toList ++ token.toList ++ [']'])) = .ok ⟨[("v", value)]⟩ ∧
      Value.classify value = .ok (.link l token)) ↔ ',' ∉ token.toList ∧ ']' ∉ token.toList := by
  constructor
  · rintro ⟨value, hp, hv⟩
    rcases Params.parse_bare hp _ (List.mem_singleton.2 rfl) with ⟨inner, rfl⟩ | hbare
    · exact absurd hv Value.classify_quote_ne_link
    · have hchars : ∀ c ∈ token.toList, c ≠ ',' ∧ c ≠ ']' := by
        intro c hc
        rw [(Value.token_of_classify hv).1, Fragment.text, String.toList_ofList] at hc
        obtain ⟨g, hg, rfl⟩ := List.mem_map.1 hc
        exact hbare _ (List.mem_map_of_mem ((Fragment.glyphs_trim value).subset hg))
      exact ⟨fun hm => (hchars _ hm).1 rfl, fun hm => (hchars _ hm).2 rfl⟩
  · rintro ⟨hcomma, hbracket⟩
    have hs := Link.spelled_of_read (Link.read_of_parse ht)
    obtain ⟨c, cs, hc, hsigil⟩ := hs.exists_sigil
    have hchars : ∀ d ∈ c :: cs, d ≠ ',' ∧ d ≠ ']' := by
      intro d hd
      rw [hc] at hcomma hbracket
      exact ⟨fun he => hcomma (he ▸ hd), fun he => hbracket (he ▸ hd)⟩
    have hblank : ∀ d ∈ c :: cs, ¬ Text.isBlank d := hc ▸ hs.not_blank
    have hquote : c ≠ '\'' := by rcases hsigil with rfl | rfl <;> decide
    have hp := Params.parse_single hquote hchars (hblank c List.mem_cons_self)
      fun d hd => hblank d (List.mem_of_mem_getLast? hd)
    rw [← hc] at hp
    exact ⟨_, hp, Value.classify_link ht⟩

/-- Where a directive is the last for its alias that is fetched, links under the alias read what it
mounted. -/
theorem read_mounted {settings : Settings} {s : State} {mounts : List Mount}
    (h : (fetchedFor settings s.fixture m.conduit mounts).getLast? = some m) :
    ∃ history, s.fixture.conversations.get? m.source = some history ∧
      ∀ l : TurnLink, l.conduit = some m.conduit →
        ((Run.mountAll settings mounts).run s).2.session.read (.turn l) = l.select history := by
  obtain ⟨history, hhistory⟩ := exists_of_mem_fetchedFor (List.mem_of_getLast? h)
  refine ⟨history, hhistory, fun l hl => ?_⟩
  have hconduit := Run.mountedTable_eq settings s mounts m.conduit
  rw [h, Option.bind_some, hhistory, Option.some_or, Run.mountedTable] at hconduit
  rw [Session.read, Session.historyOf, hl]
  dsimp only
  rw [hconduit]
  rfl

/-- An alias that a directive mounts has no quote. Links can name its conduit just if it is an alias for
them, and a parameter list can hold such a link, and no other value, just if the alias has neither commas
nor closing brackets besides. Once the directive is the last for its alias that was fetched, all links
under the alias read the history that it mounted. -/
theorem addressable_iff {line : String} (h : ofLine? line = some m) :
    '\'' ∉ m.conduit.toList ∧
    (∀ l, Link.parse m.token = .ok l ↔ l = .turn m.link ∧ TurnLink.IsAlias m.conduit.toList) ∧
    ((∃ value, Params.parse ("[v: " ++ m.token ++ "]") = .ok ⟨[("v", value)]⟩ ∧
        Value.classify value = .ok (.link (.turn m.link) m.token)) ↔
      TurnLink.IsAlias m.conduit.toList ∧ ',' ∉ m.conduit.toList ∧ ']' ∉ m.conduit.toList) ∧
    ∀ settings s mounts, (fetchedFor settings s.fixture m.conduit mounts).getLast? = some m →
      ∃ history, s.fixture.conversations.get? m.source = some history ∧
        ∀ l : TurnLink, l.conduit = some m.conduit →
          ((Run.mountAll settings mounts).run s).2.session.read (.turn l) = l.select history := by
  have htext : "[v: " ++ m.token ++ "]" = .ofList ("[v: ".toList ++ m.token.toList ++ [']']) := by
    rw [← String.toList_inj]
    simp
  refine ⟨(reads_of_readLine? h).not_quote, fun l => parse_token_iff, ?_,
    fun settings s mounts => read_mounted⟩
  rw [htext, ← mem_token_iff (by decide : ',' ∉ '@' :: ":USER-1".toList),
    ← mem_token_iff (by decide : ']' ∉ '@' :: ":USER-1".toList)]
  constructor
  · rintro ⟨value, hp, hv⟩
    have hl := Value.parse_of_classify hv
    exact ⟨(parse_token_iff.1 hl).2, (parse_link_iff hl).1 ⟨value, hp, hv⟩⟩
  · rintro ⟨halias, hlist⟩
    exact (parse_link_iff (parse_token_iff.2 ⟨rfl, halias⟩)).2 hlist

/-- A directive whose conduit links can address. -/
theorem addressable_notes :
    ofLine? "#> mount['notes'] from 'chat-1'" = some ⟨"notes", "chat-1"⟩ ∧
    Link.parse "@notes:USER-1" = .ok (.turn ⟨some "notes", ⟨.user, 1⟩, false⟩) ∧
    ∃ value, Params.parse "[v: @notes:USER-1]" = .ok ⟨[("v", value)]⟩ ∧
      Value.classify value = .ok (.link (.turn ⟨some "notes", ⟨.user, 1⟩, false⟩) "@notes:USER-1") := by
  have hline : ofLine? "#> mount['notes'] from 'chat-1'" = some ⟨"notes", "chat-1"⟩ := by
    decide +kernel
  have hblank : "notes".toList.all fun c => ¬ Text.isBlank c := by decide
  have halias : TurnLink.IsAlias "notes".toList :=
    ⟨by decide, fun c hm => of_decide_eq_true (List.all_eq_true.1 hblank c hm), by decide, by decide⟩
  have htoken : token ⟨"notes", "chat-1"⟩ = "@notes:USER-1" := by decide +kernel
  have htext : "[v: " ++ "@notes:USER-1" ++ "]" = "[v: @notes:USER-1]" := by decide +kernel
  obtain ⟨-, hlink, hlist, -⟩ := addressable_iff hline
  rw [htoken] at hlink hlist
  rw [htext] at hlist
  exact ⟨hline, (hlink _).2 ⟨rfl, halias⟩, hlist.2 ⟨halias, by decide, by decide⟩⟩

/-- A directive may mount under an alias with a blank, but a link that names it is refused, and so it is
as the value of a parameter. -/
theorem not_addressable_blank :
    ofLine? "#> mount['a b'] from 'c'" = some ⟨"a b", "c"⟩ ∧
    (∀ l, Link.parse "@a b:USER-1" ≠ .ok l) ∧
    ∀ value, Params.parse "[v: @a b:USER-1]" = .ok ⟨[("v", value)]⟩ →
      ∀ l, Value.classify value ≠ .ok (.link l "@a b:USER-1") := by
  have hline : ofLine? "#> mount['a b'] from 'c'" = some ⟨"a b", "c"⟩ := by decide +kernel
  have hlink : ∀ l, Link.parse "@a b:USER-1" ≠ .ok l := by
    have he : Link.parse "@a b:USER-1" = .error ⟨.badAlias "a b", "@a b:USER-1"⟩ := by decide +kernel
    rintro l hl
    cases he.symm.trans hl
  exact ⟨hline, hlink, fun value _ l hv => hlink l (Value.parse_of_classify hv)⟩

end Mount

end PortalScript
