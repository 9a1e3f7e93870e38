import PortalScript.Proofs.Portal.Whole
import PortalScript.Proofs.Resolution.Loop
import PortalScript.Proofs.Resolution.Calm

/-! # What a portal receives from a portal inside it

The result of a nested portal that is the whole value of a parameter is what that parameter stands for
when the outer portal's template is expanded: exactly that text between quotes, and bare the text without
the blanks at its ends (`receives_nested`). -/

namespace PortalScript

namespace Run
variable {c : Context} {s s' : State} {raw : Fragment} {t : List Char}

theorem resolveValue_of_isText (h : Value.IsText raw t) (nested : Template → Run (Except Halt String)) :
    resolveValue nested raw = return .ok (.ofList t) := by
  unfold resolveValue
  rcases h with h | h <;> rw [h]

theorem lookup_of_resolveParams {resolve : Fragment → Run (Except Halt String)}
    {entries : List (String × Fragment)} {values : List (String × String)} {key text : String}
    (hv : Table.lookup key entries = some raw) (hr : resolve raw = return .ok text)
    (h : (resolveParams resolve entries).run s = (.ok values, s')) :
    Table.lookup key values = some text := by
  induction entries generalizing s s' values with
  | nil => cases hv
  | cons e entries ih =>
    obtain ⟨k, raw'⟩ := e
    rw [resolveParams] at h
    rcases hrun : (resolve raw').run s with ⟨r, s₁⟩
    rcases hrest : (resolveParams resolve entries).run s₁ with ⟨rs, s₂⟩
    rw [run_bind hrun] at h
    rcases r with (f | e) | value
    · rw [run_bind hrest] at h
      rcases rs with (f' | e) | vs <;> cases h
    · cases h
    · rw [run_bind hrest, run_pure] at h
      rcases rs with e | vs
      · cases h
      · cases h
        rw [Table.lookup] at hv ⊢
        split at hv <;> rename_i hk
        · obtain rfl : raw' = raw := Option.some.inj hv
          rw [hr] at hrun
          cases hrun
          rw [if_pos hk]
        · rw [if_neg hk]
          exact ih hv hrest

/-- The body is that of a data portal in which the value of `key` comes to the text `t`. -/
def Receives (body : Fragment) (key : String) (t : List Char) : Prop :=
  ∃ p raw, Portal.parse body = .ok (.data p) ∧ p.params.get? key = some raw ∧
    ∀ nested, resolveValue nested raw = return .ok (.ofList t)

/-- Wherever executing the portal expands the template, it does so with the text `t` for `key`. -/
def Binds (c : Context) (body : Fragment) (key : String) (t : List Char) : Prop :=
  ∀ (nested : Template → Run (Except Halt String)) (s s' : State) (p : DataPortal)
    (template out : String), Portal.parse body = .ok (.data p) →
    c.standIns.get? (templateToken p.id) = none → c.templates p.id = some template →
    (executePortal c nested body).run s = (.ok out, s') →
    ∃ values, Table.lookup key values = some (.ofList t) ∧ out = Placeholder.fill values template

namespace Receives
variable {body : Fragment} {key : String} {t' : List Char}

theorem unique (h : Receives body key t) (h' : Receives body key t') : t = t' := by
  obtain ⟨p, raw, hp, hk, hv⟩ := h
  obtain ⟨p', raw', hp', hk', hv'⟩ := h'
  cases hp.symm.trans hp'
  cases hk.symm.trans hk'
  have he := congrArg (fun m => (StateT.run m ⟨{}, {}, [], [], 0⟩).1)
    ((hv literal).symm.trans (hv' literal))
  exact String.ofList_injective (Except.ok.inj he)

theorem binds (h : Receives body key t) (c : Context) : Binds c body key t := by
  intro nested s s' p template out hp hs ht hr
  obtain ⟨p', raw, hp', hk, hv⟩ := h
  cases hp.symm.trans hp'
  rw [executePortal, hp] at hr
  dsimp only at hr
  rw [executeData, hs] at hr
  dsimp only at hr
  rcases hrun : (resolveParams (resolveValue nested) p.params.entries).run s with ⟨r, s₁⟩
  rw [run_bind hrun] at hr
  rcases r with e | values
  · cases hr
  · rw [ht] at hr
    cases hr
    exact ⟨values, lookup_of_resolveParams hk (hv nested) hrun, rfl⟩

end Receives

section
variable {before after : Template} {key : String} {quoted : Bool} {r : List Char}

theorem receives_cases (h : Portal.IsWholeValue before after key quoted) :
    Receives (Template.fragment (before ++ .resolved r :: after)) key t ↔
      t = (if quoted then r else Text.trim r) ∧ (quoted ∨ ¬ Text.allBlank r ∨
        (Template.fragment (.resolved r :: after)).skipBlank.gapAtStart) := by
  have hreceives (hr : quoted ∨ ¬ Text.allBlank r ∨
      (Template.fragment (.resolved r :: after)).skipBlank.gapAtStart) :
      Receives (Template.fragment (before ++ .resolved r :: after)) key
        (if quoted then r else Text.trim r) := by
    obtain ⟨p, raw, hp, hk, ht⟩ := h.exists_parse hr
    exact ⟨p, raw, hp, hk, resolveValue_of_isText ht⟩
  constructor
  · intro ht
    obtain ⟨p, -, hp, -⟩ := id ht
    have hr := h.of_parse hp
    exact ⟨ht.unique (hreceives hr), hr⟩
  · rintro ⟨rfl, hr⟩
    exact hreceives hr

theorem executeAll_nested (c : Context) (left inner right : List Nest) :
    Nest.executeAll (portal c) (left ++ .portal inner :: right) = (do
      let before ← Nest.executeAll (portal c) left
      let r ← portal c (← Nest.executeAll (portal c) inner)
      let after ← Nest.executeAll (portal c) right
      return before ++ .resolved r :: after) := by
  rw [Nest.executeAll_append]
  simp [Nest.executeAll, Nest.execute]

/-- A portal around the place of a whole value is given what comes of the portals inside it, with the
result `r` of the one in that place. Between quotes it receives exactly `r`. Bare it receives `r` without
the blanks at its ends if `r` is not blank, or if a gap is left right before the delimiter, as is so where
`r` is empty and no blank is behind it. What it receives is what its template is expanded with. -/
theorem receives_nested (h : Portal.IsWholeValue before after key quoted) (r : List Char) :
    let body := Template.fragment (before ++ .resolved r :: after)
    let gapLeft : Prop := (Template.fragment (.resolved r :: after)).skipBlank.gapAtStart
    (quoted → Receives body key r ∧ ∀ c, Binds c body key r) ∧
      (¬ quoted → ¬ Text.allBlank r ∨ gapLeft →
        Receives body key (Text.trim r) ∧ ∀ c, Binds c body key (Text.trim r)) ∧
      (r = [] → (∀ a ∈ (Template.fragment after).glyphs.head?, ¬ a.isBlank) → gapLeft) ∧
      ∀ (c : Context) (left inner right : List Nest),
        Nest.executeAll (portal c) (left ++ .portal inner :: right) = (do
          let before ← Nest.executeAll (portal c) left
          let r ← portal c (← Nest.executeAll (portal c) inner)
          let after ← Nest.executeAll (portal c) right
          return before ++ .resolved r :: after) := by
  intro body gapLeft
  refine ⟨fun hq => ?_, fun hq hr => ?_, ?_, executeAll_nested⟩
  · have ht : Receives body key r := (receives_cases h).2 ⟨(if_pos hq).symm, .inl hq⟩
    exact ⟨ht, ht.binds⟩
  · have ht : Receives body key (Text.trim r) := (receives_cases h).2 ⟨(if_neg hq).symm, .inr hr⟩
    exact ⟨ht, ht.binds⟩
  · rintro rfl ha
    have he : Fragment.inserted false [] after.fragment = Template.fragment (.resolved [] :: after) :=
      Fragment.empty_append _
    show (Template.fragment (.resolved [] :: after)).skipBlank.gapAtStart
    rw [← he]
    exact Fragment.gapAtStart_skipBlank_inserted_nil ha false

/-- Commas, brackets, markers and the sigils of links are text in what is received. -/
theorem receives_punctuation :
    Portal.IsWholeValue [.source "'t'[v: ".toList] [.source " ]".toList] "v" false ∧
      Receives (Template.fragment [.source "'t'[v: ".toList, .resolved "$a, ']~\x7b\x7b".toList,
        .source " ]".toList]) "v" "$a, ']~\x7b\x7b".toList := by
  have h : Portal.IsWholeValue [.source "'t'[v: ".toList] [.source " ]".toList] "v" false := by
    rw [Portal.isWholeValue_iff]
    exact ⟨⟨⟨"t", ⟨[("v", .ofText ['x'] true)]⟩⟩, by decide +kernel, rfl⟩,
      ⟨⟨"t", ⟨[("v", .ofText ['y'] true)]⟩⟩, by decide +kernel, rfl⟩⟩
  have hr := ((receives_nested h "$a, ']~\x7b\x7b".toList).2.1 (by decide) (.inl (by decide))).1
  have htrim : Text.trim "$a, ']~\x7b\x7b".toList = "$a, ']~\x7b\x7b".toList := by decide +kernel
  exact ⟨h, htrim ▸ hr⟩

/-- A bare value loses the blanks at its ends: with the result of `'pad'`, a text between blanks, the
template of `'t'` is expanded without them. -/
theorem not_receives_padded :
    let c : Context := ⟨{}, fun id => if id = "pad" then some " x " else some "[\x7b\x7bv\x7d\x7d]", ∅⟩
    let body := Template.fragment [.source "'t'[v: ".toList, .resolved " x ".toList, .source "]".toList]
    Portal.IsWholeValue [.source "'t'[v: ".toList] [.source "]".toList] "v" false ∧
      ((resolve c (.ofScript "~\x7b\x7b~'pad'~\x7d\x7d~")).run ⟨{}, {}, [], [], 0⟩).1 = .ok " x " ∧
      ¬ Receives body "v" " x ".toList ∧ Receives body "v" ['x'] ∧
      ((resolve c (.ofScript "~\x7b\x7b~'t'[v: ~\x7b\x7b~'pad'~\x7d\x7d~]~\x7d\x7d~")).run
        ⟨{}, {}, [], [], 0⟩).1 = .ok "[x]" := by
  intro c body
  have hr : Receives body "v" ['x'] :=
    ⟨⟨"t", ⟨[("v", .ofText ['x'] true)]⟩⟩, .ofText ['x'] true, by decide +kernel, rfl, fun _ => rfl⟩
  refine ⟨Portal.isWholeValue_iff.2 ?_, by decide +kernel, fun h => ?_, hr, by decide +kernel⟩
  · exact ⟨⟨⟨"t", ⟨[("v", .ofText ['x'] true)]⟩⟩, by decide +kernel, rfl⟩,
      ⟨⟨"t", ⟨[("v", .ofText ['y'] true)]⟩⟩, by decide +kernel, rfl⟩⟩
  · exact absurd (h.unique hr) (by decide)

end

end Run

end PortalScript
