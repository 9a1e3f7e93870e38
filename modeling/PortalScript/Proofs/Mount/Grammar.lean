import PortalScript.Mount
import PortalScript.Proofs.Text.Split
import PortalScript.Proofs.Text.Trim

/-! # The grammar of directives

`Mount.Reads` is the form of the line of a directive, and a line is read as a directive just if it has
that form (`readLine?_eq_some_iff`). What ends such a line are blanks behind a quote, so more blanks or
fewer there make no difference (`readLine?_append_blank`). -/

namespace PortalScript.Mount

/-- The line of a directive: its words and quotes, with any blanks between them and behind. -/
inductive Reads : List Char → Mount → Prop
  | line {conduit source s₁ s₂ s₃ s₄ : List Char} (h₁ : ∀ c ∈ s₁, Text.isBlank c)
      (h₂ : ∀ c ∈ s₂, Text.isBlank c) (h₃ : ∀ c ∈ s₃, Text.isBlank c)
      (h₄ : ∀ c ∈ s₄, Text.isBlank c) (hc : '\'' ∉ conduit) (hs : '\'' ∉ source) :
      Reads ("#>".toList ++ (s₁ ++ "mount['".toList ++ (conduit ++ '\'' :: ([']'] ++
        (s₂ ++ "from".toList ++ (s₃ ++ ['\''] ++ (source ++ '\'' :: s₄)))))))
        ⟨.ofList conduit, .ofList source⟩

variable {line s : List Char} {m : Mount}

theorem reads_of_readLine? (h : readLine? line = some m) : Reads line m := by
  simp only [readLine?, Option.bind_eq_bind, Option.bind_eq_some_iff, Prod.exists] at h
  obtain ⟨l₁, h₁, l₂, h₂, conduit, l₃, h₃, l₄, h₄, l₅, h₅, l₆, h₆, source, s₄, h₇, h⟩ := h
  obtain ⟨s₁, hl₁, hs₁⟩ := (Text.after?_trimLeft_iff (by decide)).1 h₂
  obtain ⟨hl₂, hc⟩ := Text.cutAt?_eq_some_iff.1 h₃
  obtain ⟨s₂, hl₄, hs₂⟩ := (Text.after?_trimLeft_iff (by decide)).1 h₅
  obtain ⟨s₃, hl₅, hs₃⟩ := (Text.after?_trimLeft_iff (by decide)).1 h₆
  obtain ⟨hl₆, hs⟩ := Text.cutAt?_eq_some_iff.1 h₇
  obtain ⟨hs₄, hm⟩ := Option.ite_none_right_eq_some.1 h
  rw [Text.after?_eq_some_iff.1 h₁, hl₁, hl₂, Text.after?_eq_some_iff.1 h₄, hl₄, hl₅, hl₆,
    ← Option.some.inj hm]
  exact .line hs₁ hs₂ hs₃ (List.all_eq_true.1 hs₄) hc hs

theorem Reads.readLine? (h : Reads line m) : readLine? line = some m := by
  obtain ⟨h₁, h₂, h₃, h₄, hc, hs⟩ := h
  simp only [Mount.readLine?, Option.bind_eq_bind, Option.bind_eq_some_iff, Prod.exists]
  exact ⟨_, Text.after?_eq_some_iff.2 rfl,
    _, (Text.after?_trimLeft_iff (by decide)).2 ⟨_, rfl, h₁⟩,
    _, _, Text.cutAt?_eq_some_iff.2 ⟨rfl, hc⟩,
    _, Text.after?_eq_some_iff.2 rfl,
    _, (Text.after?_trimLeft_iff (by decide)).2 ⟨_, rfl, h₂⟩,
    _, (Text.after?_trimLeft_iff (by decide)).2 ⟨_, rfl, h₃⟩,
    _, _, Text.cutAt?_eq_some_iff.2 ⟨rfl, hs⟩, if_pos (List.all_eq_true.2 h₄)⟩

theorem readLine?_eq_some_iff : Mount.readLine? line = some m ↔ Reads line m :=
  ⟨reads_of_readLine?, Reads.readLine?⟩

/-- The alias of a directive ends at the first quote. -/
theorem Reads.not_quote (h : Reads line m) : '\'' ∉ m.conduit.toList := by
  obtain ⟨-, -, -, -, hc, -⟩ := h
  rwa [String.toList_ofList]

theorem Reads.exists_body (h : Reads line m) : ∃ body t, line = body ++ '\'' :: t ∧
    (∀ c ∈ t, Text.isBlank c) ∧ ∀ t', (∀ c ∈ t', Text.isBlank c) → Reads (body ++ '\'' :: t') m := by
  obtain @⟨conduit, source, s₁, s₂, s₃, s₄, h₁, h₂, h₃, h₄, hc, hs⟩ := h
  refine ⟨"#>".toList ++ (s₁ ++ "mount['".toList ++ (conduit ++ '\'' :: ([']'] ++
    (s₂ ++ "from".toList ++ (s₃ ++ ['\''] ++ source))))), s₄, by simp, h₄, fun t' ht' => ?_⟩
  have := Reads.line h₁ h₂ h₃ ht' hc hs
  simpa using this

theorem reads_append_blank_iff (hs : ∀ c ∈ s, Text.isBlank c) : Reads (line ++ s) m ↔ Reads line m := by
  have hq : '\'' ∉ s := fun h => absurd (hs _ h) (by decide)
  constructor <;> intro h <;> obtain ⟨body, t, hl, ht, hr⟩ := h.exists_body
  · rcases List.append_eq_append_iff.1 hl with ⟨e, -, rfl⟩ | ⟨e, rfl, he⟩
    · exact absurd (List.mem_append_right e List.mem_cons_self) hq
    · cases e with
      | nil =>
        cases he
        exact absurd List.mem_cons_self hq
      | cons d e =>
        cases he
        exact hr e fun c hc => ht c (List.mem_append_left s hc)
  · rw [hl, List.append_assoc, List.cons_append]
    exact hr (t ++ s) fun c hc => (List.mem_append.1 hc).elim (ht c) (hs c)

theorem readLine?_append_blank (hs : ∀ c ∈ s, Text.isBlank c) (line : List Char) :
    Mount.readLine? (line ++ s) = Mount.readLine? line := by
  refine Option.ext fun m => ?_
  rw [readLine?_eq_some_iff, readLine?_eq_some_iff, reads_append_blank_iff hs]

theorem readLine?_blank (hs : ∀ c ∈ s, Text.isBlank c) : Mount.readLine? s = none :=
  readLine?_append_blank hs []

end PortalScript.Mount
