import Mathlib.Data.List.TakeWhile
import PortalScript.Proofs.Template.Occurrence

/-! # Runs of token characters

A text is made of runs of token characters, each of them as long as it can be, and of other characters.
`tokenRuns` lists the runs, and `replaceTokens` puts resolved text in the place of those that have a
value. What is put in is never read, so two replacements are one in which the first value counts
(`replaceTokens_replaceTokens`), and what is left to replace are the runs that had no value
(`runs_replaceTokens`).

A token that is itself made of token characters occurs as a whole token just where it is a run, so that
`substitute` is the replacement of one run (`substitute_eq_replaceTokens`). -/

namespace PortalScript.Template
variable {c : Char} {cs w text : List Char} {t : Template}

/-- Puts source text before a template, into its first piece if that is source text. -/
def prepend (w : List Char) : Template → Template
  | .source text :: t => .source (w ++ text) :: t
  | t => .source w :: t

/-- The longest runs of token characters in a text. -/
def tokenRuns : List Char → List (List Char)
  | [] => []
  | c :: cs =>
    if isTokenChar c then (c :: cs.takeWhile isTokenChar) :: tokenRuns (cs.dropWhile isTokenChar)
    else tokenRuns cs
termination_by text => text.length
decreasing_by
  · have := (List.dropWhile_suffix isTokenChar (l := cs)).length_le
    simp only [List.length_cons]
    omega
  · simp

/-- The pieces of a source text with resolved text in the place of the runs that have a value. -/
def replaceRuns (value : List Char → Option (List Char)) : List Char → Template
  | [] => [.source []]
  | c :: cs =>
    if isTokenChar c then
      let run := c :: cs.takeWhile isTokenChar
      let rest := replaceRuns value (cs.dropWhile isTokenChar)
      match value run with
      | some text => .source [] :: .resolved text :: rest
      | none => prepend run rest
    else prepend [c] (replaceRuns value cs)
termination_by text => text.length
decreasing_by
  · have := (List.dropWhile_suffix isTokenChar (l := cs)).length_le
    simp only [List.length_cons]
    omega
  · simp

/-- The runs in the source text of a template. -/
def runs : Template → List (List Char) := List.flatMap fun
  | .source text => tokenRuns text
  | .resolved _ => []

/-- The template with resolved text in the place of the runs that have a value. -/
def replaceTokens (value : List Char → Option (List Char)) : Template → Template := List.flatMap fun
  | .source text => replaceRuns value text
  | .resolved text => [.resolved text]

/-- How many runs of a template have a value. -/
def countTokens (value : List Char → Option (List Char)) (t : Template) : Nat :=
  t.runs.countP fun run => (value run).isSome

/-- The value of one run alone. -/
def only (run text : List Char) : List Char → Option (List Char) := fun w =>
  if w = run then some text else none

theorem not_isTokenChar_head (h : isBoundary cs.head?) : ∀ c ∈ cs.head?, ¬ isTokenChar c := by
  intro c hc
  rw [hc] at h
  simpa [isBoundary] using h

theorem takeWhile_run (hw : ∀ c ∈ w, isTokenChar c) (h : isBoundary cs.head?) :
    (w ++ cs).takeWhile isTokenChar = w := by
  rw [List.takeWhile_append_of_pos hw]
  cases cs with
  | nil => simp
  | cons c cs => rw [List.takeWhile_cons_of_neg (not_isTokenChar_head h c rfl), List.append_nil]

theorem dropWhile_run (hw : ∀ c ∈ w, isTokenChar c) (h : isBoundary cs.head?) :
    (w ++ cs).dropWhile isTokenChar = cs := by
  rw [List.dropWhile_append_of_pos hw]
  cases cs with
  | nil => rfl
  | cons c cs => rw [List.dropWhile_cons_of_neg (not_isTokenChar_head h c rfl)]

/-- A text is read run by run, and character by character between the runs. -/
theorem runs_induction {P : List Char → Prop} (nil : P [])
    (other : ∀ c cs, ¬ isTokenChar c → P cs → P (c :: cs))
    (run : ∀ w cs, w ≠ [] → (∀ c ∈ w, isTokenChar c) → isBoundary cs.head? → P cs → P (w ++ cs))
    (text : List Char) : P text := by
  fun_induction tokenRuns text with
  | case1 => exact nil
  | case2 c cs hc ih =>
    have hsplit : c :: cs = (c :: cs.takeWhile isTokenChar) ++ cs.dropWhile isTokenChar := by
      rw [List.cons_append, List.takeWhile_append_dropWhile]
    rw [hsplit]
    refine run _ _ (by simp) ?_ ?_ ih
    · intro d hd
      rcases List.mem_cons.1 hd with rfl | hd
      · exact hc
      · exact List.mem_takeWhile_imp hd
    · cases h : cs.dropWhile isTokenChar with
      | nil => rfl
      | cons d ds =>
        have hd := List.head?_dropWhile_not isTokenChar cs
        rw [h] at hd
        simpa [isBoundary] using hd
  | case3 c cs hc ih => exact other c cs hc ih

section
variable (value other : List Char → Option (List Char))

@[simp] theorem tokenRuns_nil : tokenRuns [] = [] := by
  rw [tokenRuns]

@[simp] theorem replaceRuns_nil : replaceRuns value [] = [.source []] := by
  rw [replaceRuns]

theorem tokenRuns_cons (hc : ¬ isTokenChar c) : tokenRuns (c :: cs) = tokenRuns cs := by
  rw [tokenRuns, if_neg hc]

theorem replaceRuns_cons (hc : ¬ isTokenChar c) :
    replaceRuns value (c :: cs) = prepend [c] (replaceRuns value cs) := by
  rw [replaceRuns, if_neg hc]

theorem tokenRuns_run (hne : w ≠ []) (hw : ∀ c ∈ w, isTokenChar c) (hb : isBoundary cs.head?) :
    tokenRuns (w ++ cs) = w :: tokenRuns cs := by
  obtain ⟨c, w, rfl⟩ := List.exists_cons_of_ne_nil hne
  have hw' : ∀ d ∈ w, isTokenChar d := fun d hd => hw d (List.mem_cons_of_mem c hd)
  rw [List.cons_append, tokenRuns, if_pos (hw c List.mem_cons_self), takeWhile_run hw' hb,
    dropWhile_run hw' hb]

theorem replaceRuns_run (hne : w ≠ []) (hw : ∀ c ∈ w, isTokenChar c) (hb : isBoundary cs.head?) :
    replaceRuns value (w ++ cs) = match value w with
      | some text => .source [] :: .resolved text :: replaceRuns value cs
      | none => prepend w (replaceRuns value cs) := by
  obtain ⟨c, w, rfl⟩ := List.exists_cons_of_ne_nil hne
  have hw' : ∀ d ∈ w, isTokenChar d := fun d hd => hw d (List.mem_cons_of_mem c hd)
  rw [List.cons_append, replaceRuns, if_pos (hw c List.mem_cons_self), takeWhile_run hw' hb,
    dropWhile_run hw' hb]

theorem replaceRuns_eq_cons (text : List Char) :
    ∃ first rest, replaceRuns value text = .source first :: rest ∧ first <+: text := by
  induction text using runs_induction with
  | nil => exact ⟨[], [], by simp, List.prefix_rfl⟩
  | other c cs hc ih =>
    obtain ⟨first, rest, h, hf⟩ := ih
    exact ⟨c :: first, rest, by rw [replaceRuns_cons value hc, h]; rfl,
      (List.prefix_cons_inj c).2 hf⟩
  | run w cs hne hw hb ih =>
    obtain ⟨first, rest, h, hf⟩ := ih
    rw [replaceRuns_run value hne hw hb, h]
    cases value w with
    | some text => exact ⟨[], _, rfl, List.nil_prefix⟩
    | none => exact ⟨w ++ first, rest, rfl, (List.prefix_append_right_inj w).2 hf⟩

theorem isBoundary_head_of_prefix {first : List Char} (h : first <+: text)
    (hb : isBoundary text.head?) : isBoundary first.head? := by
  cases first with
  | nil => rfl
  | cons c first =>
    obtain ⟨rest, rfl⟩ := h
    exact hb

@[simp] theorem replaceTokens_source (text : List Char) (t : Template) :
    replaceTokens value (.source text :: t) = replaceRuns value text ++ replaceTokens value t := rfl

@[simp] theorem replaceTokens_resolved (text : List Char) (t : Template) :
    replaceTokens value (.resolved text :: t) = .resolved text :: replaceTokens value t := rfl

@[simp] theorem runs_source (text : List Char) (t : Template) :
    runs (.source text :: t) = tokenRuns text ++ runs t := rfl

@[simp] theorem runs_resolved (text : List Char) (t : Template) :
    runs (.resolved text :: t) = runs t := rfl

theorem replaceTokens_append (s t : Template) :
    replaceTokens value (s ++ t) = replaceTokens value s ++ replaceTokens value t :=
  List.flatMap_append

theorem runs_append (s t : Template) : runs (s ++ t) = runs s ++ runs t := List.flatMap_append

theorem prepend_append (w : List Char) {s : Template} (hs : s ≠ []) (t : Template) :
    prepend w (s ++ t) = prepend w s ++ t := by
  obtain ⟨p, s, rfl⟩ := List.exists_cons_of_ne_nil hs
  cases p <;> rfl

theorem replaceRuns_ne_nil (text : List Char) : replaceRuns value text ≠ [] := by
  obtain ⟨first, rest, h, -⟩ := replaceRuns_eq_cons value text
  simp [h]

/-- What has been replaced is never read, and every other run is there as it was. -/
theorem replaceTokens_replaceRuns (text : List Char) :
    replaceTokens other (replaceRuns value text) =
      replaceRuns (fun run => (value run).or (other run)) text := by
  induction text using runs_induction with
  | nil => simp [replaceTokens]
  | other c cs hc ih =>
    obtain ⟨first, rest, h, -⟩ := replaceRuns_eq_cons value cs
    rw [replaceRuns_cons _ hc, replaceRuns_cons _ hc, ← ih, h]
    rw [prepend, replaceTokens_source, replaceTokens_source, List.singleton_append,
      replaceRuns_cons other hc, prepend_append _ (replaceRuns_ne_nil other first)]
  | run w cs hne hw hb ih =>
    obtain ⟨first, rest, h, hf⟩ := replaceRuns_eq_cons value cs
    rw [replaceRuns_run _ hne hw hb, replaceRuns_run _ hne hw hb, ← ih]
    cases hv : value w with
    | some text => simp
    | none =>
      -- the run still ends where it did
      have hb' := isBoundary_head_of_prefix hf hb
      rw [h, Option.none_or]
      dsimp only
      rw [prepend, replaceTokens_source, replaceTokens_source, replaceRuns_run other hne hw hb']
      cases other w with
      | some text => rfl
      | none => exact (prepend_append w (replaceRuns_ne_nil other first) _).symm

theorem runs_replaceRuns (text : List Char) :
    runs (replaceRuns value text) = (tokenRuns text).filter fun run => (value run).isNone := by
  induction text using runs_induction with
  | nil => simp [runs]
  | other c cs hc ih =>
    obtain ⟨first, rest, h, -⟩ := replaceRuns_eq_cons value cs
    rw [replaceRuns_cons _ hc, tokenRuns_cons hc, ← ih, h, prepend, runs_source, runs_source,
      List.singleton_append, tokenRuns_cons hc]
  | run w cs hne hw hb ih =>
    obtain ⟨first, rest, h, hf⟩ := replaceRuns_eq_cons value cs
    rw [replaceRuns_run _ hne hw hb, tokenRuns_run hne hw hb]
    cases hv : value w with
    | some text => simp [hv, ih]
    | none =>
      have hb' := isBoundary_head_of_prefix hf hb
      rw [List.filter_cons_of_pos (by simp [hv]), ← ih, h]
      dsimp only
      rw [prepend, runs_source, runs_source, tokenRuns_run hne hw hb', List.cons_append]

/-- Of two replacements one after the other the first value of a run counts. -/
theorem replaceTokens_replaceTokens (t : Template) :
    replaceTokens other (replaceTokens value t) =
      replaceTokens (fun run => (value run).or (other run)) t := by
  induction t with
  | nil => rfl
  | cons p t ih =>
    cases p with
    | source text => simp [replaceTokens_append, replaceTokens_replaceRuns, ih]
    | resolved text => simp [ih]

theorem runs_replaceTokens (t : Template) :
    runs (replaceTokens value t) = t.runs.filter fun run => (value run).isNone := by
  induction t with
  | nil => rfl
  | cons p t ih =>
    cases p with
    | source text => simp [runs_append, runs_replaceRuns, ih]
    | resolved text => simp [ih]

theorem countTokens_replaceTokens (t : Template) :
    countTokens value t + countTokens other (replaceTokens value t) =
      countTokens (fun run => (value run).or (other run)) t := by
  unfold countTokens
  rw [runs_replaceTokens]
  simp only [Option.isSome_or]
  induction t.runs with
  | nil => rfl
  | cons run runs ih =>
    cases hv : value run with
    | some text =>
      rw [List.filter_cons_of_neg (by simp [hv])]
      simp only [List.countP_cons, hv, Option.isSome_some, Bool.true_or, if_true]
      omega
    | none =>
      rw [List.filter_cons_of_pos (by simp [hv])]
      simp only [List.countP_cons, hv, Option.isSome_none, Bool.false_eq_true, if_false, Bool.false_or]
      omega

theorem eq_nil_of_isBoundary_head (hw : ∀ c ∈ w, isTokenChar c) (h : isBoundary w.head?) :
    w = [] := by
  cases w with
  | nil => rfl
  | cons c w => exact absurd (hw c List.mem_cons_self) (not_isTokenChar_head h c rfl)

theorem eq_nil_of_isBoundary_getLast (hw : ∀ c ∈ w, isTokenChar c) (h : isBoundary w.getLast?) :
    w = [] := by
  have hr : w.reverse = [] := by
    refine eq_nil_of_isBoundary_head (fun c hc => hw c (List.mem_reverse.1 hc)) ?_
    rwa [List.head?_reverse]
  exact List.reverse_eq_nil_iff.1 hr

/-- The runs are the stretches of token characters that no token character touches. -/
theorem mem_tokenRuns_iff {text : List Char} : w ∈ tokenRuns text ↔
    w ≠ [] ∧ (∀ c ∈ w, isTokenChar c) ∧ ∃ u v, text = u ++ (w ++ v) ∧ WholeToken u v := by
  induction text using runs_induction with
  | nil =>
    simp only [tokenRuns_nil, List.not_mem_nil, false_iff]
    rintro ⟨hne, -, u, v, h, -⟩
    simp [hne] at h
  | other c cs hc ih =>
    rw [tokenRuns_cons hc, ih]
    refine and_congr_right fun hne => and_congr_right fun hw => ⟨?_, ?_⟩
    · rintro ⟨u, v, rfl, hu, hv⟩
      refine ⟨c :: u, v, rfl, ?_, hv⟩
      cases u with
      | nil => simp [isBoundary, hc]
      | cons d u => rwa [List.getLast?_cons_cons]
    · rintro ⟨u, v, h, hu, hv⟩
      cases u with
      | nil =>
        obtain ⟨d, w, rfl⟩ := List.exists_cons_of_ne_nil hne
        obtain ⟨rfl, -⟩ := List.cons.inj h
        exact absurd (hw c List.mem_cons_self) hc
      | cons d u =>
        obtain ⟨-, htail⟩ := List.cons.inj h
        refine ⟨u, v, htail, ?_, hv⟩
        cases u with
        | nil => rfl
        | cons e u => rwa [List.getLast?_cons_cons] at hu
  | run x cs hne hx hb ih =>
    rw [tokenRuns_run hne hx hb, List.mem_cons, ih]
    constructor
    · rintro (rfl | ⟨hwne, hw, u, v, rfl, hu, hv⟩)
      · exact ⟨hne, hx, [], cs, rfl, rfl, hb⟩
      · refine ⟨hwne, hw, x ++ u, v, by simp, ?_, hv⟩
        have hune : u ≠ [] := by
          rintro rfl
          obtain ⟨d, w, rfl⟩ := List.exists_cons_of_ne_nil hwne
          exact not_isTokenChar_head hb d rfl (hw d List.mem_cons_self)
        rwa [List.getLast?_append_of_ne_nil x hune]
    · rintro ⟨hwne, hw, u, v, h, hu, hv⟩
      rcases List.append_eq_append_iff.1 h with ⟨a, rfl, hcs⟩ | ⟨a, rfl, -⟩
      · refine .inr ⟨hwne, hw, a, v, hcs, ?_, hv⟩
        cases a with
        | nil => rfl
        | cons d a => rwa [List.getLast?_append_of_ne_nil x (by simp)] at hu
      · -- the run starts the text, and both end where the token characters end
        have hunil : u = [] :=
          eq_nil_of_isBoundary_getLast (fun c hc => hx c (List.mem_append_left a hc)) hu
        subst hunil
        have he := congrArg (List.takeWhile isTokenChar) h
        rw [takeWhile_run hx hb, List.nil_append, List.nil_append, takeWhile_run hw hv] at he
        exact .inl he.symm

theorem forall_mem_runs (t : Template) : ∀ w ∈ t.runs, w ≠ [] := by
  intro w hw
  obtain ⟨p, -, hw⟩ := List.mem_flatMap.1 hw
  cases p with
  | source text => exact (mem_tokenRuns_iff.1 hw).1
  | resolved text => cases hw

theorem replaceRuns_none (text : List Char) : replaceRuns (fun _ => none) text = [.source text] := by
  induction text using runs_induction with
  | nil => simp
  | other c cs hc ih =>
    rw [replaceRuns_cons _ hc, ih]
    rfl
  | run w cs hne hw hb ih =>
    rw [replaceRuns_run _ hne hw hb, ih]
    rfl

theorem replaceTokens_none (t : Template) : replaceTokens (fun _ => none) t = t := by
  induction t with
  | nil => rfl
  | cons p t ih => cases p <;> simp [replaceRuns_none, ih]

variable {value other}

theorem replaceRuns_congr (h : ∀ w ∈ tokenRuns text, value w = other w) :
    replaceRuns value text = replaceRuns other text := by
  induction text using runs_induction with
  | nil => simp
  | other c cs hc ih =>
    rw [tokenRuns_cons hc] at h
    rw [replaceRuns_cons _ hc, replaceRuns_cons _ hc, ih h]
  | run w cs hne hw hb ih =>
    rw [tokenRuns_run hne hw hb] at h
    obtain ⟨hv, h⟩ := List.forall_mem_cons.1 h
    rw [replaceRuns_run _ hne hw hb, replaceRuns_run _ hne hw hb, hv, ih h]

theorem replaceTokens_congr (h : ∀ w ∈ t.runs, value w = other w) :
    replaceTokens value t = replaceTokens other t := by
  induction t with
  | nil => rfl
  | cons p t ih =>
    cases p with
    | source text =>
      obtain ⟨htext, ht⟩ := List.forall_mem_append.1 h
      rw [replaceTokens_source, replaceTokens_source, replaceRuns_congr htext, ih ht]
    | resolved text =>
      rw [replaceTokens_resolved, replaceTokens_resolved, ih h]

theorem countTokens_congr (h : ∀ w ∈ t.runs, value w = other w) :
    countTokens value t = countTokens other t :=
  List.countP_congr fun w hw => by rw [h w hw]

end

/-! ### Searching for one token -/

section
variable {d : Char} {ds r : List Char}

theorem cutToken?_congr {token : List Char} {left left' : Option Char}
    (h : isBoundary left = isBoundary left') :
    cutToken? token left cs = cutToken? token left' cs := by
  cases cs with
  | nil => rfl
  | cons c cs => rw [cutToken?, cutToken?, h]

theorem cutToken?_cons (hd : isTokenChar d) (hc : ¬ isTokenChar c) (left : Option Char) :
    cutToken? (d :: ds) left (c :: cs) =
      (cutToken? (d :: ds) none cs).map fun p => ([c] ++ p.1, p.2) := by
  have hne : d ≠ c := by
    rintro rfl
    exact hc hd
  have hleft : isBoundary (some c) = isBoundary none := by simp [isBoundary, hc]
  rw [cutToken?, Text.after?, if_neg hne, cutToken?_congr hleft]
  rfl

theorem cutToken?_append (hd : isTokenChar d) (hc : isTokenChar c) (hw : ∀ c ∈ w, isTokenChar c)
    (hb : isBoundary cs.head?) : cutToken? (d :: ds) (some c) (w ++ cs) =
      (cutToken? (d :: ds) none cs).map fun p => (w ++ p.1, p.2) := by
  induction w generalizing c with
  | nil =>
    cases cs with
    | nil => rfl
    | cons x cs =>
      have hx := not_isTokenChar_head hb x rfl
      simp [cutToken?_cons hd hx, Function.comp_def]
  | cons x w ih =>
    have hx : isTokenChar x := hw x List.mem_cons_self
    have hleft : isBoundary (some c) = false := by simp [isBoundary, hc]
    have hnone (o : Option (List Char)) :
        o.filter (fun rest => isBoundary (some c) && isBoundary rest.head?) = none := by
      simp [hleft]
    rw [List.cons_append, cutToken?, hnone, ih hx fun y hy => hw y (List.mem_cons_of_mem x hy)]
    simp [Function.comp_def]

theorem cutToken?_run (hk : ∀ c ∈ d :: ds, isTokenChar c) (hne : w ≠ [])
    (hw : ∀ c ∈ w, isTokenChar c) (hb : isBoundary cs.head?) : cutToken? (d :: ds) none (w ++ cs) =
      if w = d :: ds then some ([], cs)
      else (cutToken? (d :: ds) none cs).map fun p => (w ++ p.1, p.2) := by
  have hd : isTokenChar d := hk d List.mem_cons_self
  split
  · rename_i h
    subst h
    have hafter : Text.after? (d :: ds) (d :: (ds ++ cs)) = some cs := Text.after?_eq_some_iff.2 rfl
    rw [List.cons_append, cutToken?, hafter, Option.filter_some_pos (by simpa [isBoundary] using hb)]
  · rename_i h
    obtain ⟨c, w, rfl⟩ := List.exists_cons_of_ne_nil hne
    have hnone : (Text.after? (d :: ds) (c :: (w ++ cs))).filter
        (fun rest => isBoundary none && isBoundary rest.head?) = none := by
      rw [Option.filter_eq_none_iff]
      intro rest hrest hboth
      have hr : isBoundary rest.head? := (Bool.and_eq_true_iff.1 hboth).2
      -- the token would be the run, both of them end where the token characters end
      have he := congrArg (List.takeWhile isTokenChar) (Text.after?_eq_some_iff.1 hrest)
      rw [← List.cons_append, takeWhile_run hw hb, takeWhile_run hk hr] at he
      exact h he
    have hw' : ∀ x ∈ w, isTokenChar x := fun x hx => hw x (List.mem_cons_of_mem c hx)
    rw [List.cons_append, cutToken?, hnone, cutToken?_append hd (hw c List.mem_cons_self) hw' hb]
    simp [Function.comp_def]

theorem substituteSource_append (h : cutToken? (d :: ds) none (w ++ cs) =
    (cutToken? (d :: ds) none cs).map fun p => (w ++ p.1, p.2)) :
    substituteSource d ds r (w ++ cs) =
      (prepend w (substituteSource d ds r cs).1, (substituteSource d ds r cs).2) := by
  cases hc : cutToken? (d :: ds) none cs with
  | none =>
    rw [hc] at h
    rw [substituteSource_of_none h, substituteSource_of_none hc]
    rfl
  | some p =>
    rw [hc] at h
    rw [substituteSource_of_some h, substituteSource_of_some hc]
    rfl

theorem substituteSource_eq (hk : ∀ c ∈ d :: ds, isTokenChar c) (r text : List Char) :
    substituteSource d ds r text = (replaceRuns (only (d :: ds) r) text,
      (tokenRuns text).countP fun run => (only (d :: ds) r run).isSome) := by
  induction text using runs_induction with
  | nil =>
    rw [substituteSource_of_none rfl]
    simp
  | other c cs hc ih =>
    have hcut : cutToken? (d :: ds) none (c :: cs) =
        (cutToken? (d :: ds) none cs).map fun p => ([c] ++ p.1, p.2) :=
      cutToken?_cons (hk d List.mem_cons_self) hc none
    rw [← List.singleton_append, substituteSource_append hcut, ih, List.singleton_append,
      replaceRuns_cons _ hc, tokenRuns_cons hc]
  | run w cs hne hw hb ih =>
    have hcut := cutToken?_run hk hne hw hb
    rw [replaceRuns_run _ hne hw hb, tokenRuns_run hne hw hb, List.countP_cons]
    by_cases h : w = d :: ds
    · rw [if_pos h] at hcut
      rw [substituteSource_of_some hcut, ih]
      simp [only, h]
    · rw [if_neg h] at hcut
      rw [substituteSource_append hcut, ih]
      simp [only, h]

theorem substituteChars_nil (r : List Char) (t : Template) : substituteChars [] r t = (t, 0) := by
  induction t with
  | nil => rfl
  | cons p t ih =>
    rw [substituteChars, ih]
    cases p <;> rfl

theorem substituteChars_eq (hk : ∀ c ∈ d :: ds, isTokenChar c) (r : List Char) (t : Template) :
    substituteChars (d :: ds) r t =
      (t.replaceTokens (only (d :: ds) r), t.countTokens (only (d :: ds) r)) := by
  induction t with
  | nil => rfl
  | cons p t ih =>
    rw [substituteChars, ih]
    cases p with
    | source text => simp [substituteSource_eq hk, countTokens]
    | resolved text => simp [countTokens]

theorem substitute_eq_replaceTokens {token : String} (hk : ∀ c ∈ token.toList, isTokenChar c)
    (replacement : String) (t : Template) : t.substitute token replacement =
      (t.replaceTokens (only token.toList replacement.toList),
        t.countTokens (only token.toList replacement.toList)) := by
  rw [substitute]
  cases h : token.toList with
  | nil =>
    -- the empty token is no run
    have hnone : ∀ w ∈ t.runs, only [] replacement.toList w = none := fun w hw =>
      if_neg (forall_mem_runs t w hw)
    rw [replaceTokens_congr hnone, countTokens_congr hnone, replaceTokens_none]
    rw [substituteChars_nil]
    simp [countTokens]
  | cons d ds =>
    rw [h] at hk
    exact substituteChars_eq hk _ t

end

end PortalScript.Template
