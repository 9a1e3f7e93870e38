import Mathlib.Data.List.Nodup
import PortalScript.Proofs.Table.Entries
import PortalScript.Proofs.Template.Runs
import PortalScript.Resolution.Override

/-! # Overrides in any order

Where the keys are made of token characters, overrides are one replacement of whole runs: a run finds
its text in the table, and each key is at most one run's. So they may be applied in any order
(`apply_eq_replaceTokens`). That the longest key comes first matters for other keys only. -/

namespace PortalScript

namespace Override
open Template
variable {es : List (String × String)} {overrides : Table String}

/-- The text that stands for a run, if the run is a key. -/
def replacement (es : List (String × String)) (run : List Char) : Option (List Char) :=
  (Table.lookup (.ofList run) es).map String.toList

theorem replacement_cons (e : String × String) (es : List (String × String)) :
    replacement (e :: es) = fun run => (only e.1.toList e.2.toList run).or (replacement es run) := by
  funext run
  have hkey : e.1 = .ofList run ↔ run = e.1.toList := by
    rw [← String.toList_inj, String.toList_ofList, eq_comm]
  rw [replacement, Table.lookup, only]
  by_cases h : e.1 = .ofList run
  · rw [if_pos h, if_pos (hkey.1 h)]
    rfl
  · rw [if_neg h, if_neg fun h' => h (hkey.2 h')]
    rfl

/-- Tokens of token characters, replaced one after the other, are one replacement of runs. -/
theorem applyAll_eq_replaceTokens (h : ∀ e ∈ es, ∀ c ∈ e.1.toList, isTokenChar c) (t : Template) :
    applyAll es t = (t.replaceTokens (replacement es), t.countTokens (replacement es)) := by
  induction es generalizing t with
  | nil =>
    have hnone : replacement [] = fun _ => none := rfl
    rw [hnone, replaceTokens_none]
    simp [applyAll, countTokens]
  | cons e es ih =>
    obtain ⟨he, hes⟩ := List.forall_mem_cons.1 h
    rw [applyAll, substitute_eq_replaceTokens he]
    dsimp only
    rw [ih hes, replacement_cons, replaceTokens_replaceTokens, countTokens_replaceTokens]

theorem isTemplateToken_eq_false {key : String} (h : ∀ c ∈ key.toList, isTokenChar c) :
    isTemplateToken key = false := by
  have hq : key.toList.head? ≠ some '\'' := by
    intro hq
    exact absurd (h _ (List.mem_of_mem_head? hq)) (by decide +kernel)
  simp [isTemplateToken, hq]

theorem ordered_perm (h : ∀ key ∈ overrides.keys, ∀ c ∈ key.toList, isTokenChar c) :
    (ordered overrides).Perm overrides.entries := by
  have hall : overrides.entries.filter (!isTemplateToken ·.1) = overrides.entries := by
    refine List.filter_eq_self.2 fun e he => ?_
    rw [isTemplateToken_eq_false (h e.1 (List.mem_map.2 ⟨e, he, rfl⟩))]
    rfl
  rw [ordered, hall]
  exact List.mergeSort_perm _ _

theorem applyAll_eq_of_perm (hkeys : overrides.keys.Nodup)
    (h : ∀ key ∈ overrides.keys, ∀ c ∈ key.toList, isTokenChar c) (hp : es.Perm overrides.entries)
    (t : Template) : applyAll es t =
      (t.replaceTokens (replacement overrides.entries), t.countTokens (replacement overrides.entries)) := by
  have hes : (es.map (·.1)).Nodup := (hp.map _).nodup_iff.2 hkeys
  have hvalue : replacement es = replacement overrides.entries := by
    funext run
    rw [replacement, Table.lookup_perm hp hes, replacement]
  have hchars : ∀ e ∈ es, ∀ c ∈ e.1.toList, isTokenChar c := fun e he =>
    h e.1 (List.mem_map.2 ⟨e, hp.mem_iff.1 he, rfl⟩)
  rw [applyAll_eq_replaceTokens hchars, hvalue]

/-- Overrides whose keys are made of token characters replace just the runs of token characters that
are keys, each by its own text, and count those runs. The template is read once from left to right for
that; applying the overrides one after the other, in any order, comes to the same. -/
theorem apply_eq_replaceTokens (hkeys : overrides.keys.Nodup)
    (h : ∀ key ∈ overrides.keys, ∀ c ∈ key.toList, isTokenChar c) (t : Template) :
    let value := fun run => (overrides.get? (.ofList run)).map String.toList
    apply overrides t = (t.replaceTokens value, t.countTokens value) ∧
      ∀ es, es.Perm overrides.entries → applyAll es t = apply overrides t := by
  intro value
  have ha : apply overrides t = (t.replaceTokens value, t.countTokens value) :=
    applyAll_eq_of_perm hkeys h (ordered_perm h) t
  refine ⟨ha, fun es hp => ?_⟩
  rw [ha]
  exact applyAll_eq_of_perm hkeys h hp t

/-- One key goes on where another one ends, in source text and in text that is no key of its own. -/
theorem apply_thoughts :
    let overrides : Table String := ⟨[("@AI-1", "chat"), ("@AI-1:thoughts", "@AI-1")]⟩
    let t : Template := [.source "@AI-1:thoughts,x@AI-1".toList, .resolved "@AI-1".toList,
      .source "(@AI-1)".toList]
    let out : Template := [.source [], .resolved "@AI-1".toList, .source ",x@AI-1".toList,
      .resolved "@AI-1".toList, .source "(".toList, .resolved "chat".toList, .source ")".toList]
    overrides.keys.Nodup ∧ (∀ key ∈ overrides.keys, ∀ c ∈ key.toList, isTokenChar c) ∧
      apply overrides t = (out, 2) ∧
      applyAll [("@AI-1", "chat"), ("@AI-1:thoughts", "@AI-1")] t = (out, 2) := by
  intro overrides t out
  have hkeys : overrides.keys.Nodup := by decide
  have hchars : ∀ key ∈ overrides.keys, ∀ c ∈ key.toList, isTokenChar c := by
    have hall : overrides.keys.all (·.toList.all isTokenChar) := by decide +kernel
    simpa only [List.all_eq_true] using hall
  obtain ⟨ha, horder⟩ := apply_eq_replaceTokens hkeys hchars t
  have hout : apply overrides t = (out, 2) := by
    rw [ha]
    decide +kernel
  exact ⟨hkeys, hchars, hout, (horder _ (List.Perm.refl _)).trans hout⟩

end Override

end PortalScript
