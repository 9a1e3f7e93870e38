import Mathlib.Data.List.Basic
import PortalScript.Proofs.Link.Grammar
import PortalScript.Proofs.Template.Occurrence
import PortalScript.Proofs.Text.Trim

/-! # How links are spelled

`Link.Spelled` keeps of the grammar of links what the characters of a link depend on. No link has blanks
in it (`Link.Spelled.not_blank`), none has a sigil behind a colon (`Link.Spelled.not_sigil`), and none
overlaps itself (`Link.Spelled.noOverlap`). -/

namespace PortalScript

namespace TurnLink

theorem not_sigil_of_mem {target : List Char} {thoughts : Bool} {c : Char}
    (ht : ∀ c ∈ target, TurnRef.isRefChar c) (h : c ∈ target ++ specifierText thoughts) :
    c ≠ '$' ∧ c ≠ '@' ∧ ¬ Text.isBlank c := by
  rcases List.mem_append.1 h with h | h
  · have hc := ht c h
    refine ⟨?_, ?_, ?_⟩
    · rintro rfl
      exact absurd hc (by decide)
    · rintro rfl
      exact absurd hc (by decide)
    · exact Text.not_isBlank_of_class (by decide +kernel) hc
  · have hs : (specifierText thoughts).all fun c => c ≠ '$' ∧ c ≠ '@' ∧ ¬ Text.isBlank c := by
      cases thoughts <;> decide
    exact of_decide_eq_true (List.all_eq_true.1 hs c h)

end TurnLink

namespace Link
variable {token : List Char} {l : Link}

/-- How a link that is read is spelled. -/
inductive Spelled : List Char → Prop
  | session {name : List Char} (hne : name ≠ []) (hn : ∀ c ∈ name, isNameChar c) : Spelled ('$' :: name)
  | turn {target : List Char} (conduit : Option String) (thoughts : Bool) (hne : target ≠ [])
      (ht : ∀ c ∈ target, TurnRef.isRefChar c)
      (hc : ∀ name ∈ conduit, name.toList ≠ [] ∧ ∀ c ∈ name.toList, c ≠ ':' ∧ ¬ Text.isBlank c) :
      Spelled ('@' :: (TurnLink.aliasText conduit ++ (target ++ TurnLink.specifierText thoughts)))

theorem not_isBlank_of_isNameChar {c : Char} (h : isNameChar c) : ¬ Text.isBlank c := by
  simp only [isNameChar, Bool.or_eq_true, decide_eq_true_eq] at h
  rcases h with ((h | rfl) | rfl) | rfl
  · exact Text.not_isBlank_of_isAlphanumeric h
  all_goals decide

theorem spelled_of_read (h : read token = .ok l) : Spelled token := by
  cases read_ok_iff.1 h with
  | session hne hn => exact .session hne hn
  | turn hl hd =>
    refine .turn _ _ TurnRef.spelled_ne_nil hd.isRefChar fun name hc => ?_
    have ha := hl.conduit name hc
    exact ⟨ha.ne_nil, fun c hm => ⟨fun he => ha.not_colon (he ▸ hm), ha.not_blank c hm⟩⟩

namespace Spelled

theorem exists_sigil (h : Spelled token) : ∃ c cs, token = c :: cs ∧ (c = '$' ∨ c = '@') := by
  cases h with
  | session => exact ⟨_, _, rfl, .inl rfl⟩
  | turn => exact ⟨_, _, rfl, .inr rfl⟩

theorem not_blank (h : Spelled token) : ∀ c ∈ token, ¬ Text.isBlank c := by
  intro c hm
  cases h with
  | session hne hn =>
    rcases List.mem_cons.1 hm with rfl | hm
    · decide
    · exact not_isBlank_of_isNameChar (hn c hm)
  | turn conduit thoughts hne ht hc =>
    rcases List.mem_cons.1 hm with rfl | hm
    · decide
    · rcases List.mem_append.1 hm with hm | hm
      · cases conduit with
        | none => cases hm
        | some name =>
          rcases List.mem_append.1 hm with hm | hm
          · exact ((hc name rfl).2 c hm).2
          · cases List.mem_singleton.1 hm
            decide
      · exact (TurnLink.not_sigil_of_mem ht hm).2.2

theorem not_sigil (h : Spelled token) {u v : List Char} {c : Char} (hc : c = '$' ∨ c = '@') :
    token ≠ u ++ ':' :: c :: v := by
  intro he
  cases h with
  | @session name hne hn =>
    have hm : ':' ∈ '$' :: name := he ▸ List.mem_append_right _ List.mem_cons_self
    rcases List.mem_cons.1 hm with hm | hm
    · cases hm
    · exact absurd (hn _ hm) (by decide)
  | @turn target conduit thoughts hne ht hcon =>
    have hr : c ∉ target ++ TurnLink.specifierText thoughts := fun hm => by
      have := TurnLink.not_sigil_of_mem ht hm
      exact hc.elim this.1 this.2.1
    generalize target ++ TurnLink.specifierText thoughts = tail at he hr
    cases u with
    | nil => cases (List.cons.inj he).1
    | cons d u =>
      have he := (List.cons.inj he).2
      cases conduit with
      | none =>
        have htail : tail = u ++ ':' :: c :: v := he
        simp [htail] at hr
      | some name =>
        rw [TurnLink.aliasText, List.append_assoc] at he
        rcases List.append_eq_append_iff.1 he with ⟨w, rfl, hw⟩ | ⟨w, hu, hw⟩
        · -- the colon is the one behind the alias or stands behind it
          have htail : c ∈ tail := by
            cases w with
            | nil =>
              have := (List.cons.inj hw).2
              simp_all
            | cons e w =>
              have := (List.cons.inj hw).2
              simp_all
          exact hr htail
        · cases w with
          | nil =>
            have htail : c :: v = tail := (List.cons.inj hw).2
            simp [← htail] at hr
          | cons e w =>
            obtain ⟨rfl, -⟩ := List.cons.inj hw
            have hm : ':' ∈ name.toList := by rw [hu]; simp
            exact ((hcon name rfl).2 _ hm).1 rfl

theorem noOverlap (h : Spelled token) : Template.NoOverlap token := by
  intro p s q hp hq
  cases p with
  | nil => exact .inl rfl
  | cons c p =>
  cases s with
  | nil => exact .inr rfl
  | cons d s =>
  exfalso
  -- `d` is the sigil of the link, and it stands in the link a second time
  cases h with
  | session hne hn =>
    obtain ⟨rfl, -⟩ := List.cons.inj hq
    have hm := (List.cons.inj hp).2 ▸ hn
    exact absurd (hm '$' (by simp)) (by decide)
  | @turn target conduit thoughts hne ht hcon =>
    obtain ⟨rfl, hq⟩ := List.cons.inj hq
    have hp := (List.cons.inj hp).2
    have hr : '@' ∉ target ++ TurnLink.specifierText thoughts := fun hm =>
      (TurnLink.not_sigil_of_mem ht hm).2.1 rfl
    generalize target ++ TurnLink.specifierText thoughts = tail at hp hq hr
    cases conduit with
    | none =>
      have htail : tail = p ++ '@' :: s := hp
      simp [htail] at hr
    | some name =>
      have hcolon : ':' ∉ name.toList := fun hm => ((hcon name rfl).2 _ hm).1 rfl
      rw [TurnLink.aliasText, List.append_assoc, List.singleton_append] at hp hq
      rcases List.append_eq_append_iff.1 hp with ⟨w, rfl, hw⟩ | ⟨w, hn, hw⟩
      · cases w with
        | nil => cases (List.cons.inj hw).1
        | cons e w =>
          have htail : tail = w ++ '@' :: s := (List.cons.inj hw).2
          simp [htail] at hr
      · cases w with
        | nil => cases (List.cons.inj hw).1
        | cons e w =>
          obtain ⟨rfl, rfl⟩ := List.cons.inj hw
          have hw : ':' ∉ w := fun hm => hcolon (by rw [hn]; simp [hm])
          have hq' : name.toList ++ ':' :: tail = w ++ ':' :: (tail ++ q) := by
            rw [(List.cons.inj hq).2]
            simp
          have := congrArg List.length ((Text.eq_of_append_cons hcolon hw hq').symm.trans hn)
          simp at this
          omega

end Spelled

end Link

end PortalScript
