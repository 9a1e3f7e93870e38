import PortalScript.Cli.Command
import PortalScript.Proofs.Text.Split

/-! # Overrides among the arguments

`Options.override?` opens a `TOKEN=TEXT` at its first equals sign. Overrides in front of the arguments of a
command come before the command's own, and no other argument is read in another way for them
(`Command.parse_override`): each way to read an argument commutes with `Reading.overriding`. -/

namespace PortalScript.Cli

/-- The token of an override ends at the first equals sign. -/
theorem Options.override?_eq_some_iff {value token text : String} :
    override? value = some (token, text) ↔
      value = token ++ "=" ++ text ∧ token ≠ "" ∧ '=' ∉ token.toList := by
  constructor
  · intro h
    unfold override? at h
    split at h
    · cases h
    · rename_i front back hne hcut
      cases h
      obtain ⟨hvalue, hfront⟩ := Text.cutAt?_eq_some_iff.1 hcut
      refine ⟨?_, ?_, by rwa [String.toList_ofList]⟩
      · rw [← String.toList_inj, hvalue]
        simp [String.toList_append]
      · intro he
        rw [← String.toList_inj, String.toList_ofList] at he
        exact hne he
    · cases h
  · rintro ⟨rfl, hne, htoken⟩
    have hcut : Text.cutAt? ['='] (token ++ "=" ++ text).toList = some (token.toList, text.toList) :=
      Text.cutAt?_eq_some_iff.2 ⟨by simp [String.toList_append], htoken⟩
    obtain ⟨c, cs, hc⟩ := List.exists_cons_of_ne_nil (mt String.toList_eq_nil_iff.1 hne)
    rw [override?, hcut, hc]
    dsimp only
    rw [← hc, String.ofList_toList, String.ofList_toList]

/-- The options with overrides before their own. -/
def Options.overriding (entries : List (String × String)) (o : Options) : Options :=
  { o with overrides := entries ++ o.overrides }

namespace Reading
variable {value : String}

theorem shape_eq_plain {c : Char} {cs : List Char} (h : value.toList = c :: cs) (hc : c ≠ '-') :
    shape value = .plain := by
  unfold shape
  rw [h]
  split <;> rename_i he
  · exact absurd (List.cons.inj he).1 hc
  · exact absurd (List.cons.inj he).1 hc
  · exact absurd (List.cons.inj he).1 hc
  · rfl

/-! Overrides that were read first stay in front, and no other argument is read in another way for them. -/

def overriding (entries : List (String × String)) (r : Reading) : Reading :=
  { r with options := r.options.overriding entries }

section
variable (entries : List (String × String)) (r : Reading)

theorem set_overriding (s : Setting) (value : String) :
    (r.overriding entries).set s value = (r.set s value).map (overriding entries) := by
  cases s with
  | override =>
    simp only [set, Options.set]
    cases Options.override? value <;> simp [Except.map, overriding, Options.overriding]
  | promptSource => rfl
  | fixture | selectors | settle | mountTimeout | missingTemplate =>
    simp only [set, Options.set, overriding, Options.overriding]
    cases Options.once _ _ _ value <;> rfl

theorem switch_overriding (name : String) :
    (r.overriding entries).switch name = (r.switch name).map (overriding entries) := by
  unfold switch
  have hevents : (r.overriding entries).options.events = r.options.events := rfl
  rw [hevents]
  split_ifs <;> rfl

theorem letter_overriding (c : Char) :
    (r.overriding entries).letter c = (r.letter c).map (overriding entries) := by
  unfold letter
  split_ifs
  · exact switch_overriding entries r _
  · exact switch_overriding entries r _
  · rfl

theorem argument_overriding (value : String) :
    (r.overriding entries).argument value = (r.argument value).map (overriding entries) := by
  unfold argument
  dsimp only [overriding]
  cases r.script <;> rfl

theorem bind_overriding {step : Reading → Except Stop Reading}
    (hstep : ∀ r, step (overriding entries r) = (step r).map (overriding entries))
    (first : Except Stop Reading) :
    (first.map (overriding entries) >>= step) = (first >>= step).map (overriding entries) := by
  cases first with
  | error e => rfl
  | ok r => exact hstep r

theorem foldlM_overriding {α : Type} {step : Reading → α → Except Stop Reading}
    (hstep : ∀ r a, step (overriding entries r) a = (step r a).map (overriding entries)) (as : List α) :
    as.foldlM step (r.overriding entries) = (as.foldlM step r).map (overriding entries) := by
  induction as generalizing r with
  | nil => rfl
  | cons a as ih =>
    rw [List.foldlM_cons, List.foldlM_cons, hstep]
    exact bind_overriding entries ih _

theorem run_overriding (args : List String) :
    (r.overriding entries).run args = (r.run args).map (overriding entries) := by
  induction r, args using run.induct with
  | case1 r => rfl
  | case2 r arg rest hshape =>
    simp only [run, hshape]
    exact foldlM_overriding entries r (argument_overriding entries) rest
  | case3 r arg rest hshape ih =>
    simp only [run, hshape, argument_overriding]
    exact bind_overriding entries ih _
  | case4 r arg rest letters hshape ih =>
    simp only [run, hshape, foldlM_overriding entries r (letter_overriding entries)]
    exact bind_overriding entries ih _
  | case5 r arg rest name value hshape s hs ih =>
    simp only [run, hshape, hs, set_overriding]
    exact bind_overriding entries ih _
  | case7 r arg rest name hshape hs ih =>
    simp only [run, hshape, hs, switch_overriding]
    exact bind_overriding entries ih _
  | case9 r arg name hshape s hs value rest hplain ih =>
    simp only [run, hshape, hs, if_pos hplain, set_overriding]
    exact bind_overriding entries ih _
  | case6 r arg rest name value hshape hs | case8 r arg name hshape s hs =>
    simp only [run, hshape, hs]
    rfl
  | case10 r arg name hshape s hs value rest hplain =>
    simp only [run, hshape, hs, if_neg hplain]
    rfl

end

end Reading

/-- The command with overrides before its own. -/
def Command.overriding (entries : List (String × String)) (command : Command) : Command :=
  { command with options := command.options.overriding entries }

theorem Command.overriding_inj {entries entries' : List (String × String)} {command : Command} :
    command.overriding entries = command.overriding entries' ↔ entries = entries' := by
  simp [overriding, Options.overriding]

theorem Command.parse_override {value : String} {entry : String × String}
    (hv : Reading.shape value = .plain) (he : Options.override? value = some entry) (args : List String) :
    parse ("--override" :: value :: args) = (parse args).map (overriding [entry]) := by
  have hrun : Reading.run {} ("--override" :: value :: args) =
      (Reading.run {} args).map (Reading.overriding [entry]) := by
    have hshape : Reading.shape "--override" = .long "override" none := by decide +kernel
    have hname : Setting.ofName? "override" = some .override := Setting.ofName?_name .override
    have hset : Reading.set {} .override value = .ok (Reading.overriding [entry] {}) := by
      rw [Reading.set, Options.set, he]
      rfl
    simp only [Reading.run, hshape, hname, if_pos hv, hset]
    exact Reading.run_overriding [entry] {} args
  rw [parse, parse, hrun]
  cases Reading.run {} args with
  | error stop => rfl
  | ok r =>
    obtain ⟨script, options⟩ := r
    cases script <;> rfl

end PortalScript.Cli
