import Mathlib.Data.List.Perm.Basic
import Mathlib.Data.List.Nodup
import PortalScript.Proofs.Resolution.Prepare

/-! # What the directives leave mounted

Each directive is committed by itself and in its place, so an alias stands for the conversation of the
last directive that names it and was fetched, and for what it stood for before where there is none
(`mounted_eq_getLast?`). A directive that was not fetched, or that names another alias, has no part in
this. Where pauses last as long as they are asked to, a known conversation is fetched just if it is not
set to take longer than the timeout (`fetched_iff_of_exact`). -/

namespace PortalScript

/-- How many milliseconds fetching a conversation is set to take. -/
def Fixture.delay (f : Fixture) (id : String) : Nat := (f.fetchDelays.get? id).getD 0

theorem Fixture.fetchDelay_of_exact {timer : Timer} (h : timer.Exact) (f : Fixture) (id : String) :
    f.fetchDelay id timer = f.delay id := by
  unfold fetchDelay delay
  cases f.fetchDelays.get? id with
  | none => rfl
  | some delay => exact h delay

namespace Mount

/-- The conversation of a directive is fetched: it is known, and no timeout ends the fetch before. -/
def Fetched (settings : Settings) (f : Fixture) (m : Mount) : Prop :=
  (f.conversations.get? m.source).isSome ∧ ∀ limit ∈ settings.mountTimeout,
    ¬ settings.timer.length limit < f.fetchDelay m.source settings.timer

instance (settings : Settings) (f : Fixture) (m : Mount) : Decidable (m.Fetched settings f) :=
  inferInstanceAs (Decidable (_ ∧ _))

/-- The conversation of a directive is known and not set to take longer than the timeout. -/
def Fetchable (settings : Settings) (f : Fixture) (m : Mount) : Prop :=
  (f.conversations.get? m.source).isSome ∧
    ∀ limit ∈ settings.mountTimeout, ¬ limit < f.delay m.source

instance (settings : Settings) (f : Fixture) (m : Mount) : Decidable (m.Fetchable settings f) :=
  inferInstanceAs (Decidable (_ ∧ _))

/-- The directives for an alias that are fetched. -/
def fetchedFor (settings : Settings) (f : Fixture) (name : String) (mounts : List Mount) : List Mount :=
  mounts.filter fun m => m.conduit = name ∧ m.Fetched settings f

variable {settings : Settings} {f : Fixture} {name : String} {m : Mount} {mounts mounts' : List Mount}

theorem fetched_iff_of_exact (h : settings.timer.Exact) :
    m.Fetched settings f ↔ m.Fetchable settings f := by
  rw [Fetched, f.fetchDelay_of_exact h]
  simp only [h _]
  rfl

theorem toOption_fetch (settings : Settings) (f : Fixture) (m : Mount) :
    (settings.fetch f m.source).toOption =
      if m.Fetched settings f then f.conversations.get? m.source else none := by
  have hfetch : (f.fetch m.source).toOption = f.conversations.get? m.source := by
    unfold Fixture.fetch
    cases f.conversations.get? m.source <;> rfl
  unfold Settings.fetch
  split <;> rename_i hl
  · rw [hfetch]
    cases hc : f.conversations.get? m.source <;> simp [Fetched, hl, hc]
  · rename_i limit
    split <;> rename_i hlt
    · rw [if_neg fun h => h.2 limit hl hlt]
      rfl
    · rw [hfetch]
      cases hc : f.conversations.get? m.source <;> simp [Fetched, hl, hc, Nat.le_of_not_lt hlt]

theorem mem_fetchedFor : m ∈ fetchedFor settings f name mounts ↔
    m ∈ mounts ∧ m.conduit = name ∧ m.Fetched settings f := by
  simp [fetchedFor]

theorem exists_of_mem_fetchedFor (h : m ∈ fetchedFor settings f name mounts) :
    ∃ history, f.conversations.get? m.source = some history :=
  Option.isSome_iff_exists.1 (mem_fetchedFor.1 h).2.2.1

theorem fetchedFor_append (before after : List Mount) : fetchedFor settings f name (before ++ after) =
    fetchedFor settings f name before ++ fetchedFor settings f name after :=
  List.filter_append before after

theorem fetchedFor_cons_pos (h : m.conduit = name ∧ m.Fetched settings f) :
    fetchedFor settings f name (m :: mounts) = m :: fetchedFor settings f name mounts :=
  List.filter_cons_of_pos (by simpa using h)

theorem fetchedFor_cons_neg (h : ¬ (m.conduit = name ∧ m.Fetched settings f)) :
    fetchedFor settings f name (m :: mounts) = fetchedFor settings f name mounts :=
  List.filter_cons_of_neg (by simpa using h)

theorem length_fetchedFor_le (h : (mounts.map (·.conduit)).Nodup) :
    (fetchedFor settings f name mounts).length ≤ 1 := by
  have hnodup : ((fetchedFor settings f name mounts).map (·.conduit)).Nodup :=
    h.sublist (List.filter_sublist.map _)
  have hname : (fetchedFor settings f name mounts).map (·.conduit) =
      List.replicate (fetchedFor settings f name mounts).length name := by
    refine List.eq_replicate_iff.2 ⟨List.length_map _, fun conduit hc => ?_⟩
    obtain ⟨m, hm, rfl⟩ := List.mem_map.1 hc
    exact (mem_fetchedFor.1 hm).2.1
  rw [hname] at hnodup
  exact List.nodup_replicate.1 hnodup

theorem fetchedFor_perm (hp : mounts.Perm mounts') (h : (mounts.map (·.conduit)).Nodup) :
    fetchedFor settings f name mounts' = fetchedFor settings f name mounts := by
  have hp' : (fetchedFor settings f name mounts).Perm (fetchedFor settings f name mounts') :=
    hp.filter _
  have hl : (fetchedFor settings f name mounts).length ≤ 1 := length_fetchedFor_le h
  match hm : fetchedFor settings f name mounts, hl with
  | [], _ => exact (List.nil_perm.1 (hm ▸ hp'))
  | [m], _ => exact (List.singleton_perm.1 (hm ▸ hp')).symm

end Mount

namespace Session
variable {settings : Settings} {f : Fixture}

/-- The last directive for an alias that is fetched decides. -/
theorem mounted_eq_getLast? (name : String) (mounts : List Mount) :
    mounted settings f name mounts =
      (Mount.fetchedFor settings f name mounts).getLast?.bind fun m => f.conversations.get? m.source := by
  induction mounts with
  | nil => rfl
  | cons m mounts ih =>
    rw [mounted, ih, Mount.toOption_fetch]
    by_cases h : m.conduit = name ∧ m.Fetched settings f
    · rw [if_pos h.1, if_pos h.2, Mount.fetchedFor_cons_pos h, List.getLast?_cons]
      cases hl : (Mount.fetchedFor settings f name mounts).getLast? with
      | none => rfl
      | some last =>
        obtain ⟨history, hh⟩ := Mount.exists_of_mem_fetchedFor (List.mem_of_getLast? hl)
        simp [hh]
    · rw [Mount.fetchedFor_cons_neg h, ← ite_and, if_neg h, Option.or_none]

end Session

namespace Run

/-- What the conduits are after mounting, by alias. -/
def mountedTable (settings : Settings) (s : State) (mounts : List Mount) (name : String) :
    Option History :=
  ((mountAll settings mounts).run s).2.session.conduits.get? name

variable {settings : Settings} {s : State} {name : String} {mounts mounts' : List Mount}

theorem mountedTable_eq (settings : Settings) (s : State) (mounts : List Mount) (name : String) :
    mountedTable settings s mounts name =
      ((Mount.fetchedFor settings s.fixture name mounts).getLast?.bind fun m =>
        s.fixture.conversations.get? m.source).or (s.session.conduits.get? name) := by
  rw [mountedTable, run_mountAll, ← Session.mounted_eq_getLast?]
  exact Session.get?_foldl_commit mounts s.session name

theorem mountedTable_congr (h : Mount.fetchedFor settings s.fixture name mounts' =
    Mount.fetchedFor settings s.fixture name mounts) :
    mountedTable settings s mounts' name = mountedTable settings s mounts name := by
  rw [mountedTable_eq, mountedTable_eq, h]

/-- Let pauses last as long as they are asked to. After mounting, an alias stands for the conversation of
the last directive for it whose source is known and not set to take longer than the timeout, and for what
it stood for before if there is none. So a directive that fails or that is for another alias changes
nothing, and neither does the order of directives with distinct aliases. -/
theorem mountedTable_exact (h : settings.timer.Exact) (s : State) (mounts : List Mount) :
    (∀ name, mountedTable settings s mounts name =
      match (mounts.filter fun m => m.conduit = name ∧ m.Fetchable settings s.fixture).getLast? with
      | some m => s.fixture.conversations.get? m.source
      | none => s.session.conduits.get? name) ∧
    (∀ before m after, mounts = before ++ m :: after → ∀ name,
      m.conduit ≠ name ∨ ¬ m.Fetchable settings s.fixture →
        mountedTable settings s mounts name = mountedTable settings s (before ++ after) name) ∧
    ∀ mounts', mounts.Perm mounts' → (mounts.map (·.conduit)).Nodup →
      mountedTable settings s mounts' = mountedTable settings s mounts := by
  simp only [← Mount.fetched_iff_of_exact h]
  refine ⟨fun name => ?_, ?_, ?_⟩
  · rw [mountedTable_eq, ← Mount.fetchedFor]
    cases hl : (Mount.fetchedFor settings s.fixture name mounts).getLast? with
    | none => rfl
    | some m =>
      obtain ⟨history, hh⟩ := Mount.exists_of_mem_fetchedFor (List.mem_of_getLast? hl)
      simp [hh]
  · rintro before m after rfl name hm
    refine mountedTable_congr ?_
    rw [Mount.fetchedFor_append, Mount.fetchedFor_cons_neg, Mount.fetchedFor_append]
    rintro ⟨hn, hf⟩
    exact hm.elim (· hn) (· hf)
  · intro mounts' hp hn
    funext name
    exact mountedTable_congr (Mount.fetchedFor_perm hp hn)

/-- A source that is too slow and one that is not known leave what an earlier directive mounted. -/
theorem mountedTable_slow :
    let settings : Settings := { timer := ⟨id⟩ }
    let fixture : Fixture := {
      conversations := ⟨[("near", [.user "hello"]), ("far", [])]⟩
      fetchDelays := ⟨[("near", 30000), ("far", 30001)]⟩ }
    settings.timer.Exact ∧ mountedTable settings { session := {}, fixture }
      [⟨"a", "near"⟩, ⟨"a", "far"⟩, ⟨"a", "nowhere"⟩] "a" = some [.user "hello"] := by
  intro settings fixture
  have hexact : settings.timer.Exact := fun _ => rfl
  exact ⟨hexact, ((mountedTable_exact hexact { session := {}, fixture } _).1 "a").trans (by decide)⟩

end Run

end PortalScript
