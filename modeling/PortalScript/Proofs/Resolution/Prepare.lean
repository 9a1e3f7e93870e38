import PortalScript.Proofs.Resolution.Calm
import PortalScript.Proofs.Table.Insert
import PortalScript.Resolution.Mounting

/-! # Preparing twice

Before a pass resolves anything, it mounts the conversations that the script asks for and scrapes the
live one. The session that this leaves depends on the fixture and on the session before
(`run_prepare`, `prepared_eq`), and preparing it again changes nothing (`prepared_prepared`). -/

namespace PortalScript

namespace Table
variable {α : Type}

theorem get?_insert_or (t : Table α) (key k : String) (v : α) :
    (t.insert key v).get? k = (if key = k then some v else none).or (t.get? k) := by
  rw [get?_insert]
  split <;> simp

end Table

namespace Session

/-- The session with the conversation of a directive mounted, if it can be fetched. -/
def commit (settings : Settings) (f : Fixture) (s : Session) (m : Mount) : Session :=
  match settings.fetch f m.source with
  | .ok history => s.commitConduit m.conduit history
  | .error _ => s

/-- The session with the live conversation scraped, if it can be. -/
def scrape (f : Fixture) (s : Session) : Session :=
  match f.scrapeError with
  | none => s.setHistory f.history
  | some _ => s.markScraped

/-- The session in which the portals of a script are resolved. -/
def prepared (settings : Settings) (f : Fixture) (script : String) (s : Session) : Session :=
  ((Mount.extract script).1.foldl (commit settings f) s.invalidate).scrape f

/-- What the directives mount under an alias. -/
def mounted (settings : Settings) (f : Fixture) (name : String) : List Mount → Option History
  | [] => none
  | m :: mounts =>
    (mounted settings f name mounts).or
      (if m.conduit = name then (settings.fetch f m.source).toOption else none)

/-- What the directives mount, in their order. -/
def fetched (settings : Settings) (f : Fixture) (mounts : List Mount) : List (String × History) :=
  mounts.filterMap fun m => (settings.fetch f m.source).toOption.map (m.conduit, ·)

variable {settings : Settings} {f : Fixture} {s : Session}

theorem get?_commit (m : Mount) (name : String) : (s.commit settings f m).conduits.get? name =
    (if m.conduit = name then (settings.fetch f m.source).toOption else none).or
      (s.conduits.get? name) := by
  unfold commit
  split <;> rename_i h
  · rw [h]
    exact Table.get?_insert_or s.conduits m.conduit name _
  · rw [h]
    simp [Except.toOption]

theorem get?_foldl_commit (mounts : List Mount) (s : Session) (name : String) :
    (mounts.foldl (commit settings f) s).conduits.get? name =
      (mounted settings f name mounts).or (s.conduits.get? name) := by
  induction mounts generalizing s with
  | nil => rfl
  | cons m mounts ih => rw [List.foldl_cons, ih, get?_commit, mounted, Option.or_assoc]

theorem foldl_commit (mounts : List Mount) (s : Session) : mounts.foldl (commit settings f) s =
    { s with conduits := s.conduits.insertAll (fetched settings f mounts) } := by
  induction mounts generalizing s with
  | nil => rfl
  | cons m mounts ih =>
    rw [List.foldl_cons, ih, commit]
    cases hm : settings.fetch f m.source with
    | ok history =>
      have hf : fetched settings f (m :: mounts) = (m.conduit, history) :: fetched settings f mounts := by
        simp [fetched, hm, Except.toOption]
      rw [hf]
      rfl
    | error e =>
      have hf : fetched settings f (m :: mounts) = fetched settings f mounts := by
        simp [fetched, hm, Except.toOption]
      rw [hf]

theorem prepared_eq (script : String) (s : Session) : s.prepared settings f script =
    { s with
      history := if f.scrapeError = none then f.history else s.history
      conduits := s.conduits.insertAll (fetched settings f (Mount.extract script).1)
      scraped := true } := by
  unfold prepared scrape
  rw [foldl_commit]
  cases f.scrapeError <;> rfl

theorem prepared_prepared (script : String) (s : Session) :
    (s.prepared settings f script).prepared settings f script = s.prepared settings f script := by
  simp only [prepared_eq, Table.insertAll_insertAll]
  split <;> rfl

end Session

/-- How the attempt to fetch the conversation of a directive is reported. -/
def Mount.report (settings : Settings) (f : Fixture) (m : Mount) : Event :=
  match settings.fetch f m.source with
  | .ok history => .mountSucceeded m.conduit m.source history.length
  | .error e => .mountFailed m.conduit m.source e.message

/-- How a scrape of the live conversation is reported. -/
def Fixture.scrapeReport (f : Fixture) : Event :=
  match f.scrapeError with
  | none => .scrapeCompleted f.history.length
  | some reason => .scrapeFailed reason

namespace Run

variable {settings : Settings}

/-- The reports of mounting and scraping. -/
def prepareEvents (settings : Settings) (f : Fixture) (script : String) : List Event :=
  let mounts := (Mount.extract script).1
  (mounts.map fun m => .mountStarted m.conduit m.source) ++ mounts.map (Mount.report settings f) ++
    [f.scrapeReport]

/-- How long it takes to fetch all conversations at the same time. -/
def fetchTime (settings : Settings) (f : Fixture) (mounts : List Mount) : Nat :=
  (mounts.map fun m => settings.fetchTime f m.source).foldl max 0

theorem run_commitMount (m : Mount) (s : State) : (commitMount settings m).run s =
    ((), { s with
      session := s.session.commit settings s.fixture m
      events := s.events ++ [m.report settings s.fixture] }) := by
  unfold commitMount Session.commit Mount.report
  have hg : (get : Run State).run s = (s, s) := rfl
  rw [run_bind hg]
  cases settings.fetch s.fixture m.source <;> rfl

theorem run_commitMounts (mounts : List Mount) (s : State) :
    (mounts.forM (commitMount settings)).run s = ((), { s with
      session := mounts.foldl (Session.commit settings s.fixture) s.session
      events := s.events ++ mounts.map (Mount.report settings s.fixture) }) := by
  induction mounts generalizing s with
  | nil => rw [List.map_nil, List.append_nil]; rfl
  | cons m mounts ih =>
    refine (run_bind (run_commitMount m s)).trans ((ih _).trans ?_)
    simp

theorem run_emits (e : Mount → Event) (mounts : List Mount) (s : State) :
    (mounts.forM fun m => emit (e m)).run s =
      ((), { s with events := s.events ++ mounts.map e }) := by
  induction mounts generalizing s with
  | nil => rw [List.map_nil, List.append_nil]; rfl
  | cons m mounts ih =>
    refine (ih { s with events := s.events ++ [e m] }).trans ?_
    simp

theorem run_mountAll (mounts : List Mount) (s : State) : (mountAll settings mounts).run s =
    ((), { s with
      session := mounts.foldl (Session.commit settings s.fixture) s.session
      events := s.events ++ (mounts.map fun m => .mountStarted m.conduit m.source) ++
        mounts.map (Mount.report settings s.fixture)
      elapsed := s.elapsed + fetchTime settings s.fixture mounts }) := by
  unfold mountAll
  rw [run_bind (run_emits (fun m => .mountStarted m.conduit m.source) mounts s)]
  exact run_commitMounts mounts ((wait _).run { s with events := _ }).2

theorem run_scrape (s : State) : scrape.run s = ((), { s with
    session := s.session.scrape s.fixture
    fixture := { s.fixture with scrapes := s.fixture.scrapes + 1 }
    events := s.events ++ [s.fixture.scrapeReport] }) := by
  obtain ⟨session, ⟨history, _, _, _, _, scrapeError, _, _, _⟩, _, _, _⟩ := s
  cases scrapeError <;> rfl

theorem run_prepare (script : String) (s : State) : (prepare settings script).run s =
    ((Mount.extract script).2, { s with
      session := s.session.prepared settings s.fixture script
      fixture := { s.fixture with scrapes := s.fixture.scrapes + 1 }
      events := s.events ++ prepareEvents settings s.fixture script
      elapsed := s.elapsed + fetchTime settings s.fixture (Mount.extract script).1 }) := by
  have hi : (modifySession (·.invalidate)).run s =
      ((), { s with session := s.session.invalidate }) := rfl
  unfold prepare
  rw [run_bind hi, run_bind (run_mountAll _ _), run_bind (run_scrape _), run_pure]
  simp [prepareEvents, Session.prepared]

end Run

end PortalScript
