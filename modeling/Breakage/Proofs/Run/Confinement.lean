import Breakage.Proofs.Package.Described
import Breakage.Proofs.Run.Invariant
import Breakage.Proofs.Run.Stages
import Breakage.Proofs.Sparing

/-!
Where the digests of a baseline are. Making a baseline ready touches the places of its digests and
temporary directories, nothing else (`Baseline.confined_prepare`). Such a place is in the directory,
under the name of its module, just when there is no slash in the name (`FileTree.aim_digestPath_iff`).
Main statement: `Baseline.digests_confined`.
-/

namespace Breakage

namespace FileTree

/-- From everywhere, the digest of a module is in the directory under the name of the module just when
there is no slash in this name. -/
theorem aim_digestPath_iff (here : Place) (directory : Path) (m : ModuleName) :
    aim here (m.digestPath directory) = aim here directory ++ [m.text ++ ".json"] ↔
      '/' ∉ m.text.toList := by
  constructor
  · intro haim
    obtain ⟨front, last, hpath, hplain, -⟩ := m.exists_components_digestPath directory
    have hordinary : 2 < (last ++ ".json").length := ordinary_digest ⟨last⟩
    rw [aim, hpath, List.foldl_append, List.foldl_cons, List.foldl_nil,
      move_of_ordinary hordinary] at haim
    have hname := List.singleton_inj.1 (List.append_inj' haim rfl).2
    rwa [← (String.append_left_inj ".json").1 hname]
  · intro plain
    rw [ModuleName.digestPath, aim_join here directory (plain_digest plain),
      move_of_ordinary (ordinary_digest m)]

/-! ### Directories are no files -/

theorem lookup_of_makeDirectory {t u : FileTree} {here : Place} {path : Path}
    (h : t.makeDirectory here path = .ok u) {p : Place} {content : Content}
    (hp : u.lookup p = some (.file content)) : t.lookup p = some (.file content) := by
  obtain ⟨q, -, free, rfl⟩ := makeDirectory_eq_ok.1 h
  by_cases hroot : p = []
  · subst hroot
    cases hp
  · rw [lookup_put t q p _ hroot] at hp
    split at hp
    · cases hp
    · exact hp

theorem lookup_of_makeAbove {t : FileTree} {here : Place} {absolute : Bool} {path : Path}
    {reversed : List String} {p : Place} {content : Content}
    (hp : (t.makeAbove here absolute path reversed).2.lookup p = some (.file content)) :
    t.lookup p = some (.file content) := by
  induction reversed generalizing t path with
  | nil =>
    unfold makeAbove at hp
    split at hp
    · rename_i u hu
      exact lookup_of_makeDirectory hu hp
    · rw [unlessDirectory_snd] at hp
      exact hp
  | cons name rest ih =>
    unfold makeAbove at hp
    split at hp
    · rename_i u hu
      exact lookup_of_makeDirectory hu hp
    · split at hp
      · rename_i e u hu
        exact ih (by rw [hu]; exact hp)
      · rename_i u hu
        refine @ih _ (pathOf absolute (name :: rest)) ?_
        rw [hu]
        split at hp
        · rename_i v hv
          exact lookup_of_makeDirectory hv hp
        · rw [unlessDirectory_snd] at hp
          exact hp
    · rw [unlessDirectory_snd] at hp
      exact hp

theorem lookup_of_makeDirectories {t : FileTree} {here : Place} {path : Path} {p : Place}
    {content : Content} (hp : (t.makeDirectories here path).2.lookup p = some (.file content)) :
    t.lookup p = some (.file content) := by
  unfold makeDirectories at hp
  split at hp
  · exact hp
  · exact lookup_of_makeAbove hp

end FileTree

namespace Host

def IsTemporary (h : Host) (stem : String) (q : Place) : Prop :=
  ∃ ending ∈ h.endings, q = FileTree.aim h.workingDirectory (h.temporary.join (stem ++ ending))

theorem isTemporary_of_makeTemporary {h h' : Host} {stem : String} {path : Path}
    (made : h.makeTemporary stem = .ok (path, h')) :
    h.IsTemporary stem (FileTree.aim h.workingDirectory path) := by
  obtain ⟨ending, hending, rfl, -⟩ := makeFresh_eq_ok made
  exact ⟨ending, hending, rfl⟩

/-- The files outside the trees are those that were there before. Those in the fresh trees, where
nothing was, do not count. -/
structure Confines (fresh trees : List Place) (h h' : Host) : Prop extends h.Spares trees h' where
  clear : ∀ q ∈ fresh, ∀ p e, Place.IsOutside p trees → h.files.lookup p = some e → ¬q <+: p
  made : ∀ p content, Place.IsOutside p (fresh ++ trees) →
    h'.files.lookup p = some (.file content) → h.files.lookup p = some (.file content)

namespace Confines

variable {fresh trees trees' : List Place} {h h' h'' : Host} {path : Path} {q : Place}

theorem refl (trees : List Place) (h : Host) : h.Confines [] trees h :=
  ⟨.refl trees h, nofun, fun _ _ _ hp => hp⟩

theorem mono (c : h.Confines fresh trees h') (sub : ∀ r ∈ trees, ∃ q ∈ trees', q <+: r) :
    h.Confines fresh trees' h' := by
  have houtside : ∀ p : Place, p.IsOutside trees' → p.IsOutside trees := by
    intro p hp r hr hbelow
    obtain ⟨q, hq, habove⟩ := sub r hr
    exact hp q hq (habove.trans hbelow)
  refine ⟨⟨c.workingDirectory, fun p e hp => c.files p e (houtside p hp)⟩,
    fun q hq p e hp => c.clear q hq p e (houtside p hp), fun p content hp => c.made p content ?_⟩
  intro r hr
  rcases List.mem_append.1 hr with hr | hr
  · exact hp r (List.mem_append_left _ hr)
  · exact houtside p (fun q hq => hp q (List.mem_append_right _ hq)) r hr

theorem trans (first : h.Confines fresh trees h')
    (sub : ∀ r ∈ trees', ∃ q ∈ fresh ++ trees, q <+: r) (next : h'.Confines [] trees' h'') :
    h.Confines fresh trees h'' := by
  refine ⟨⟨next.workingDirectory.trans first.workingDirectory, fun p e hp he => ?_⟩, first.clear,
    fun p content hp hc => first.made p content hp (next.made p content (fun r hr hbelow => ?_) hc)⟩
  · refine next.files p e (fun r hr hbelow => ?_) (first.files p e hp he)
    obtain ⟨q, hq, habove⟩ := sub r hr
    rcases List.mem_append.1 hq with hq | hq
    · exact first.clear q hq p e hp he (habove.trans hbelow)
    · exact hp q hq (habove.trans hbelow)
  · obtain ⟨q, hq, habove⟩ := sub r hr
    exact hp q hq (habove.trans hbelow)

theorem ofWrites (w : h.Writes path h') (hq : FileTree.aim h.workingDirectory path = q) :
    h.Confines [] [q] h' := by
  have hsame : ∀ p : Place, p.IsOutside [q] → h'.files.lookup p = h.files.lookup p := by
    intro p hp
    refine w.elsewhere p fun hplace => ?_
    rw [aim_of_place? hplace] at hq
    exact hp q List.mem_cons_self (hq ▸ List.prefix_rfl)
  exact ⟨⟨w.workingDirectory, fun p e hp he => (hsame p hp).trans he⟩, nofun,
    fun p content hp hc => (hsame p hp).symm.trans hc⟩

theorem makeDirectories (trees : List Place) (h : Host) (path : Path) :
    h.Confines [] trees (h.makeDirectories path).2 :=
  ⟨(Spares.refl trees h).makeDirectories path, nofun,
    fun _ _ _ hc => FileTree.lookup_of_makeDirectories hc⟩

theorem makeTemporary (c : h.Confines fresh trees h') {stem : String}
    (made : h'.makeTemporary stem = .ok (path, h'')) (connected : h.files.IsConnected) :
    h.Confines (FileTree.aim h.workingDirectory path :: fresh) trees h'' := by
  obtain ⟨spares, clear⟩ := c.toSpares.makeTemporary made connected
  refine ⟨spares, fun q hq => ?_, fun p content hp hc => ?_⟩
  · rcases List.mem_cons.1 hq with rfl | hq
    · exact clear
    · exact c.clear q hq
  · obtain ⟨ending, -, -, files, hmade, rfl⟩ := makeFresh_eq_ok made
    refine c.made p content (fun r hr => hp r ?_) (FileTree.lookup_of_makeDirectory hmade hc)
    exact List.mem_cons_of_mem _ hr

theorem removeTree (c : h.Confines fresh trees h')
    (hfresh : FileTree.aim h.workingDirectory path ∈ fresh) :
    h.Confines fresh trees (h'.removeTree path) := by
  refine ⟨c.toSpares.removeTree (c.clear _ hfresh), c.clear, fun p content hp hc => ?_⟩
  refine c.made p content hp ?_
  rw [files_removeTree] at hc
  split at hc
  · exact hc
  · exact FileTree.lookup_of_prune hc

end Confines

end Host

/-- The dump of a digest does nothing but write its output, or take it away. -/
def Digester.WritesOutput (g : Digester) : Prop :=
  ∀ directory (m : ModuleName) plan (h : Host),
    h.Writes (m.digestPath directory) (g.dump m plan (m.digestPath directory) h).2

/-- Version control and the build work in these trees only, and in the tree of a checkout. -/
structure Collaborators.StaysIn (c : Collaborators) (trees : List Place) : Prop where
  checkOut : ∀ revision destination (h : Host),
    h.Confines [] (FileTree.aim h.workingDirectory destination :: trees)
      (c.versionControl.checkOut revision destination h).2
  /-- the tree that was checked out is where it was to be -/
  root : ∀ revision destination (h : Host) root,
    (c.versionControl.checkOut revision destination h).1 = .ok root →
      FileTree.aim h.workingDirectory root = FileTree.aim h.workingDirectory destination
  graph : ∀ root (h : Host), h.Confines [] (FileTree.aim h.workingDirectory root :: trees)
    (c.buildSystem.graph root h).2
  build : ∀ root (h : Host), h.Confines [] (FileTree.aim h.workingDirectory root :: trees)
    (c.buildSystem.build root h).2

theorem Collaborators.StaysIn.mono {c : Collaborators} {trees trees' : List Place}
    (stays : c.StaysIn trees) (sub : ∀ r ∈ trees, r ∈ trees') : c.StaysIn trees' := by
  have hsub : ∀ (here : Place), ∀ r ∈ here :: trees, ∃ q ∈ here :: trees', q <+: r := by
    intro here r hr
    refine ⟨r, ?_, List.prefix_rfl⟩
    rcases List.mem_cons.1 hr with rfl | hr
    · exact List.mem_cons_self
    · exact List.mem_cons_of_mem _ (sub r hr)
  exact ⟨fun revision destination h => (stays.checkOut revision destination h).mono (hsub _),
    stays.root, fun root h => (stays.graph root h).mono (hsub _),
    fun root h => (stays.build root h).mono (hsub _)⟩

theorem Rehearsal.ScriptedDigester.writesOutput (d : ScriptedDigester) : d.digester.WritesOutput := by
  intro directory m plan h
  rcases d.host_dump m plan (m.digestPath directory) h with hsame | hw
  · rw [hsame]
    exact ⟨rfl, fun _ => rfl, fun _ _ => rfl⟩
  · exact Host.writes_write hw

theorem Rehearsal.staysIn_collaborators (d : ScriptedDigester) (current baseline : List String)
    (trees : List Place) : (collaborators d current baseline).StaysIn trees where
  checkOut revision destination h := by
    have hmade := Host.Confines.makeDirectories (FileTree.aim h.workingDirectory destination :: trees)
      h destination
    simp only [collaborators, Revisions.versionControl]
    split <;> (rename_i heq; rwa [heq] at hmade)
  root revision destination h root hroot := by
    simp only [collaborators, Revisions.versionControl] at hroot
    split at hroot <;> cases hroot
    rfl
  graph root h := .refl _ h
  build root h := .refl _ h

namespace Baseline

theorem openCheckout_eq_error {s t : Session} {e : Halt} (h : openCheckout s = (.error e, t)) :
    t = s := by
  unfold openCheckout ExceptT.mk at h
  dsimp only at h
  split at h
  · cases h
  · cases h
    rfl

variable {c : Collaborators} {trees fresh : List Place} {h : Host} {s : Session}
  (connected : h.files.IsConnected) (stays : c.StaysIn trees) (writes : c.digester.WritesOutput)
  {directory : Path} {missing : ModuleSet} (digests : ∀ m ∈ missing,
    FileTree.aim h.workingDirectory (ModuleName.digestPath m directory) ∈ trees)

include writes digests in
theorem keeps_dumpAll_confined (plan : BuildPlan) (defined : ModuleSet) (width : Nat)
    (schedule : Pool.Schedule) :
    (dumpAll c.digester plan directory defined missing width schedule).Keeps
      (h.Confines fresh trees) fun _ => True := by
  have hwrites : ∀ m ∈ missing, ∀ h' h'', h.Confines fresh trees h' →
      h'.Writes (ModuleName.digestPath m directory) h'' → h.Confines fresh trees h'' := by
    intro m hm h' h'' confined w
    refine confined.trans (fun r hr => ?_) (.ofWrites w rfl)
    rw [List.mem_singleton.1 hr, confined.workingDirectory]
    exact ⟨_, List.mem_append_right _ (digests m hm), List.prefix_rfl⟩
  exact keeps_dumpAll (fun m hm h' hh' => hwrites m hm h' _ hh' (h'.writes_removeFile _))
    fun m hm h' hh' => hwrites m hm h' _ hh' (writes directory m plan h')

include stays writes digests in
theorem keeps_inCheckout_confined {checkout : Path}
    (hfresh : FileTree.aim h.workingDirectory checkout ∈ fresh) (revision : Revision)
    (schedule : Pool.Schedule) :
    let destination := checkout.join "baseline"
    Run.Keeps (h.Confines fresh trees) (do
      let root ← Run.ask (.checkOut revision destination) (c.versionControl.checkOut revision destination)
      let plan ← Run.ask (.build root) (c.buildSystem.build root)
      let graph ← Run.ask (.graph root) (c.buildSystem.graph root)
      dumpAll c.digester plan directory (graph.diffableModules c.digester.language) missing
        c.buildSystem.workers schedule) fun _ => True := by
  intro destination
  have hdestination : FileTree.aim h.workingDirectory checkout <+:
      FileTree.aim h.workingDirectory destination := by
    rw [FileTree.aim_join _ _ (by decide), FileTree.move_of_ordinary (by decide)]
    exact List.prefix_append _ _
  have hthere : ∀ (h' : Host) (path : Path), h.Confines fresh trees h' →
      FileTree.aim h.workingDirectory path = FileTree.aim h.workingDirectory destination →
        ∀ r ∈ FileTree.aim h'.workingDirectory path :: trees, ∃ q ∈ fresh ++ trees, q <+: r := by
    intro h' path confined hpath r hr
    rcases List.mem_cons.1 hr with rfl | hr
    · refine ⟨_, List.mem_append_left _ hfresh, ?_⟩
      rwa [confined.workingDirectory, hpath]
    · exact ⟨r, List.mem_append_right _ hr, List.prefix_rfl⟩
  refine .bind (Q := fun root => FileTree.aim h.workingDirectory root =
    FileTree.aim h.workingDirectory destination) (.ask fun h' hh' => ⟨?_, fun root hroot => ?_⟩)
      fun root hroot => ?_
  · exact hh'.trans (hthere h' _ hh' rfl) (stays.checkOut revision destination h')
  · have haim := stays.root revision destination h' root hroot
    rwa [hh'.workingDirectory] at haim
  refine .bind (.ask fun h' hh' => ⟨?_, fun _ _ => trivial⟩) fun plan _ => ?_
  · exact hh'.trans (hthere h' _ hh' hroot) (stays.build root h')
  refine .bind (.ask fun h' hh' => ⟨?_, fun _ _ => trivial⟩) fun graph _ => ?_
  · exact hh'.trans (hthere h' _ hh' hroot) (stays.graph root h')
  exact keeps_dumpAll_confined writes digests plan _ _ schedule

include connected stays writes digests in
theorem confines_generate (confined : h.Confines fresh trees s.host) (revision : Revision)
    (schedule : Pool.Schedule) :
    ∃ fresh', h.Confines (fresh' ++ fresh) trees
        (generate c revision directory missing schedule s).2.host ∧
      ∀ q ∈ fresh', s.host.IsTemporary "apidiff-checkout-" q := by
  rw [generate, inCheckout]
  rcases hopen : openCheckout s with ⟨e | checkout, u⟩
  · rw [Run.bind_of_error hopen, openCheckout_eq_error hopen]
    exact ⟨[], confined, fun _ hq => absurd hq List.not_mem_nil⟩
  · have hmade := openCheckout_eq_ok hopen
    rw [Run.bind_of_ok hopen]
    refine ⟨[FileTree.aim h.workingDirectory checkout], (Run.Keeps.finallyDo
      (keeps_inCheckout_confined stays writes digests List.mem_cons_self revision schedule)
      (fun s hs => hs.removeTree List.mem_cons_self) u ?_).1, fun q hq => ?_⟩
    · exact confined.makeTemporary hmade connected
    · rw [List.mem_singleton.1 hq, ← confined.workingDirectory]
      exact Host.isTemporary_of_makeTemporary hmade

theorem confines_opened {named : Option Path} {revision : Revision} {s u : Session}
    {r : Except Halt BaselineDirectory} (connected : s.host.files.IsConnected)
    (hopen : BaselineDirectory.opened named revision s = (r, u)) :
    ∃ fresh, (∀ trees, s.host.Confines fresh trees u.host) ∧
      (∀ q ∈ fresh, s.host.IsTemporary (BaselineDirectory.stem revision) q) ∧ ∀ d, r = .ok d →
        (∀ path, named = some path → d = .kept path) ∧
          ∀ q, d = .temporary q → FileTree.aim s.host.workingDirectory q ∈ fresh := by
  have hrefl := fun trees => Host.Confines.refl trees s.host
  unfold BaselineDirectory.opened ExceptT.mk at hopen
  cases named with
  | some path =>
    have hmade := fun trees => Host.Confines.makeDirectories trees s.host path
    dsimp only at hopen
    split at hopen
    · rename_i host heq
      cases hopen
      rw [heq] at hmade
      refine ⟨[], hmade, nofun, fun d hd => ?_⟩
      cases hd
      exact ⟨fun _ h => congrArg _ (Option.some.inj h), nofun⟩
    · rename_i e host heq
      cases hopen
      rw [heq] at hmade
      exact ⟨[], hmade, nofun, nofun⟩
  | none =>
    dsimp only at hopen
    split at hopen
    · rename_i path host heq
      cases hopen
      refine ⟨[FileTree.aim s.host.workingDirectory path],
        fun trees => (hrefl trees).makeTemporary heq connected, fun q hq => ?_, fun d hd => ?_⟩
      · rw [List.mem_singleton.1 hq]
        exact Host.isTemporary_of_makeTemporary heq
      · cases hd
        refine ⟨nofun, fun q hq => ?_⟩
        cases hq
        exact List.mem_cons_self
    · cases hopen
      exact ⟨[], hrefl, nofun, nofun⟩

theorem host_of_opened {named : Option Path} {revision : Revision} {s u : Session}
    {r : Except Halt BaselineDirectory} (hopen : BaselineDirectory.opened named revision s = (r, u)) :
    u.host = { s.host with files := u.host.files } := by
  unfold BaselineDirectory.opened ExceptT.mk at hopen
  cases named with
  | some path =>
    have hmade : (s.host.makeDirectories path).2 =
      { s.host with files := (s.host.makeDirectories path).2.files } := rfl
    dsimp only at hopen
    split at hopen
    all_goals
      rename_i heq
      cases hopen
      rw [heq] at hmade
      exact hmade
  | none =>
    dsimp only at hopen
    split at hopen
    · rename_i path host heq
      cases hopen
      obtain ⟨-, -, -, files, -, rfl⟩ := Host.makeFresh_eq_ok heq
      rfl
    · cases hopen
      rfl

def digestPlaces (here : Place) (directory : Path) (modules : ModuleSet) : List Place :=
  modules.toList.map fun m => FileTree.aim here (m.digestPath directory)

def IsDigestCall (directory : Path) (modules : ModuleSet) (call : Call) : Prop :=
  ∀ m output, call = .dump m output → m ∈ modules ∧ output = m.digestPath directory

theorem calls_dumpAll {digester : Digester} {plan : BuildPlan} {directory : Path}
    {defined needed modules : ModuleSet} {width : Nat} {schedule : Pool.Schedule}
    (sub : ∀ m ∈ needed, m ∈ modules) :
    (dumpAll digester plan directory defined needed width schedule).Calls
      (IsDigestCall directory modules) := by
  refine .pooled fun s => ?_
  let d := duty digester plan directory defined
  let start : Pool Dumping ModuleName Dumped := Pool.init ⟨s, .none⟩ width needed.toList
  have kept := Dumping.kept_of_leads digester plan defined (Pool.leads_run d schedule start)
  have covers := Pool.covers_history d schedule ⟨s, .none⟩ width needed.toList
  refine ⟨_, (calls_afterTasks directory _).trans kept.calls, fun call hcall m output h => ?_⟩
  obtain ⟨r, hr, rfl⟩ := List.mem_map.1 hcall
  cases h
  exact ⟨sub _ (covers.mem_jobs_iff.2 (.inr ⟨r, hr, rfl⟩)), rfl⟩

theorem calls_generate (c : Collaborators) (revision : Revision) (directory : Path)
    {missing modules : ModuleSet} (sub : ∀ m ∈ missing, m ∈ modules) (schedule : Pool.Schedule) :
    (generate c revision directory missing schedule).Calls (IsDigestCall directory modules) := by
  refine .bind (.quiet fun s => ?_) fun checkout => .finallyDo ?_ fun _ => rfl
  · rw [openCheckout_eq (Prod.eta _).symm]
  · refine .bind (.ask nofun) fun root => .bind (.ask nofun) fun plan => .bind (.ask nofun) fun graph => ?_
    exact calls_dumpAll sub

/-- What is done when a baseline is made ready: the digest of a module is dumped into its place, and
the files that come and go are in these places and in temporary directories. -/
structure Confined (modules : ModuleSet) (revision : Revision) (trees : List Place) (directory : Path)
    (fresh : List Place) (s t : Session) : Prop where
  host : s.host.Confines fresh
    (digestPlaces s.host.workingDirectory directory modules ++ trees) t.host
  temporary : ∀ q ∈ fresh, s.host.IsTemporary (BaselineDirectory.stem revision) q ∨
    s.host.IsTemporary "apidiff-checkout-" q
  calls : Run.AddsCalls (IsDigestCall directory modules) s t

namespace Confined

variable {modules : ModuleSet} {revision : Revision} {trees fresh : List Place} {directory : Path}
  {s u : Session}

theorem generate (confined : Confined modules revision trees directory fresh s u)
    (same : u.host = { s.host with files := u.host.files }) {c : Collaborators}
    (connected : s.host.files.IsConnected) (stays : c.StaysIn trees)
    (writes : c.digester.WritesOutput) {missing : ModuleSet} (sub : ∀ m ∈ missing, m ∈ modules)
    (schedule : Pool.Schedule) :
    ∃ fresh', (∀ q ∈ fresh, q ∈ fresh') ∧ Confined modules revision trees directory fresh' s
      (Baseline.generate c revision directory missing schedule u).2 := by
  have digests : ∀ m ∈ missing, FileTree.aim s.host.workingDirectory (ModuleName.digestPath m directory) ∈
      digestPlaces s.host.workingDirectory directory modules ++ trees :=
    fun m hm => List.mem_append_left _ (List.mem_map.2 ⟨m, sub m hm, rfl⟩)
  obtain ⟨checkouts, host, hcheckouts⟩ := confines_generate connected
    (stays.mono fun r hr => List.mem_append_right _ hr) writes digests confined.host revision schedule
  refine ⟨checkouts ++ fresh, fun q hq => List.mem_append_right _ hq, host, fun q hq => ?_,
    confined.calls.trans (calls_generate c revision directory sub schedule u)⟩
  rcases List.mem_append.1 hq with hq | hq
  · have hq := hcheckouts q hq
    rw [same] at hq
    exact .inr hq
  · exact confined.temporary q hq

theorem close (confined : Confined modules revision trees directory fresh s u)
    {d : BaselineDirectory}
    (made : ∀ q, d = .temporary q → FileTree.aim s.host.workingDirectory q ∈ fresh) :
    Confined modules revision trees directory fresh s (d.close u) := by
  cases d with
  | kept path => exact confined
  | temporary q => exact ⟨confined.host.removeTree (made q rfl), confined.temporary, confined.calls⟩

end Confined

theorem confined_prepare {c : Collaborators} {trees : List Place} {s t : Session}
    (connected : s.host.files.IsConnected) (stays : c.StaysIn trees)
    (writes : c.digester.WritesOutput) {modules : ModuleSet} {revision : Revision}
    {named : Option Path} {regenerate : Bool} {schedule : Pool.Schedule} {r : Except Halt Baseline}
    (run : prepare c modules revision named regenerate schedule s = (r, t)) :
    ∃ directory fresh, (∀ path, named = some path → directory = path) ∧
      (∀ b, r = .ok b → b.directory.path = directory) ∧
      Confined modules revision trees directory fresh s t := by
  rw [prepare] at run
  rcases hopen : BaselineDirectory.opened named revision s with ⟨opened, u⟩
  obtain ⟨fresh, host, htemporary, hopened⟩ := confines_opened connected hopen
  have confined (directory : Path) : Confined modules revision trees directory fresh s u :=
    ⟨host _, fun q hq => .inl (htemporary q hq), .none (by rw [opened_eq hopen])⟩
  cases opened with
  | error e =>
    rw [Run.bind_of_error hopen] at run
    cases run
    exact ⟨named.getD ⟨""⟩, fresh, fun path hpath => by rw [hpath]; rfl,
      (fun _ hb => by cases hb), confined _⟩
  | ok d =>
    have hget : (get : Run Session) u = (.ok u, u) := rfl
    rw [Run.bind_of_ok hopen, Run.bind_of_ok hget] at run
    obtain ⟨hnamed, made⟩ := hopened d rfl
    have hpath : ∀ path, named = some path → d.path = path := fun path h => by rw [hnamed path h]; rfl
    split at run
    · cases run
      exact ⟨d.path, fresh, hpath, fun b hb => by cases hb; rfl, confined _⟩
    · let missing := needed u.host d.path modules regenerate
      have sub : ∀ m ∈ missing, m ∈ modules := fun m hm => (mem_needed.1 hm).1
      obtain ⟨fresh', hsub, confined'⟩ :=
        (confined d.path).generate (host_of_opened hopen) connected stays writes sub schedule
      rcases hgenerate : generate c revision d.path missing schedule u with ⟨e | dumps, v⟩
      · rw [Run.bind_of_error (Run.onHalt_of_error hgenerate)] at run
        cases run
        rw [hgenerate] at confined'
        exact ⟨d.path, fresh', hpath, (fun _ hb => by cases hb),
          confined'.close fun q hq => hsub _ (made q hq)⟩
      · rw [Run.bind_of_ok (Run.onHalt_of_ok hgenerate)] at run
        cases run
        rw [hgenerate] at confined'
        exact ⟨d.path, fresh', hpath, fun b hb => by cases hb; rfl, confined'⟩

/-- The digests of the modules that are selected from a described package. Each of them is dumped
into its place; this is in the directory under the name of the module unless there is a slash in the
name, which is so only if the description gives it so. Where no name is given with a slash, the
directory and the temporary directories are the only trees in which files come and go. -/
theorem digests_confined {c : Collaborators} {trees : List Place} {s t : Session}
    {description : Description} {package : Package} {language : Language}
    {products targets : List String} {modules : ModuleSet} {events : List Event}
    (described : description.toPackage = .ok package)
    (selected : PackageGraph.select ⟨[package]⟩ language products targets = (.ok modules, events))
    (connected : s.host.files.IsConnected) (stays : c.StaysIn trees)
    (writes : c.digester.WritesOutput) {revision : Revision} {named : Option Path}
    {regenerate : Bool} {schedule : Pool.Schedule} {r : Except Halt Baseline}
    (run : prepare c modules revision named regenerate schedule s = (r, t)) :
    ∃ directory fresh, (∀ path, named = some path → directory = path) ∧
      (∀ b, r = .ok b → b.directory.path = directory) ∧
      Confined modules revision trees directory fresh s t ∧
      (∀ m ∈ modules, (FileTree.aim s.host.workingDirectory (m.digestPath directory) =
          FileTree.aim s.host.workingDirectory directory ++ [m.text ++ ".json"] ↔
            '/' ∉ m.text.toList) ∧
        ('/' ∈ m.text.toList → ∃ d ∈ description.targets, d.identifier = some m.text)) ∧
      (∀ m ∈ modules, ∀ k ∈ modules, '/' ∉ m.text.toList → '/' ∉ k.text.toList →
        FileTree.aim s.host.workingDirectory (m.digestPath directory) =
          FileTree.aim s.host.workingDirectory (k.digestPath directory) → m = k) ∧
      ((∀ d ∈ description.targets, ∀ identifier, d.identifier = some identifier →
          '/' ∉ identifier.toList) →
        s.host.Confines fresh (FileTree.aim s.host.workingDirectory directory :: trees) t.host) := by
  obtain ⟨directory, fresh, hnamed, hresult, confined⟩ := confined_prepare connected stays writes run
  have haim := FileTree.aim_digestPath_iff s.host.workingDirectory directory
  refine ⟨directory, fresh, hnamed, hresult, confined, fun m hm => ⟨haim m, fun slash =>
    Description.identifier_of_select described selected hm slash⟩, ?_, fun plain => ?_⟩
  · intro m _ k _ hm hk hsame
    rw [(haim m).2 hm, (haim k).2 hk] at hsame
    have hname := List.singleton_inj.1 (List.append_cancel_left hsame)
    cases m
    cases k
    exact congrArg ModuleName.mk ((String.append_left_inj ".json").1 hname)
  · refine confined.host.mono fun q hq => ?_
    rcases List.mem_append.1 hq with hq | hq
    · obtain ⟨m, hm, rfl⟩ := List.mem_map.1 hq
      have hslash : '/' ∉ m.text.toList := by
        intro slash
        obtain ⟨d, hd, hidentifier⟩ := Description.identifier_of_select described selected hm slash
        exact plain d hd _ hidentifier slash
      refine ⟨_, List.mem_cons_self, ?_⟩
      rw [(haim m).2 hslash]
      exact List.prefix_append _ _
    · exact ⟨q, List.mem_cons_of_mem _ hq, List.prefix_rfl⟩

/-- A library with a plain name. -/
theorem digests_confined_plain :
    let description : Description := ⟨"demo", [⟨"Foo", ["Foo"], [("library", .array [])]⟩],
      [⟨"Foo", none, "library", some "SwiftTarget"⟩]⟩
    let c := Rehearsal.collaborators .plain ["Foo"] ["Foo"]
    let s : Session := .ofHost (Rehearsal.machine [(["tmp"], .directory)])
    ∃ package modules b t, description.toPackage = .ok package ∧
      PackageGraph.select ⟨[package]⟩ .swift [] ["Foo"] = (.ok modules, []) ∧
      prepare c modules ⟨"abc123"⟩ (some ⟨"/b"⟩) true (fun _ => 1) s = (.ok b, t) ∧
      b.dumps.dumped.toList = [⟨"Foo"⟩] ∧ ∃ fresh, s.host.Confines fresh [["b"]] t.host := by
  intro description c s
  let package : Package :=
    ⟨"demo", [⟨"Foo", .library .automatic, ["Foo"]⟩], [⟨"Foo", ⟨"Foo"⟩, .library, .swift⟩]⟩
  have described : description.toPackage = .ok package := rfl
  have selected : PackageGraph.select ⟨[package]⟩ .swift [] ["Foo"] =
    (.ok (.ofList [⟨"Foo"⟩]), []) := by rfl
  obtain ⟨b, t, run, hdumped⟩ := Run.exists_of_check (s := s)
    (x := prepare c (.ofList [⟨"Foo"⟩]) ⟨"abc123"⟩ (some ⟨"/b"⟩) true fun _ => 1)
    (P := fun b _ => decide (b.dumps.dumped.toList = [⟨"Foo"⟩])) (by decide +kernel)
  obtain ⟨directory, fresh, hnamed, -, -, -, -, hplain⟩ := digests_confined described selected
    (FileTree.isConnected_of_shallow (by decide)) (Rehearsal.staysIn_collaborators _ _ _ [])
    (Rehearsal.ScriptedDigester.writesOutput _) run
  refine ⟨package, _, b, t, described, selected, run, of_decide_eq_true hdumped, fresh, ?_⟩
  rw [hnamed _ rfl] at hplain
  exact hplain (by decide)

/-- A name with a slash: as the baseline lacks the module, a file that was beside the directory is
taken away. With such names two modules can have one place. -/
theorem digests_confined_slash :
    let description : Description := ⟨"demo", [], [⟨"Foo", some "../Foo", "library", some "SwiftTarget"⟩]⟩
    let c := Rehearsal.collaborators .plain [] []
    let s : Session := .ofHost (Rehearsal.machine
      [(["Foo.json"], .file (.text "mine")), (["tmp"], .directory)])
    c.digester.WritesOutput ∧ c.StaysIn [] ∧
    (∃ package modules b t, description.toPackage = .ok package ∧
      PackageGraph.select ⟨[package]⟩ .swift [] ["Foo"] = (.ok modules, []) ∧
      prepare c modules ⟨"abc123"⟩ (some ⟨"/b"⟩) true (fun _ => 1) s = (.ok b, t) ∧
      t.host.files.lookup ["Foo.json"] = none) ∧
    FileTree.aim [] (ModuleName.digestPath ⟨"./Foo"⟩ ⟨"/b"⟩) =
      FileTree.aim [] (ModuleName.digestPath ⟨"Foo"⟩ ⟨"/b"⟩) := by
  intro description c s
  refine ⟨Rehearsal.ScriptedDigester.writesOutput _, Rehearsal.staysIn_collaborators _ _ _ [], ?_, rfl⟩
  obtain ⟨b, t, run, hgone⟩ := Run.exists_of_check (s := s)
    (x := prepare c (.ofList [⟨"../Foo"⟩]) ⟨"abc123"⟩ (some ⟨"/b"⟩) true fun _ => 1)
    (P := fun _ t => decide (t.host.files.lookup ["Foo.json"] = none)) (by decide +kernel)
  exact ⟨⟨"demo", [], [⟨"Foo", ⟨"../Foo"⟩, .library, .swift⟩]⟩, _, b, t, rfl, rfl, run,
    of_decide_eq_true hgone⟩

end Baseline

end Breakage
