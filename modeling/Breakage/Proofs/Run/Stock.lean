import Breakage.Proofs.Run.Likeness
import Breakage.Proofs.Run.Retention

/-!
The digests in a directory, while those a run works with do their work elsewhere. A directory that is
there stays there, and so do the digests in it when a checkout is made and taken away (`Host.Leaves`).
When a baseline is ready, a digest that was not to be made is as it was, one that was made is as its
dump has left it (`dumped_prepare`), and there is none where none could be made (`digest?_excluded`).
Main statement: `leaves_prepare`.
-/

namespace Breakage

namespace Host

structure Houses (directory : Path) (h : Host) : Prop where
  ordinary : h.IsOrdinary
  there : h.HasDirectory directory

structure SameShape (h h' : Host) : Prop where
  workingDirectory : h'.workingDirectory = h.workingDirectory
  endings : h'.endings = h.endings
  directories : FileTree.SameDirectories h.files h'.files

structure Leaves (directory : Path) (h h' : Host) : Prop where
  workingDirectory : h'.workingDirectory = h.workingDirectory
  houses : h'.Houses directory
  digests : ∀ m : ModuleName, m.isIdentifier = true →
    h'.digest? directory m = h.digest? directory m

variable {directory : Path} {h h' h'' : Host}

theorem SameShape.refl (h : Host) : h.SameShape h := ⟨rfl, rfl, fun _ => rfl⟩

theorem SameShape.trans (same : h.SameShape h') (next : h'.SameShape h'') : h.SameShape h'' :=
  ⟨next.workingDirectory.trans same.workingDirectory, next.endings.trans same.endings,
    fun p => (next.directories p).trans (same.directories p)⟩

theorem TouchesOnly.sameShape {path : Path} (touches : h.TouchesOnly path h') : h.SameShape h' :=
  ⟨touches.machine.workingDirectory, touches.machine.endings, touches.writes.directories⟩

theorem sameShape_removeFile (h : Host) (path : Path) : h.SameShape (h.removeFile path) :=
  (h.touchesOnly_removeFile path).sameShape

theorem SameShape.houses (same : h.SameShape h') (houses : h.Houses directory) :
    h'.Houses directory := by
  have hkept : ∀ p, h.files.isDirectory p = true → h'.files.isDirectory p = true :=
    fun p hp => (same.directories p).trans hp
  obtain ⟨⟨grounded, endings⟩, d, hwalk, hd⟩ := houses
  refine ⟨⟨?_, ?_⟩, d, ?_, hkept d hd⟩
  · rw [same.workingDirectory]
    exact grounded.mono hkept
  · rwa [same.endings]
  · rw [same.workingDirectory]
    exact FileTree.walk_mono hkept hwalk

theorem SameShape.digest?_eq_directory_iff (same : h.SameShape h') (m : ModuleName) :
    h'.digest? directory m = some .directory ↔ h.digest? directory m = some .directory := by
  have hplace : h'.place? (m.digestPath directory) = h.place? (m.digestPath directory) := by
    rw [place?, same.workingDirectory]
    exact FileTree.place?_congr same.directories _ _
  rw [digest?, digest?, item?, item?, hplace]
  cases h.place? (m.digestPath directory) with
  | none => rfl
  | some p =>
    change h'.files.lookup p = some .directory ↔ h.files.lookup p = some .directory
    rw [← FileTree.isDirectory_iff, ← FileTree.isDirectory_iff, same.directories]

theorem Leaves.refl (houses : h.Houses directory) : h.Leaves directory h :=
  ⟨rfl, houses, fun _ _ => rfl⟩

theorem Leaves.trans (leaves : h.Leaves directory h') (next : h'.Leaves directory h'') :
    h.Leaves directory h'' :=
  ⟨next.workingDirectory.trans leaves.workingDirectory, next.houses,
    fun m hm => (next.digests m hm).trans (leaves.digests m hm)⟩

theorem digest?_congr (same : h'.workingDirectory = h.workingDirectory)
    (there : h.HasDirectory directory) (there' : h'.HasDirectory directory) {m : ModuleName}
    (hm : m.isIdentifier = true)
    (entry : ∀ d, h'.files.lookup (d ++ [m.text ++ ".json"]) =
      h.files.lookup (d ++ [m.text ++ ".json"])) :
    h'.digest? directory m = h.digest? directory m := by
  obtain ⟨d, hwalk, hd⟩ := there
  obtain ⟨d', hwalk', hd'⟩ := there'
  rw [same] at hwalk'
  obtain rfl := FileTree.walk_unique hwalk hwalk'
  have plain := FileTree.plain_digest (ModuleName.plain_of_isIdentifier hm)
  have hplace : h'.place? (m.digestPath directory) = h.place? (m.digestPath directory) := by
    ext p
    rw [place?, place?, same, FileTree.place?_eq_some_iff, FileTree.place?_eq_some_iff,
      ModuleName.digestPath, FileTree.walk_join _ _ directory plain,
      FileTree.walk_join _ _ directory plain, hwalk, hwalk']
    exact and_congr_right fun _ => iff_of_eq (congrArg (· = _) (FileTree.step_congr hd hd' _))
  rw [digest?, digest?, item?, item?, hplace]
  cases hp : h.place? (m.digestPath directory) with
  | none => rfl
  | some p =>
    obtain ⟨c, -, rfl⟩ := FileTree.place?_join plain (FileTree.ordinary_digest m) hp
    exact entry c

theorem digest_ne_temporary {m : ModuleName} (hm : m.isIdentifier = true) {stem : String}
    (hyphen : '-' ∈ stem.toList) (ending : String) : m.text ++ ".json" ≠ stem ++ ending := by
  have hnot : '-' ∉ (m.text ++ ".json").toList := by
    simp [ModuleName.not_mem_of_isIdentifier hm (show ModuleName.isWordChar '-' = false by decide)]
  intro hname
  rw [hname] at hnot
  simp [hyphen] at hnot

theorem leaves_makeDirectory (houses : h.Houses directory) {base : Path} {name : String}
    {files : FileTree}
    (hmade : h.files.makeDirectory h.workingDirectory (base.join name) = .ok files)
    (plain : '/' ∉ name.toList) (long : 2 < name.length)
    (other : ∀ m : ModuleName, m.isIdentifier = true → m.text ++ ".json" ≠ name) :
    h.Leaves directory { h with files := files } := by
  have hkept := fun p => FileTree.isDirectory_makeDirectory hmade (q := p)
  have hsame : Host.workingDirectory { h with files := files } = h.workingDirectory := rfl
  have hthere : Host.HasDirectory { h with files := files } directory := by
    obtain ⟨d, hwalk, hd⟩ := houses.there
    exact ⟨d, FileTree.walk_mono hkept hwalk, hkept d hd⟩
  refine ⟨hsame, ⟨⟨houses.ordinary.grounded.mono hkept, houses.ordinary.endings⟩, hthere⟩,
    fun m hid => digest?_congr hsame houses.there hthere hid fun d => ?_⟩
  -- what is new has a name that no digest has
  obtain ⟨p, hlocate, -, rfl⟩ := FileTree.makeDirectory_eq_ok.1 hmade
  have hp := FileTree.aim_of_locateNew hlocate
  rw [FileTree.aim_join _ _ plain, FileTree.move_of_ordinary long] at hp
  rw [FileTree.lookup_put _ _ _ _ (by simp), if_neg]
  intro heq
  rw [← hp] at heq
  exact other m hid (List.singleton_inj.1 (List.append_inj' heq rfl).2)

theorem leaves_makeDirectories (houses : h.Houses directory) {base : Path} {name : String}
    (there : h.HasDirectory base) (plain : '/' ∉ name.toList) (long : 2 < name.length)
    (other : ∀ m : ModuleName, m.isIdentifier = true → m.text ++ ".json" ≠ name) :
    h.Leaves directory (h.makeDirectories (base.join name)).2 := by
  obtain ⟨d, hwalk, hd⟩ := there
  have hne : name ≠ "" := by
    rintro rfl
    exact absurd long (by decide)
  have hhost : (h.makeDirectories (base.join name)).2 =
      { h with files := (h.files.makeDirectories h.workingDirectory (base.join name)).2 } := rfl
  rw [hhost]
  rcases FileTree.makeDirectories_eq (FileTree.makeDirectory_join plain hne hwalk hd) with
    hsame | hmade
  · rw [hsame]
    exact .refl houses
  · exact leaves_makeDirectory houses hmade plain long other

section Temporary

variable {stem : String} {path : Path} (houses : h.Houses directory)
  (hm : h.makeTemporary stem = .ok (path, h')) (plain : '/' ∉ stem.toList) (long : 2 < stem.length)
  (hyphen : '-' ∈ stem.toList)
include houses hm plain long hyphen

theorem leaves_makeTemporary : h.Leaves directory h' := by
  obtain ⟨ending, hending, rfl, files, hmade, rfl⟩ := makeFresh_eq_ok hm
  have hplain : '/' ∉ (stem ++ ending).toList := by
    simp [plain, houses.ordinary.endings ending hending]
  have hlong : 2 < (stem ++ ending).length := by
    rw [String.length_append]
    omega
  exact leaves_makeDirectory houses hmade hplain hlong fun m hid =>
    digest_ne_temporary hid hyphen ending

theorem leaves_removeTree {v : Host} (same : v.workingDirectory = h.workingDirectory)
    (there : v.Houses directory) : v.Leaves directory (v.removeTree path) := by
  refine ⟨rfl, ?_, fun m hid => item?_removeTree_makeTemporary houses.ordinary hm plain long same
    houses.there (FileTree.plain_digest (ModuleName.plain_of_isIdentifier hid))
    (FileTree.ordinary_digest m) fun ending => digest_ne_temporary hid hyphen ending⟩
  obtain ⟨d, hwalk, hd⟩ := houses.there
  obtain ⟨⟨grounded, endings⟩, d', hwalk', hd'⟩ := there
  rw [← same] at hwalk
  obtain rfl := FileTree.walk_unique hwalk hwalk'
  have hground : h.files.Grounded v.workingDirectory := same ▸ houses.ordinary.grounded
  have hfiles := v.files_removeTree path
  cases hq : v.place? path with
  | none =>
    rw [hq] at hfiles
    refine ⟨⟨?_, endings⟩, d', ?_, ?_⟩
    · rwa [hfiles]
    · rwa [hfiles]
    · rwa [hfiles]
  | some q =>
    obtain ⟨free, -⟩ := place?_makeTemporary houses.ordinary hm plain long same hq
    rw [hq] at hfiles
    have hkept : ∀ p, h.files.Grounded p → v.files.isDirectory p = true →
        (v.removeTree path).files.isDirectory p = true := by
      intro p ground hp
      rw [hfiles, FileTree.isDirectory, FileTree.lookup_prune_of_not_below (ground.not_below free)]
      exact hp
    refine ⟨⟨fun r hr => hkept r (fun q hq => hground q (hq.trans hr)) (grounded r hr), endings⟩,
      d', ?_, hkept d' ((hground.start directory).walk hwalk hd) hd'⟩
    rw [hfiles]
    exact FileTree.walk_prune free (hground.start directory) hwalk hd hwalk'

end Temporary

end Host

/-- At this revision, those a run works with leave the digests in the directory alone, but that a dump
writes its own and nothing else. -/
structure Collaborators.Respect (c : Collaborators) (revision : Revision) (directory : Path) : Prop where
  checkOut : ∀ (h h' : Host) (checkout : Path), h.Houses directory →
    h.makeTemporary "apidiff-checkout-" = .ok (checkout, h') →
      h'.Leaves directory (c.versionControl.checkOut revision (checkout.join "baseline") h').2
  build : ∀ (root : Path) (h : Host), h.Houses directory →
    h.Leaves directory (c.buildSystem.build root h).2
  graph : ∀ (root : Path) (h : Host), h.Houses directory →
    h.Leaves directory (c.buildSystem.graph root h).2
  dump : ∀ (m : ModuleName) (plan : BuildPlan) (h : Host), m.isIdentifier = true →
    h.TouchesOnly (m.digestPath directory) (c.digester.dump m plan (m.digestPath directory) h).2

theorem Rehearsal.respect_collaborators (d : ScriptedDigester) (current baseline : List String)
    (revision : Revision) (directory : Path) :
    (collaborators d current baseline).Respect revision directory where
  checkOut h h' checkout houses hm := by
    have hout : ((collaborators d current baseline).versionControl.checkOut revision
        (checkout.join "baseline") h').2 = (h'.makeDirectories (checkout.join "baseline")).2 := by
      simp only [collaborators, Revisions.versionControl]
      split
      · rename_i hmade
        rw [hmade]
      · rename_i hmade
        rw [hmade]
    have leaves := Host.leaves_makeTemporary houses hm (by decide) (by decide) (by decide)
    rw [hout]
    refine Host.leaves_makeDirectories leaves.houses (Host.hasDirectory_makeTemporary hm) (by decide)
      (by decide) fun m _ hname => ?_
    have hdot : '.' ∈ (m.text ++ ".json").toList := by simp
    rw [hname] at hdot
    exact absurd hdot (by decide)
  build _ _ houses := .refl houses
  graph _ _ houses := .refl houses
  dump m plan h hm := d.writesOwn.dump directory m plan h hm

namespace Baseline

section

variable {c : Collaborators} {revision : Revision} {directory : Path}
  (respect : c.Respect revision directory)
include respect

theorem inPlace_of_respect : c.digester.DumpsInPlace directory :=
  fun m plan h hm => (respect.dump m plan h hm).writes.digest

theorem leaves_arrive {s t : Session} {arrival : Arrival} (houses : s.host.Houses directory)
    (harrive : arrive c revision s = (.ok arrival, t)) : s.host.Leaves directory t.host := by
  simp only [arrive, Run.bind_eq_ok, Run.pure_eq_ok] at harrive
  obtain ⟨checkout, s₁, hopen, root, s₂, hroot, plan, s₃, hplan, graph, s₄, hgraph, -, rfl⟩ := harrive
  have hmade := openCheckout_eq_ok hopen
  have hfirst := Host.leaves_makeTemporary houses hmade (by decide) (by decide) (by decide)
  have hcheckOut := respect.checkOut s.host s₁.host checkout houses hmade
  rw [Run.action_of_ask hroot] at hcheckOut
  have hbuild := respect.build root s₂.host hcheckOut.houses
  rw [Run.action_of_ask hplan] at hbuild
  have hdescribe := respect.graph root s₃.host hbuild.houses
  rw [Run.action_of_ask hgraph] at hdescribe
  exact ((hfirst.trans hcheckOut).trans hbuild).trans hdescribe

omit respect in
theorem leaves_checkout {s t : Session} {arrival : Arrival} {h : Host}
    (houses : s.host.Houses directory) (harrive : arrive c revision s = (.ok arrival, t))
    (same : h.workingDirectory = s.host.workingDirectory) (there : h.Houses directory) :
    h.Leaves directory (h.removeTree arrival.checkout) := by
  simp only [arrive, Run.bind_eq_ok, Run.pure_eq_ok] at harrive
  obtain ⟨checkout, s₁, hopen, root, s₂, -, plan, s₃, -, graph, s₄, -, rfl, -⟩ := harrive
  exact Host.leaves_removeTree houses (openCheckout_eq_ok hopen) (by decide) (by decide) (by decide)
    same there

theorem leaves_departed {s t : Session} {arrival : Arrival} (houses : s.host.Houses directory)
    (harrive : arrive c revision s = (.ok arrival, t)) :
    s.host.Leaves directory (t.host.removeTree arrival.checkout) := by
  have harrived := leaves_arrive respect houses harrive
  exact harrived.trans
    (leaves_checkout houses harrive harrived.workingDirectory harrived.houses)

variable {plan : BuildPlan} {defined : ModuleSet}

theorem sameShape_effect {w : Dumping} {deed : Pool.Deed ModuleName Dumped}
    (identifier : ∀ m, Dumping.touched? deed = some m → m.isIdentifier = true) :
    w.session.host.SameShape
      ((duty c.digester plan directory defined).effect w deed).session.host := by
  cases deed with
  | refused m => exact Host.sameShape_removeFile _ _
  | answered task a => exact (respect.dump task.job plan _ (identifier _ rfl)).sameShape
  | reported task a =>
    rcases a with (e | ⟨⟨⟩⟩) | words
    · exact Host.sameShape_removeFile _ _
    · exact .refl _
    · exact .refl _
  | joined task a => rcases a with (e | ⟨⟨⟩⟩) | words <;> exact .refl _
  | admitted m | granted m | started task => exact .refl _

theorem sameShape_of_leads {needed : ModuleSet} (identifiers : ∀ m ∈ needed, m.isIdentifier = true)
    {s : Session} {width : Nat} {ds : Dumping.History} {p : Pool Dumping ModuleName Dumped}
    (leads : Pool.Leads (duty c.digester plan directory defined)
      (Pool.init ⟨s, .none⟩ width needed.toList) ds p) :
    s.host.SameShape p.world.session.host := by
  refine leads.induct_orderly needed.nodup (fun _ w => s.host.SameShape w.session.host) (.refl _)
    fun es w deed _ orderly same _ => same.trans (sameShape_effect respect fun m hm => ?_)
  exact identifiers m (orderly.within m (Dumping.mem_touched orderly hm))

theorem sameShape_dumpAll {needed : ModuleSet} (identifiers : ∀ m ∈ needed, m.isIdentifier = true)
    {width : Nat} {schedule : Pool.Schedule} {s t : Session} {d : Dumps}
    (run : dumpAll c.digester plan directory defined needed width schedule s = (.ok d, t)) :
    s.host.SameShape t.host := by
  obtain ⟨ds, p, leads, -, -, hend⟩ := leads_dumpAll run
  have hswept : ∀ (ms : List ModuleName) (w : Dumping),
      w.session.host.SameShape (ms.foldl (sweep directory) w).session.host := by
    intro ms w
    induction ms generalizing w with
    | nil => exact .refl _
    | cons m rest ih => exact (Host.sameShape_removeFile _ _).trans (ih (sweep directory w m))
  have hafter : s.host.SameShape (afterTasks directory p).session.host :=
    (sameShape_of_leads respect identifiers leads).trans (hswept _ _)
  rwa [hend] at hafter

theorem dumped_dumpAll {needed : ModuleSet} (identifiers : ∀ m ∈ needed, m.isIdentifier = true)
    {width : Nat} {schedule : Pool.Schedule} {s t : Session} {d : Dumps}
    (run : dumpAll c.digester plan directory defined needed width schedule s = (.ok d, t))
    {m : ModuleName} (hneeded : m ∈ needed) (hdefined : m ∈ defined) :
    ∃ h, s.host.SameShape h ∧
      (m ∈ d.dumped ↔ (c.digester.dump m plan (m.digestPath directory) h).1 = .returned (.ok ())) ∧
      (m ∈ d.dumped → t.host.digest? directory m =
        (c.digester.dump m plan (m.digestPath directory) h).2.digest? directory m) := by
  have hmade := made_dumpAll (inPlace_of_respect respect) identifiers run
  obtain ⟨es, task, a, es', hsplit, rfl⟩ := hmade.split_of_mem hneeded hdefined
  obtain ⟨ha, hiff, hleft⟩ := hmade.dumped es task a es' hsplit
  obtain ⟨p, -, before, -⟩ := (Pool.leads_run (duty c.digester plan directory defined) schedule
    (Pool.init ⟨s, .none⟩ width needed.toList)).split hsplit
  have hshape := sameShape_of_leads respect identifiers before
  rw [before.world] at hshape
  refine ⟨_, hshape, hiff.trans ?_, hleft⟩
  rw [ha]
  rfl

end

theorem opened_there {path : Path} {revision : Revision} {s t : Session}
    {r : Except Halt BaselineDirectory} (houses : s.host.Houses path)
    (h : BaselineDirectory.opened (some path) revision s = (r, t)) : t = s := by
  obtain ⟨d, hwalk, hd⟩ := houses.there
  have hmade : (s.host.makeDirectories path).2 = s.host :=
    congrArg (fun files => { s.host with files := files })
      (FileTree.makeDirectories_of_walk hwalk hd)
  unfold BaselineDirectory.opened ExceptT.mk at h
  dsimp only at h
  split at h
  all_goals
    rename_i heq
    rw [heq] at hmade
    cases h
    obtain rfl := hmade
    rfl

theorem houses_opened {named : Option Path} {revision : Revision} {s t : Session}
    {d : BaselineDirectory} (ordinary : s.host.IsOrdinary)
    (opened : BaselineDirectory.opened named revision s = (.ok d, t)) : t.host.Houses d.path := by
  obtain ⟨hordinary, hdirectory, -⟩ := opened_ordinary opened ordinary
  exact ⟨hordinary, hdirectory⟩

section

variable {c : Collaborators} {modules : ModuleSet} {revision : Revision} {named : Option Path}
  {regenerate : Bool} {schedule : Pool.Schedule} {s s' t : Session} {b : Baseline}
  (respect : c.Respect revision b.directory.path) (houses : t.host.Houses b.directory.path)
  (identifiers : ∀ m ∈ modules, m.isIdentifier = true)
  (run : prepare c modules revision named regenerate schedule s = (.ok b, s'))
  (opened : BaselineDirectory.opened named revision s = (.ok b.directory, t))

include respect houses identifiers in
theorem leaves_closed {arrival : Arrival} {u v : Session} {d : Dumps}
    (harrive : arrive c revision t = (.ok arrival, u))
    (hdumps : dumpAll c.digester arrival.plan b.directory.path
      (arrival.graph.diffableModules c.digester.language)
      (needed t.host b.directory.path modules regenerate) c.buildSystem.workers schedule u =
        (.ok d, v)) :
    v.host.Leaves b.directory.path (v.host.removeTree arrival.checkout) := by
  have harrived := leaves_arrive respect houses harrive
  have hshape := sameShape_dumpAll respect (fun m hm => identifiers m (mem_needed.1 hm).1) hdumps
  exact leaves_checkout houses harrive
    (hshape.workingDirectory.trans harrived.workingDirectory) (hshape.houses harrived.houses)

include respect houses identifiers run opened

theorem leaves_prepare : s'.host.Houses b.directory.path ∧
    s'.host.workingDirectory = t.host.workingDirectory ∧
    (∀ m : ModuleName, m.isIdentifier = true →
      m ∉ needed t.host b.directory.path modules regenerate →
        s'.host.digest? b.directory.path m = t.host.digest? b.directory.path m) ∧
    ∀ m : ModuleName, m.isIdentifier = true →
      s'.host.digest? b.directory.path m = some .directory →
        t.host.digest? b.directory.path m = some .directory := by
  rcases prepare_cases run opened with ⟨-, -, rfl⟩ | ⟨arrival, u, v, harrive, hdumps, rfl⟩
  · exact ⟨houses, rfl, fun _ _ _ => rfl, fun _ _ h => h⟩
  · have hneeded : ∀ m ∈ needed t.host b.directory.path modules regenerate, m.isIdentifier = true :=
      fun m hm => identifiers m (mem_needed.1 hm).1
    have harrived := leaves_arrive respect houses harrive
    have hshape := sameShape_dumpAll respect hneeded hdumps
    have hclosed := leaves_closed respect houses identifiers harrive hdumps
    have hmade := made_dumpAll (inPlace_of_respect respect) hneeded hdumps
    refine ⟨hclosed.houses, ?_, fun m hm hnot => ?_, fun m hm hd => ?_⟩
    · exact (hclosed.workingDirectory.trans hshape.workingDirectory).trans harrived.workingDirectory
    · rw [← harrived.digests m hm, ← hmade.elsewhere.digest?_eq hm hneeded hnot]
      exact hclosed.digests m hm
    · rw [← harrived.digests m hm, ← hshape.digest?_eq_directory_iff, ← hclosed.digests m hm]
      exact hd

theorem digest?_excluded {m : ModuleName} (hm : m.isIdentifier = true)
    (hexcluded : m ∈ b.dumps.generationFailures ∨ m ∈ b.dumps.notInBaseline)
    (free : t.host.digest? b.directory.path m ≠ some .directory) :
    s'.host.digest? b.directory.path m = none := by
  have hlacks := lacksFile_prepare run (inPlace_of_respect respect) identifiers hexcluded
  obtain ⟨-, -, -, hdirectory⟩ := leaves_prepare respect houses identifiers run opened
  cases hd : s'.host.digest? b.directory.path m with
  | none => rfl
  | some e =>
    cases e with
    | directory => exact absurd (hdirectory m hm hd) free
    | file content => exact absurd hd (hlacks content)

theorem dumped_prepare {m : ModuleName}
    (hneeded : m ∈ needed t.host b.directory.path modules regenerate) {arrival : Arrival} {u : Session}
    (harrive : arrive c revision t = (.ok arrival, u))
    (hdefined : arrival.graph.Defines c.digester.language m) :
    ∃ h, h.Houses b.directory.path ∧
      (h.digest? b.directory.path m = some .directory →
        t.host.digest? b.directory.path m = some .directory) ∧
      let (answer, h') := c.digester.dump m arrival.plan (m.digestPath b.directory.path) h
      (m ∈ b.dumps.dumped ↔ answer = .returned (.ok ())) ∧
      (m ∈ b.dumps.dumped →
        s'.host.digest? b.directory.path m = h'.digest? b.directory.path m) := by
  have hm := identifiers m (mem_needed.1 hneeded).1
  obtain ⟨v, hdumps, rfl⟩ := dumpAll_of_arrive run opened harrive hneeded
  have harrived := leaves_arrive respect houses harrive
  have hclosed := leaves_closed respect houses identifiers harrive hdumps
  obtain ⟨h, hshape, hiff, hleft⟩ := dumped_dumpAll respect
    (fun k hk => identifiers k (mem_needed.1 hk).1) hdumps hneeded (mem_diffableModules.2 hdefined)
  refine ⟨h, hshape.houses harrived.houses, fun hd => ?_, hiff, fun hdumped => ?_⟩
  · rw [← harrived.digests m hm]
    exact (hshape.digest?_eq_directory_iff m).1 hd
  · exact (hclosed.digests m hm).trans (hleft hdumped)

end

end Baseline

end Breakage
