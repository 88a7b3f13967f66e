import Breakage.Proofs.Run.Renewal
import Breakage.Proofs.Run.Timings
import Breakage.Proofs.Sparing

/-!
A directory in which digests are kept. It is in order (`Host.Holds`) if each digest in it has the
content that a dump of its module makes; that a digest is wanting does no harm. A baseline that is made
ready leaves the directory in order, whatever dumps have failed (`holds_prepare`), with the digests that
would have been made anywhere else (`digest?_prepare_eq`). Main statement: `compareAll_stored`
(comparing in two directories comes to the same).
-/

namespace Breakage

namespace Host

/-- The directory is there, and each digest in it is a file with the content of its module. -/
structure Holds (content : ModuleName → Option FileTree.Content) (directory : Path) (h : Host) :
    Prop where
  houses : h.Houses directory
  digests : ∀ (m : ModuleName) (e : FileTree.Entry), m.isIdentifier = true →
    h.digest? directory m = some e → ∃ x, content m = some x ∧ e = .file x

variable {content : ModuleName → Option FileTree.Content} {directory : Path} {h h' : Host}

theorem Holds.leaves (holds : h.Holds content directory) (leaves : h.Leaves directory h') :
    h'.Holds content directory :=
  ⟨leaves.houses, fun m e hm he => holds.digests m e hm ((leaves.digests m hm).symm.trans he)⟩

theorem Holds.digest?_ne_directory (holds : h.Holds content directory) {m : ModuleName}
    (hm : m.isIdentifier = true) : h.digest? directory m ≠ some .directory := by
  intro hd
  obtain ⟨x, -, he⟩ := holds.digests m _ hm hd
  cases he

theorem lookup_of_digest? {m : ModuleName} {e : FileTree.Entry} (hm : m.isIdentifier = true)
    (he : h.digest? directory m = some e) :
    h.files.lookup (FileTree.aim h.workingDirectory directory ++ [m.text ++ ".json"]) = some e := by
  obtain ⟨p, hp, hlookup⟩ := Option.bind_eq_some_iff.1 he
  rwa [← aim_of_place? hp, FileTree.aim_digestPath _ directory hm] at hlookup

theorem digest?_makeTemporary {stem : String} {path : Path} (connected : h.files.IsConnected)
    (made : h.makeTemporary stem = .ok (path, h')) {m : ModuleName} (hm : m.isIdentifier = true) :
    h'.digest? path m = none := by
  obtain ⟨ending, -, -, files, hmade, rfl⟩ := makeFresh_eq_ok made
  obtain ⟨q, hlocate, free, rfl⟩ := FileTree.makeDirectory_eq_ok.1 hmade
  have hq : FileTree.aim h.workingDirectory path = q := FileTree.aim_of_locateNew hlocate
  rw [Option.eq_none_iff_forall_ne_some]
  intro e he
  have hlookup := lookup_of_digest? hm he
  dsimp only at hlookup
  rw [hq, FileTree.lookup_put _ _ _ _ (by simp), if_neg (by simp)] at hlookup
  -- what is below a place where nothing is would be in no directory
  obtain ⟨e', he'⟩ := connected _ q e hlookup (List.prefix_append _ _)
  rw [free] at he'
  cases he'

end Host

/-- At this revision nothing depends on when it is done: the baseline has one graph, a dump of a
module that it defines makes this content or fails, and a comparison answers to the content of the
digest. In the directory nothing else is touched. -/
structure Collaborators.IsConstant (c : Collaborators) (revision : Revision) (g : PackageGraph)
    (content : ModuleName → Option FileTree.Content)
    (answer : BuildPlan → Option Path → ModuleName → FileTree.Content → Comparing.Answer)
    (directory : Path) : Prop extends c.Respect revision directory where
  graph_eq : ∀ s arrival t, Baseline.arrive c revision s = (.ok arrival, t) → arrival.graph = g
  defines : ∀ m x, content m = some x → g.Defines c.digester.language m
  dumps : ∀ s arrival t, Baseline.arrive c revision s = (.ok arrival, t) →
    ∀ (m : ModuleName) (h : Host), m.isIdentifier = true → g.Defines c.digester.language m →
      h.Houses directory → h.digest? directory m ≠ some .directory →
        let (a, h') := c.digester.dump m arrival.plan (m.digestPath directory) h
        (a = .returned (.ok ()) ↔ content m ≠ none) ∧
          ∀ x, content m = some x → h'.digest? directory m = some (.file x)
  compare : ∀ (m : ModuleName) plan allowlist (h : Host), m.isIdentifier = true →
    h.Houses directory →
      let (a, h') := c.digester.compare (m.digestPath directory) m plan allowlist h
      h.Leaves directory h' ∧
        ∀ x, h.digest? directory m = some (.file x) → a = answer plan allowlist m x

section

variable {c : Collaborators} {revision : Revision} {g : PackageGraph}
  {content : ModuleName → Option FileTree.Content}
  {answer : BuildPlan → Option Path → ModuleName → FileTree.Content → Comparing.Answer}

namespace Baseline

theorem holds_opened {s t : Session} {d : BaselineDirectory} (ordinary : s.host.IsOrdinary)
    (connected : s.host.files.IsConnected)
    (opened : BaselineDirectory.opened none revision s = (.ok d, t)) :
    t.host.Holds content d.path := by
  have houses := houses_opened ordinary opened
  unfold BaselineDirectory.opened ExceptT.mk at opened
  dsimp only at opened
  split at opened
  · rename_i made
    cases opened
    refine ⟨houses, fun m e hm he => ?_⟩
    rw [BaselineDirectory.path, Host.digest?_makeTemporary connected made hm] at he
    cases he
  · cases opened

section

variable (modules : ModuleSet) {named : Option Path} (regenerate : Bool)
  (schedule : Pool.Schedule) {s t : Session} {d : BaselineDirectory}
  (opened : BaselineDirectory.opened named revision s = (.ok d, t))
  (arrives : ∃ arrival u, arrive c revision t = (.ok arrival, u))
include opened arrives

theorem exists_prepare (within : c.buildSystem.workers ≤ Pool.widthLimit) :
    ∃ b s', prepare c modules revision named regenerate schedule s = (.ok b, s') ∧
      b.directory = d := by
  obtain ⟨arrival, u, harrive⟩ := arrives
  by_cases hempty : (needed t.host d.path modules regenerate).isEmpty = true
  · refine ⟨⟨d, .none⟩, t, prepare_eq_ok.2 ⟨t, opened, ?_⟩, rfl⟩
    dsimp only
    rw [if_pos hempty]
    exact ⟨rfl, rfl⟩
  · obtain ⟨dumps, v, hdumps⟩ : ∃ dumps v, dumpAll c.digester arrival.plan d.path
        (arrival.graph.diffableModules c.digester.language)
        (needed t.host d.path modules regenerate) c.buildSystem.workers schedule u =
          (.ok dumps, v) := ⟨_, _, Run.pooled_eq_ok.2 ⟨within, rfl⟩⟩
    refine ⟨⟨d, dumps⟩, { v with host := v.host.removeTree arrival.checkout },
      prepare_eq_ok.2 ⟨t, opened, ?_⟩, rfl⟩
    dsimp only
    rw [if_neg hempty]
    exact ⟨arrival, u, v, harrive, hdumps, rfl⟩

theorem prepare_overloaded (beyond : Pool.widthLimit < c.buildSystem.workers) :
    prepare c modules revision named regenerate schedule s = (.ok ⟨d, .none⟩, t) ∨
      ∃ arrival u, arrive c revision t = (.ok arrival, u) ∧
        prepare c modules revision named regenerate schedule s =
          (.error .overload, d.close { u with host := u.host.removeTree arrival.checkout }) := by
  rw [prepare, Run.bind_of_ok opened, Run.bind_of_ok (Run.get_eq_ok.2 ⟨rfl, rfl⟩)]
  split
  · exact .inl (Run.pure_eq_ok.2 ⟨rfl, rfl⟩)
  · obtain ⟨arrival, u, harrive⟩ := arrives
    have harrived := harrive
    simp only [arrive, Run.bind_eq_ok, Run.pure_eq_ok] at harrive
    obtain ⟨checkout, s₁, hopen, root, s₂, hroot, plan, s₃, hplan, graph, s₄, hgraph, rfl, rfl⟩ :=
      harrive
    have hgenerate : generate c revision d.path (needed t.host d.path modules regenerate) schedule t =
        (.error .overload, { s₄ with host := s₄.host.removeTree checkout }) := by
      rw [generate, inCheckout, Run.bind_of_ok hopen]
      refine Run.finallyDo_eq_error.2 ⟨s₄, ?_, rfl⟩
      rw [Run.bind_of_ok hroot, Run.bind_of_ok hplan, Run.bind_of_ok hgraph]
      exact Run.pooled_eq_error.2 ⟨beyond, rfl, rfl⟩
    exact .inr ⟨_, _, harrived, Run.bind_of_error (Run.onHalt_of_error hgenerate)⟩

end

section

variable {modules : ModuleSet} {named : Option Path} {regenerate : Bool} {schedule : Pool.Schedule}
  {s s' t : Session} {b : Baseline}
  (constant : c.IsConstant revision g content answer b.directory.path)
  (holds : t.host.Holds content b.directory.path)
  (identifiers : ∀ m ∈ modules, m.isIdentifier = true)
  (run : prepare c modules revision named regenerate schedule s = (.ok b, s'))
  (opened : BaselineDirectory.opened named revision s = (.ok b.directory, t))
include constant holds identifiers run opened

theorem mem_generationFailures_of_needed {m : ModuleName}
    (hneeded : m ∈ needed t.host b.directory.path modules regenerate)
    (hdefined : g.Defines c.digester.language m) :
    (m ∈ b.dumps.generationFailures ↔ content m = none) ∧
      ∀ x, content m = some x → s'.host.digest? b.directory.path m = some (.file x) := by
  have hm := identifiers m (mem_needed.1 hneeded).1
  rcases prepare_cases run opened with ⟨hempty, -⟩ | ⟨arrival, u, -, harrive, -⟩
  · exact absurd hneeded (ModuleSet.isEmpty_iff.1 hempty m)
  · obtain rfl := constant.graph_eq t arrival u harrive
    have classified := classified_prepare run opened harrive
    obtain ⟨h, houses, hfree, hiff, hleft⟩ :=
      dumped_prepare constant.toRespect holds.houses identifiers run opened hneeded harrive hdefined
    obtain ⟨hends, hmade⟩ := constant.dumps t arrival u harrive m h hm hdefined houses
      fun hd => holds.digest?_ne_directory hm (hfree hd)
    have hdumped : m ∈ b.dumps.dumped ↔ content m ≠ none := hiff.trans hends
    refine ⟨?_, fun x hx => ?_⟩
    · constructor
      · intro hfailed
        by_contra hne
        exact classified.apart m (hdumped.2 hne) hfailed
      · intro hnone
        refine ((classified.attempted m).2 ⟨hneeded, hdefined⟩).resolve_left fun h => ?_
        exact hdumped.1 h hnone
    · rw [hleft (hdumped.2 (by simp [hx]))]
      exact hmade x hx

theorem digest?_prepare_eq {m : ModuleName} (hm : m ∈ modules) :
    s'.host.digest? b.directory.path m = (content m).map .file := by
  have hid := identifiers m hm
  have classified := classified_of_graph constant.graph_eq run opened
  have hexcluded : m ∈ b.dumps.generationFailures ∨ m ∈ b.dumps.notInBaseline →
      s'.host.digest? b.directory.path m = none := fun h =>
    digest?_excluded constant.toRespect holds.houses identifiers run opened hid h
      (holds.digest?_ne_directory hid)
  by_cases hneeded : m ∈ needed t.host b.directory.path modules regenerate
  · by_cases hdefined : g.Defines c.digester.language m
    · obtain ⟨hfailed, hmade⟩ :=
        mem_generationFailures_of_needed constant holds identifiers run opened hneeded hdefined
      cases hx : content m with
      | none => exact hexcluded (.inl (hfailed.2 hx))
      | some x => exact hmade x hx
    · have hnone : content m = none := by
        rw [Option.eq_none_iff_forall_ne_some]
        exact fun x hx => hdefined (constant.defines m x hx)
      rw [hnone]
      exact hexcluded (.inr ((classified.notInBaseline m).2 ⟨hneeded, hdefined⟩))
  · obtain ⟨-, -, hsame, -⟩ :=
      leaves_prepare constant.toRespect holds.houses identifiers run opened
    rw [hsame m hid hneeded]
    rw [mem_needed, not_and, not_or, Bool.not_eq_false, Host.exists?_digestPath] at hneeded
    obtain ⟨e, he⟩ := Option.isSome_iff_exists.1 (hneeded hm).2
    obtain ⟨x, hx, rfl⟩ := holds.digests m e hid he
    rw [he, hx]
    rfl

theorem holds_prepare : s'.host.Holds content b.directory.path := by
  obtain ⟨houses, -, hsame, -⟩ :=
    leaves_prepare constant.toRespect holds.houses identifiers run opened
  refine ⟨houses, fun m e hid he => ?_⟩
  by_cases hm : m ∈ modules
  · rw [digest?_prepare_eq constant holds identifiers run opened hm, Option.map_eq_some_iff] at he
    obtain ⟨x, hx, rfl⟩ := he
    exact ⟨x, hx, rfl⟩
  · rw [hsame m hid fun h => hm (mem_needed.1 h).1] at he
    exact holds.digests m e hid he

theorem mem_generationFailures_iff {m : ModuleName} :
    m ∈ b.dumps.generationFailures ↔
      m ∈ modules ∧ g.Defines c.digester.language m ∧ content m = none := by
  have classified := classified_of_graph constant.graph_eq run opened
  constructor
  · intro hfailed
    obtain ⟨hneeded, hdefined⟩ := (classified.attempted m).1 (.inr hfailed)
    obtain ⟨hiff, -⟩ :=
      mem_generationFailures_of_needed constant holds identifiers run opened hneeded hdefined
    exact ⟨(mem_needed.1 hneeded).1, hdefined, hiff.1 hfailed⟩
  · rintro ⟨hm, hdefined, hnone⟩
    have hneeded : m ∈ needed t.host b.directory.path modules regenerate := by
      -- a digest that is there has a content
      rw [mem_needed, Host.exists?_digestPath]
      refine ⟨hm, .inr ?_⟩
      rw [Option.isSome_eq_false_iff, Option.isNone_iff_eq_none, Option.eq_none_iff_forall_ne_some]
      intro e he
      obtain ⟨x, hx, -⟩ := holds.digests m e (identifiers m hm) he
      rw [hnone] at hx
      cases hx
    exact (mem_generationFailures_of_needed constant holds identifiers run opened hneeded
      hdefined).1.2 hnone

end

end Baseline

namespace Comparing

/-- What is done with a module whose digest has this content, or that has no digest. -/
def storedDuty (answer : ModuleName → FileTree.Content → Answer) :
    Pool.Duty (Option FileTree.Content) ModuleName Answer where
  admits _ x := x.isSome
  refuse _ x := x
  call m x := ((x.map (answer m)).getD (.crashed ""), x)
  report _ _ x := x
  settle _ _ _ x := x

section

variable {directory : Path} {plan : BuildPlan} {allowlist : Allowlist}
  {generationFailures modules : ModuleSet}
  (constant : c.IsConstant revision g content answer directory)
include constant

variable (plan allowlist generationFailures) in
theorem leaves_effect {w : Comparing} {deed : Pool.Deed ModuleName Answer}
    (houses : w.session.host.Houses directory) (identifier : deed.job.isIdentifier = true) :
    w.session.host.Leaves directory
      ((duty c.digester plan directory allowlist generationFailures).effect w deed).session.host := by
  cases deed with
  | answered task a =>
    exact (constant.compare task.job plan allowlist.source _ identifier houses).1
  | reported task a => rcases a with (e | found) | words <;> exact .refl houses
  | joined task a => rcases a with r | words <;> exact .refl houses
  | _ => exact .refl houses

variable (plan allowlist generationFailures) in
theorem mirrors_stored {k : ModuleName} (hk : k.isIdentifier = true) {jobs : List ModuleName}
    (identifiers : ∀ j ∈ jobs, j.isIdentifier = true) :
    (duty c.digester plan directory allowlist generationFailures).Mirrors
      (storedDuty (answer plan allowlist.source)) jobs k fun x w =>
        w.session.host.Houses directory ∧ w.session.host.digest? directory k = x.map .file where
  admits x w sees := by
    change w.session.host.exists? (k.digestPath directory) = x.isSome
    rw [Host.exists?_digestPath, sees.2, Option.isSome_map]
  answer x w sees admits := by
    obtain ⟨content, rfl⟩ := Option.isSome_iff_exists.1 admits
    exact (constant.compare k plan allowlist.source _ hk sees.1).2 content sees.2
  own x w deed sees hjob _ := by
    have leaves := leaves_effect plan allowlist generationFailures constant sees.1 (hjob ▸ hk)
    have hview : (storedDuty (answer plan allowlist.source)).effect x deed = x := by
      cases deed <;> rfl
    rw [hview]
    exact ⟨leaves.houses, (leaves.digests k hk).trans sees.2⟩
  others x w deed sees hmem _ := by
    have leaves := leaves_effect plan allowlist generationFailures constant sees.1
      (identifiers _ hmem)
    exact ⟨leaves.houses, (leaves.digests k hk).trans sees.2⟩
  settle _ _ _ := rfl

theorem leaves_compareAll (identifiers : ∀ m ∈ modules, m.isIdentifier = true) {width : Nat}
    {schedule : Pool.Schedule} {s t : Session} {o : Outcome} (houses : s.host.Houses directory)
    (run : compareAll c.digester plan directory allowlist generationFailures modules width schedule
      s = (.ok o, t)) : s.host.Leaves directory t.host := by
  obtain ⟨ds, p, leads, -, -, rfl⟩ := leads_compareAll run
  refine leads.induct_jobs (fun w => s.host.Leaves directory w.session.host) (.refl houses)
    fun w deed hmem leaves => leaves.trans ?_
  exact leaves_effect _ _ _ constant leaves.houses (identifiers _ (ModuleSet.mem_def.2 hmem))

theorem compareAll_stored {directory' : Path}
    (constant' : c.IsConstant revision g content answer directory')
    (identifiers : ∀ m ∈ modules, m.isIdentifier = true) {width : Nat}
    {schedule schedule' : Pool.Schedule} {s s' t t' : Session} {o o' : Outcome}
    (houses : s.host.Houses directory) (houses' : s'.host.Houses directory')
    (digests : ∀ m ∈ modules, s.host.digest? directory m = (content m).map .file)
    (digests' : ∀ m ∈ modules, s'.host.digest? directory' m = (content m).map .file)
    (run : compareAll c.digester plan directory allowlist generationFailures modules width schedule
      s = (.ok o, t))
    (run' : compareAll c.digester plan directory' allowlist generationFailures modules width
      schedule' s' = (.ok o', t')) :
    o.Agrees o' ∧ (o.results.map Comparison.module).Nodup := by
  obtain ⟨ds, p, leads, covers, rfl, rfl⟩ := leads_compareAll run
  obtain ⟨ds', p', leads', covers', rfl, rfl⟩ := leads_compareAll run'
  have kept := kept_of_leads c.digester plan leads
  have kept' := kept_of_leads c.digester plan leads'
  refine ⟨agrees_of_concur kept kept' covers covers' fun m hm => ?_,
    nodup_modules_results kept covers⟩
  have hmem := ModuleSet.mem_def.2 hm
  have hid := identifiers m hmem
  have hmirrors := mirrors_stored plan allowlist generationFailures constant hid identifiers
  have hmirrors' := mirrors_stored plan allowlist generationFailures constant' hid identifiers
  have hsees : (ofSession s).session.host.Houses directory ∧
      (ofSession s).session.host.digest? directory m = (content m).map .file :=
    ⟨houses, digests m hmem⟩
  have hsees' : (ofSession s').session.host.Houses directory' ∧
      (ofSession s').session.host.digest? directory' m = (content m).map .file :=
    ⟨houses', digests' m hmem⟩
  exact (Pool.concur_of_leads hmirrors hmirrors' modules.nodup hsees hsees' leads leads' covers
    covers').1

end

end Comparing

end

/-! ### In a rehearsal -/

theorem Host.exists_write {h : Host} {directory : Path} {m : ModuleName} (text : String)
    (houses : h.Houses directory) (hm : m.isIdentifier = true)
    (askable : FileTree.textError? (m.digestPath directory) = none)
    (short : (m.text ++ ".json").utf8ByteSize ≤ FileTree.nameLimit)
    (free : h.digest? directory m ≠ some .directory) :
    ∃ h', h.write (m.digestPath directory) text = .ok h' := by
  obtain ⟨d, hwalk, hd⟩ := houses.there
  have plain := FileTree.plain_digest (ModuleName.plain_of_isIdentifier hm)
  have hlocate : h.files.locate h.workingDirectory (m.digestPath directory) =
      .ok (d ++ [m.text ++ ".json"]) := by
    rw [FileTree.locate, askable]
    dsimp only
    rw [ModuleName.digestPath, FileTree.walk_join _ _ _ plain, hwalk]
    exact FileTree.step_of_ordinary hd (FileTree.ordinary_digest m) short
  have hfree : h.files.isDirectory (d ++ [m.text ++ ".json"]) = false := by
    rw [← Bool.not_eq_true, FileTree.isDirectory_iff]
    intro hdirectory
    refine free ?_
    rw [digest?, item?, place?, FileTree.place?, hlocate]
    exact hdirectory
  have hplace : h.place? (m.digestPath directory) = some (d ++ [m.text ++ ".json"]) := by
    rw [place?, FileTree.place?, hlocate]
    rfl
  exact ⟨_, write_eq_ok.2
    ⟨_, hplace, FileTree.endsInSlash_digestPath hm directory, hfree, rfl⟩⟩

namespace Rehearsal

def ScriptedDigester.content (d : ScriptedDigester) (libraries : List String) (m : ModuleName) :
    Option FileTree.Content :=
  if m ∈ (PackageGraph.ofLibraries "demo" libraries).diffableModules d.language ∧
    m ∉ d.failingDumps ∧ m ∉ d.crashingDumps then some (.text (digest m)) else none

theorem ScriptedDigester.dump_eq_ok (d : ScriptedDigester) {m : ModuleName} (plan : BuildPlan)
    {directory : Path} {h : Host}
    (writes : ∃ h', h.write (m.digestPath directory) (digest m) = .ok h') :
    (d.digester.dump m plan (m.digestPath directory) h).1 = .returned (.ok ()) ↔
      m ∉ d.failingDumps ∧ m ∉ d.crashingDumps := by
  obtain ⟨h', hw⟩ := writes
  by_cases hcrash : m ∈ d.crashingDumps
  · simp [digester, hcrash]
  · by_cases hfail : m ∈ d.failingDumps
    · simp [digester, dump, hcrash, hfail]
    · simp [digester, dump, hcrash, hfail, hw]

theorem isConstant_collaborators (d : ScriptedDigester) (libraries : List String)
    (revision : Revision) (directory : Path)
    (writable : ∀ m ∈ (PackageGraph.ofLibraries "demo" libraries).diffableModules d.language,
      FileTree.textError? (m.digestPath directory) = none ∧
        (m.text ++ ".json").utf8ByteSize ≤ FileTree.nameLimit) :
    (collaborators d libraries libraries).IsConstant revision (.ofLibraries "demo" libraries)
      (d.content libraries) (fun _ _ m _ => d.comparison m) directory where
  toRespect := respect_collaborators d libraries libraries revision directory
  graph_eq s arrival t harrive := by
    obtain ⟨root, host, hgraph⟩ := Baseline.arrive_graph harrive
    rw [graph_collaborators_self] at hgraph
    exact (Except.ok.inj hgraph).symm
  defines m x hx := by
    rw [ScriptedDigester.content] at hx
    split at hx
    · rename_i hm
      exact Baseline.mem_diffableModules.1 hm.1
    · cases hx
  dumps s arrival t _ m h hid hdefined houses free := by
    have hmem := Baseline.mem_diffableModules.2 hdefined
    obtain ⟨askable, short⟩ := writable m hmem
    have hends := d.dump_eq_ok arrival.plan
      (Host.exists_write (ScriptedDigester.digest m) houses hid askable short free)
    have hcontent : d.content libraries m ≠ none ↔ m ∉ d.failingDumps ∧ m ∉ d.crashingDumps := by
      rw [ScriptedDigester.content]
      split
      · rename_i hm
        exact iff_of_true nofun hm.2
      · rename_i hm
        exact iff_of_false (fun h => h rfl) fun h => hm ⟨hmem, h⟩
    refine ⟨hends.trans hcontent.symm, fun x hx => ?_⟩
    have hsome : d.content libraries m ≠ none := by simp [hx]
    have hwritten := d.digest?_dump directory (hends.2 (hcontent.1 hsome))
    rw [ScriptedDigester.content, if_pos ⟨hmem, hcontent.1 hsome⟩] at hx
    rwa [← Option.some.inj hx]
  compare m plan allowlist h hid houses := ⟨.refl houses, fun _ _ => rfl⟩

end Rehearsal

end Breakage
