import Breakage.Proofs.Package.Selection
import Breakage.Proofs.Run.Invariant

/-!
What there is of each module when a baseline is ready. A module whose digest was to be made has been
dumped or has failed if the baseline defines it (`classified_prepare`). Collaborators that do nothing
but their own work take no digest away (`Collaborators.IsTidy`); then one that was found in the
directory stays (`exists?_prepare`), and one that was made is as its dump has left it
(`digest?_prepare`).
-/

namespace Breakage

structure Host.Retains (directory : Path) (h h' : Host) : Prop where
  workingDirectory : h'.workingDirectory = h.workingDirectory
  digests : ∀ m : ModuleName, h.exists? (m.digestPath directory) = true →
    h'.exists? (m.digestPath directory) = true

namespace Host.Retains

variable {directory : Path} {h h' h'' : Host}

theorem refl (directory : Path) (h : Host) : h.Retains directory h := ⟨rfl, fun _ hm => hm⟩

theorem trans (r : h.Retains directory h') (r' : h'.Retains directory h'') :
    h.Retains directory h'' :=
  ⟨r'.workingDirectory.trans r.workingDirectory, fun m hm => r'.digests m (r.digests m hm)⟩

theorem of_lookup (same : h'.workingDirectory = h.workingDirectory)
    (files : ∀ p e, h.files.lookup p = some e → h'.files.lookup p = some e) :
    h.Retains directory h' := by
  refine ⟨same, fun m hm => ?_⟩
  rw [exists?_eq, Option.isSome_iff_exists] at hm ⊢
  obtain ⟨e, he⟩ := hm
  refine ⟨e, ?_⟩
  rw [item?, place?, same]
  exact FileTree.item?_mono files he

theorem makeDirectories {path : Path} {r : Except OsError Unit}
    (hm : h.makeDirectories path = (r, h')) : h.Retains directory h' := by
  cases hm
  exact of_lookup rfl fun _ _ => FileTree.lookup_makeDirectories

theorem makeTemporary {stem : String} {path : Path} (hm : h.makeTemporary stem = .ok (path, h')) :
    h.Retains directory h' := by
  obtain ⟨ending, -, -, files, hmade, rfl⟩ := makeFresh_eq_ok hm
  exact of_lookup rfl fun _ _ => FileTree.lookup_makeDirectory hmade

end Host.Retains

/-- Those a run works with leave the digests in a directory alone, but that a dump writes its own. None
of them moves the run to another working directory. -/
structure Collaborators.IsTidy (c : Collaborators) (directory : Path) : Prop where
  checkOut : ∀ revision destination (h : Host),
    h.Retains directory (c.versionControl.checkOut revision destination h).2
  build : ∀ root (h : Host), h.Retains directory (c.buildSystem.build root h).2
  graph : ∀ root (h : Host), h.Retains directory (c.buildSystem.graph root h).2
  dump : c.digester.DumpsInPlace directory
  remain : ∀ m plan output h,
    (c.digester.dump m plan output h).2.workingDirectory = h.workingDirectory
  compare : c.digester.KeepsDigests directory

namespace Rehearsal

theorem ScriptedDigester.workingDirectory_dump (d : ScriptedDigester) (m : ModuleName)
    (plan : BuildPlan) (output : Path) (h : Host) :
    (d.digester.dump m plan output h).2.workingDirectory = h.workingDirectory := by
  have hdump : (d.digester.dump m plan output h).2 = (d.dump m output h).2 := by
    simp only [digester]
    split <;> rfl
  rw [hdump, dump]
  split
  · rfl
  · split
    · rename_i h' hw
      unfold Host.write at hw
      cases hf : h.files.write h.workingDirectory output (.text (digest m)) with
      | error e =>
        rw [hf] at hw
        cases hw
      | ok files =>
        rw [hf] at hw
        cases hw
        rfl
    · rfl

theorem isTidy_collaborators (d : ScriptedDigester) (current baseline : List String)
    (directory : Path) : (collaborators d current baseline).IsTidy directory where
  checkOut revision destination h := by
    rcases hmade : h.makeDirectories destination with ⟨e | ⟨⟨⟩⟩, h'⟩
    all_goals
      have hout : ((collaborators d current baseline).versionControl.checkOut revision destination h).2
          = h' := by
        simp only [collaborators, Revisions.versionControl, hmade]
      rw [hout]
      exact .makeDirectories hmade
  build root h := .refl directory h
  graph root h := .refl directory h
  dump := d.dumpsInPlace directory
  remain := d.workingDirectory_dump
  compare := d.keepsDigests directory

theorem graph_collaborators_self (d : ScriptedDigester) (libraries : List String) (root : Path)
    (h : Host) : ((collaborators d libraries libraries).buildSystem.graph root h).1 =
      .ok (.ofLibraries "demo" libraries) :=
  congrArg Except.ok (ite_self _)

end Rehearsal

namespace Baseline

theorem workingDirectory_dumpAll {digester : Digester} {plan : BuildPlan} {directory : Path}
    {defined needed : ModuleSet} {width : Nat} {schedule : Pool.Schedule} {s s' : Session}
    {r : Except Halt Dumps}
    (remain : ∀ m plan output h,
      (digester.dump m plan output h).2.workingDirectory = h.workingDirectory)
    (run : dumpAll digester plan directory defined needed width schedule s = (r, s')) :
    s'.host.workingDirectory = s.host.workingDirectory := by
  have hkeeps : (dumpAll digester plan directory defined needed width schedule).Keeps
      (fun h => h.workingDirectory = s.host.workingDirectory) fun _ => True :=
    keeps_dumpAll (fun _ _ _ hh => hh) fun m _ h hh => (remain m plan _ h).trans hh
  have hs := (hkeeps s rfl).1
  rwa [run] at hs

theorem retains_arrive {c : Collaborators} {directory : Path} (tidy : c.IsTidy directory)
    {revision : Revision} {s t : Session} {arrival : Arrival}
    (h : arrive c revision s = (.ok arrival, t)) : s.host.Retains directory t.host := by
  simp only [arrive, Run.bind_eq_ok, Run.pure_eq_ok] at h
  obtain ⟨checkout, s₁, hopen, root, s₂, hroot, plan, s₃, hplan, graph, s₄, hgraph, -, rfl⟩ := h
  have hcheckOut := tidy.checkOut revision (checkout.join "baseline") s₁.host
  have hbuild := tidy.build root s₂.host
  have hdescribe := tidy.graph root s₃.host
  rw [Run.action_of_ask hroot] at hcheckOut
  rw [Run.action_of_ask hplan] at hbuild
  rw [Run.action_of_ask hgraph] at hdescribe
  have hfirst : s.host.Retains directory s₁.host := .makeTemporary (openCheckout_eq_ok hopen)
  exact ((hfirst.trans hcheckOut).trans hbuild).trans hdescribe

theorem Made.split_of_mem {digester : Digester} {plan : BuildPlan} {directory : Path}
    {defined needed : ModuleSet} {ds : Dumping.History} {s s' : Session} {d : Dumps}
    (made : Made digester plan directory defined needed ds s s' d) {m : ModuleName}
    (hneeded : m ∈ needed) (hdefined : m ∈ defined) :
    ∃ es task a es', ds = es ++ .answered task a :: es' ∧ task.job = m := by
  obtain ⟨r, hr, rfl⟩ := List.mem_map.1 (made.called.mem_iff.2
    (List.mem_filter.2 ⟨hneeded, decide_eq_true hdefined⟩))
  obtain ⟨deed, hdeed, hanswer⟩ := List.mem_filterMap.1 hr
  obtain ⟨es, es', hsplit⟩ := List.append_of_mem hdeed
  cases deed with
  | answered task a =>
    cases hanswer
    exact ⟨es, task, a, es', hsplit, rfl⟩
  | _ => cases hanswer

structure Classified (d : Dumps) (needed : ModuleSet) (g : PackageGraph) (language : Language) :
    Prop where
  attempted : ∀ m, m ∈ d.dumped ∨ m ∈ d.generationFailures ↔ m ∈ needed ∧ g.Defines language m
  apart : ∀ m ∈ d.dumped, m ∉ d.generationFailures
  notInBaseline : ∀ m, m ∈ d.notInBaseline ↔ m ∈ needed ∧ ¬g.Defines language m

theorem classified_none {needed : ModuleSet} (h : needed.isEmpty = true) (g : PackageGraph)
    (language : Language) : Classified .none needed g language := by
  have hno := ModuleSet.isEmpty_iff.1 h
  exact ⟨fun m => by simp [hno m, Dumps.none, ModuleSet.not_mem_empty],
    fun m hm => absurd hm (ModuleSet.not_mem_empty m),
    fun m => by simp [hno m, Dumps.none, ModuleSet.not_mem_empty]⟩

theorem classified_dumpAll {digester : Digester} {plan : BuildPlan} {directory : Path}
    {g : PackageGraph} {needed : ModuleSet} {width : Nat} {schedule : Pool.Schedule} {s s' : Session}
    {d : Dumps} (run : dumpAll digester plan directory (g.diffableModules digester.language) needed
      width schedule s = (.ok d, s')) : Classified d needed g digester.language := by
  have hplaces := places_dumpAll run
  have habsent : ∀ m, m ∈ d.notInBaseline ↔ m ∈ needed ∧ ¬g.Defines digester.language m := by
    intro m
    rw [notInBaseline_dumpAll run, mem_diffableModules]
    rfl
  refine ⟨fun m => ?_, fun m hdumped hfailed => ?_, habsent⟩
  · -- a needed module is in one of three places, and in the third only if it is not defined
    have hm := hplaces m
    have hn := habsent m
    grind
  · have hm := hplaces m
    simp only [hdumped, hfailed, decide_true, Bool.toNat_true] at hm
    split at hm <;> omega

section

variable {c : Collaborators} {modules : ModuleSet} {revision : Revision} {named : Option Path}
  {regenerate : Bool} {schedule : Pool.Schedule} {s s' t : Session} {b : Baseline}

section

variable (run : prepare c modules revision named regenerate schedule s = (.ok b, s'))
  (opened : BaselineDirectory.opened named revision s = (.ok b.directory, t))
include run opened

/-- Nothing was to be made, or the baseline has been checked out and its dumps have been made. -/
theorem prepare_cases :
    (needed t.host b.directory.path modules regenerate).isEmpty = true ∧ b.dumps = .none ∧ s' = t ∨
      ∃ arrival u v, arrive c revision t = (.ok arrival, u) ∧
        dumpAll c.digester arrival.plan b.directory.path
          (arrival.graph.diffableModules c.digester.language)
          (needed t.host b.directory.path modules regenerate) c.buildSystem.workers schedule u =
            (.ok b.dumps, v) ∧
        { v with host := v.host.removeTree arrival.checkout } = s' := by
  obtain ⟨t', hopened, hrest⟩ := prepare_eq_ok.1 run
  rw [opened] at hopened
  cases hopened
  simp only at hrest
  split at hrest
  · exact .inl ⟨‹_›, hrest⟩
  · exact .inr hrest

theorem arrives_prepare :
    (needed t.host b.directory.path modules regenerate).isEmpty = true ∧ b.dumps = .none ∨
      ∃ arrival u, arrive c revision t = (.ok arrival, u) := by
  rcases prepare_cases run opened with ⟨hempty, hnone, -⟩ | ⟨arrival, u, -, harrive, -⟩
  · exact .inl ⟨hempty, hnone⟩
  · exact .inr ⟨arrival, u, harrive⟩

theorem dumpAll_of_arrive {arrival : Arrival} {u : Session}
    (harrive : arrive c revision t = (.ok arrival, u)) {m : ModuleName}
    (hm : m ∈ needed t.host b.directory.path modules regenerate) :
    ∃ v, dumpAll c.digester arrival.plan b.directory.path
        (arrival.graph.diffableModules c.digester.language)
        (needed t.host b.directory.path modules regenerate) c.buildSystem.workers schedule u =
          (.ok b.dumps, v) ∧
      { v with host := v.host.removeTree arrival.checkout } = s' := by
  rcases prepare_cases run opened with ⟨hempty, -⟩ | ⟨arrival', u', v, harrive', hrest⟩
  · exact absurd hm (ModuleSet.isEmpty_iff.1 hempty m)
  · rw [harrive] at harrive'
    cases harrive'
    exact ⟨v, hrest⟩

theorem classified_prepare {arrival : Arrival} {u : Session}
    (harrive : arrive c revision t = (.ok arrival, u)) :
    Classified b.dumps (needed t.host b.directory.path modules regenerate) arrival.graph
      c.digester.language := by
  rcases prepare_cases run opened with ⟨hempty, hnone, -⟩ | ⟨arrival', u', v, harrive', hdumps, -⟩
  · rw [hnone]
    exact classified_none hempty _ _
  · rw [harrive] at harrive'
    cases harrive'
    exact classified_dumpAll hdumps

end

variable (tidy : c.IsTidy b.directory.path) (ordinary : s.host.IsOrdinary)
  (identifiers : ∀ m ∈ modules, m.isIdentifier = true)
  (run : prepare c modules revision named regenerate schedule s = (.ok b, s'))
  (opened : BaselineDirectory.opened named revision s = (.ok b.directory, t))
include tidy ordinary identifiers opened

theorem digest?_closed {arrival : Arrival} {u v : Session} {d : Dumps}
    (harrive : arrive c revision t = (.ok arrival, u))
    (hdumps : dumpAll c.digester arrival.plan b.directory.path
      (arrival.graph.diffableModules c.digester.language)
      (needed t.host b.directory.path modules regenerate) c.buildSystem.workers schedule u =
        (.ok d, v)) {m : ModuleName} (hm : m ∈ modules) :
    (v.host.removeTree arrival.checkout).digest? b.directory.path m =
      v.host.digest? b.directory.path m := by
  obtain ⟨hordinary, hdirectory, -⟩ := opened_ordinary opened ordinary
  have hsame := (workingDirectory_dumpAll tidy.remain hdumps).trans
    (retains_arrive tidy harrive).workingDirectory
  exact digest?_removeTree_checkout harrive hordinary hdirectory hsame (identifiers m hm)

include run

theorem exists?_prepare {m : ModuleName} (hm : m ∈ modules)
    (found : m ∉ needed t.host b.directory.path modules regenerate) :
    s'.host.exists? (m.digestPath b.directory.path) = true := by
  have hthere : t.host.exists? (m.digestPath b.directory.path) = true := by
    rw [mem_needed, not_and, not_or, Bool.not_eq_false] at found
    exact (found hm).2
  rcases prepare_cases run opened with ⟨-, -, rfl⟩ | ⟨arrival, u, v, harrive, hdumps, rfl⟩
  · exact hthere
  · have hmade := made_dumpAll tidy.dump (fun k hk => identifiers k (mem_needed.1 hk).1) hdumps
    have hkept := (retains_arrive tidy harrive).digests m hthere
    have hdigest := hmade.elsewhere.digest?_eq (identifiers m hm)
      (fun k hk => identifiers k (mem_needed.1 hk).1) found
    rw [Host.exists?_digestPath] at hkept ⊢
    rw [digest?_closed tidy ordinary identifiers opened harrive hdumps hm, hdigest]
    exact hkept

theorem digest?_prepare {m : ModuleName} (hm : m ∈ b.dumps.dumped) {arrival : Arrival} {u : Session}
    (harrive : arrive c revision t = (.ok arrival, u)) :
    ∃ host, (c.digester.dump m arrival.plan (m.digestPath b.directory.path) host).1 =
        .returned (.ok ()) ∧
      s'.host.digest? b.directory.path m =
        (c.digester.dump m arrival.plan (m.digestPath b.directory.path) host).2.digest?
          b.directory.path m := by
  obtain ⟨hneeded, hdefined⟩ :=
    ((classified_prepare run opened harrive).attempted m).1 (.inl hm)
  obtain ⟨v, hdumps, rfl⟩ := dumpAll_of_arrive run opened harrive hneeded
  have hmade := made_dumpAll tidy.dump (fun k hk => identifiers k (mem_needed.1 hk).1) hdumps
  obtain ⟨es, task, a, es', hsplit, rfl⟩ :=
    hmade.split_of_mem hneeded (mem_diffableModules.2 hdefined)
  obtain ⟨hans, hiff, hleft⟩ := hmade.dumped es task a es' hsplit
  refine ⟨_, hans.symm.trans (hiff.1 hm), ?_⟩
  exact (digest?_closed tidy ordinary identifiers opened harrive hdumps
    (mem_needed.1 hneeded).1).trans (hleft hm)

end

end Baseline

end Breakage
