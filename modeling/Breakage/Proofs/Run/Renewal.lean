import Breakage.Proofs.Run.Stock

/-!
Making a baseline ready a second time. What the first time has left decides what is done: the digests
that were found or made are taken as they are, and those that could not be made are wanting still
(`mem_needed_again`), so that only the dumps that have failed are made again. Main statement:
`prepare_again`.
-/

namespace Breakage.Baseline

def MakesDigests (g : Digester) (directory : Path) : Prop :=
  ∀ (m : ModuleName) (plan : BuildPlan) (h : Host), m.isIdentifier = true → h.Houses directory →
    (g.dump m plan (m.digestPath directory) h).1 = .returned (.ok ()) →
      ∃ content, (g.dump m plan (m.digestPath directory) h).2.digest? directory m =
        some (.file content)

section

variable {c : Collaborators} {modules : ModuleSet} {revision : Revision} {named : Option Path}
  {regenerate : Bool} {schedule : Pool.Schedule} {s s' t : Session} {b : Baseline}
  (respect : c.Respect revision b.directory.path) (houses : t.host.Houses b.directory.path)
  (identifiers : ∀ m ∈ modules, m.isIdentifier = true)
  (makes : MakesDigests c.digester b.directory.path)
  (run : prepare c modules revision named regenerate schedule s = (.ok b, s'))
  (opened : BaselineDirectory.opened named revision s = (.ok b.directory, t))
include respect houses identifiers makes run opened

theorem digest?_present {m : ModuleName} (hm : m ∈ modules)
    (present : ¬(m ∈ b.dumps.generationFailures ∨ m ∈ b.dumps.notInBaseline)) :
    s'.host.digest? b.directory.path m ≠ none := by
  by_cases hneeded : m ∈ needed t.host b.directory.path modules regenerate
  · rcases prepare_cases run opened with ⟨hempty, -⟩ | ⟨arrival, u, v, harrive, -⟩
    · exact absurd hneeded (ModuleSet.isEmpty_iff.1 hempty m)
    · have classified := classified_prepare run opened harrive
      rw [not_or] at present
      have hdefined : arrival.graph.Defines c.digester.language m := by
        by_contra hnot
        exact present.2 ((classified.notInBaseline m).2 ⟨hneeded, hnot⟩)
      have hdumped := ((classified.attempted m).2 ⟨hneeded, hdefined⟩).resolve_right present.1
      obtain ⟨h, there, -, hiff, hleft⟩ :=
        dumped_prepare respect houses identifiers run opened hneeded harrive hdefined
      obtain ⟨content, hcontent⟩ :=
        makes m arrival.plan h (identifiers m hm) there (hiff.1 hdumped)
      rw [hleft hdumped, hcontent]
      exact nofun
  · obtain ⟨-, -, hsame, -⟩ := leaves_prepare respect houses identifiers run opened
    rw [hsame m (identifiers m hm) hneeded, ← Option.isSome_iff_ne_none, ← Host.exists?_digestPath]
    rw [mem_needed, not_and, not_or, Bool.not_eq_false] at hneeded
    exact (hneeded hm).2

theorem mem_needed_again
    (free : ∀ m ∈ modules, t.host.digest? b.directory.path m ≠ some .directory) {m : ModuleName} :
    m ∈ needed s'.host b.directory.path modules false ↔
      m ∈ b.dumps.generationFailures ∨ m ∈ b.dumps.notInBaseline := by
  rw [mem_needed, Host.exists?_digestPath, Option.isSome_eq_false_iff, Option.isNone_iff_eq_none]
  constructor
  · rintro ⟨hm, hnone⟩
    by_contra hpresent
    exact digest?_present respect houses identifiers makes run opened hm hpresent
      (hnone.resolve_left Bool.false_ne_true)
  · intro hexcluded
    have hm := (excluded_prepare run hexcluded).1
    exact ⟨hm, .inr (digest?_excluded respect houses identifiers run opened (identifiers m hm)
      hexcluded (free m hm))⟩

theorem digest?_again {schedule' : Pool.Schedule} {s'' : Session} {b' : Baseline}
    (free : ∀ m ∈ modules, t.host.digest? b.directory.path m ≠ some .directory)
    (again : prepare c modules revision named false schedule' s' = (.ok b', s''))
    (reopened : BaselineDirectory.opened named revision s' = (.ok b'.directory, s'))
    (same : b'.directory = b.directory) (absent : b'.dumps.notInBaseline = b.dumps.notInBaseline)
    {m : ModuleName} (hm : m.isIdentifier = true) (hnot : m ∉ b.dumps.generationFailures) :
    s''.host.digest? b.directory.path m = s'.host.digest? b.directory.path m := by
  obtain ⟨there, -⟩ := leaves_prepare respect houses identifiers run opened
  have respect' := respect
  rw [← same] at respect' there
  by_cases habsent : m ∈ b.dumps.notInBaseline
  · have hgone := digest?_excluded respect houses identifiers run opened hm (.inr habsent)
      (free m (excluded_prepare run (.inr habsent)).1)
    have hstill := digest?_excluded respect' there identifiers again reopened hm
      (.inr (absent ▸ habsent))
    rw [same, hgone] at hstill
    rw [hgone, hstill nofun]
  · obtain ⟨-, -, hkept, -⟩ := leaves_prepare respect' there identifiers again reopened
    rw [same] at hkept
    refine hkept m hm fun hneeded => ?_
    rw [mem_needed_again respect houses identifiers makes run opened free] at hneeded
    exact hneeded.elim hnot habsent

end

namespace Classified

variable {d d' : Dumps} {wanting wanting' : ModuleSet} {g : PackageGraph} {language : Language}
  (before : Classified d wanting g language) (after : Classified d' wanting' g language)
  (again : ∀ m, m ∈ wanting' ↔ m ∈ d.generationFailures ∨ m ∈ d.notInBaseline)
include before after again

theorem attempted_again (m : ModuleName) :
    m ∈ d'.dumped ∨ m ∈ d'.generationFailures ↔ m ∈ d.generationFailures := by
  rw [after.attempted, again]
  constructor
  · rintro ⟨hfailed | habsent, hdefined⟩
    · exact hfailed
    · exact absurd hdefined ((before.notInBaseline m).1 habsent).2
  · exact fun hfailed => ⟨.inl hfailed, ((before.attempted m).1 (.inr hfailed)).2⟩

theorem notInBaseline_again : d'.notInBaseline = d.notInBaseline := by
  refine ModuleSet.ext_mem fun m => ?_
  rw [after.notInBaseline, again]
  constructor
  · rintro ⟨hfailed | habsent, hnot⟩
    · exact absurd ((before.attempted m).1 (.inr hfailed)).2 hnot
    · exact habsent
  · exact fun habsent => ⟨.inr habsent, ((before.notInBaseline m).1 habsent).2⟩

end Classified

theorem classified_of_graph {c : Collaborators} {modules : ModuleSet} {revision : Revision}
    {named : Option Path} {regenerate : Bool} {schedule : Pool.Schedule} {s s' t : Session}
    {b : Baseline} {g : PackageGraph}
    (graph : ∀ t arrival u, arrive c revision t = (.ok arrival, u) → arrival.graph = g)
    (run : prepare c modules revision named regenerate schedule s = (.ok b, s'))
    (opened : BaselineDirectory.opened named revision s = (.ok b.directory, t)) :
    Classified b.dumps (needed t.host b.directory.path modules regenerate) g c.digester.language := by
  rcases arrives_prepare run opened with ⟨hempty, hnone⟩ | ⟨arrival, u, harrive⟩
  · rw [hnone]
    exact classified_none hempty g _
  · rw [← graph t arrival u harrive]
    exact classified_prepare run opened harrive

theorem dumped?_prepare {c : Collaborators} {modules : ModuleSet} {revision : Revision}
    {named : Option Path} {regenerate : Bool} {schedule : Pool.Schedule} {s s' : Session}
    {b : Baseline} (run : prepare c modules revision named regenerate schedule s = (.ok b, s')) :
    ∃ calls, s'.calls = s.calls ++ calls ∧ (calls.filterMap Call.dumped?).Nodup ∧
      ∀ m, m ∈ calls.filterMap Call.dumped? ↔
        m ∈ b.dumps.dumped ∨ m ∈ b.dumps.generationFailures := by
  obtain ⟨t, hopened, -⟩ := prepare_eq_ok.1 run
  have hcalls : t.calls = s.calls := by rw [opened_eq hopened]
  rcases prepare_cases run hopened with ⟨-, hnone, rfl⟩ | ⟨arrival, u, v, harrive, hdumps, rfl⟩
  · refine ⟨[], by rw [hcalls, List.append_nil], List.nodup_nil, fun m => ?_⟩
    simp [hnone, Dumps.none, ModuleSet.not_mem_empty]
  · obtain ⟨-, root, harrived⟩ := arrive_record harrive
    obtain ⟨ds, p, leads, covers, started, hend⟩ := leads_dumpAll hdumps
    have kept := Dumping.kept_of_leads c.digester arrival.plan _ leads
    have counted := counted_afterTasks kept covers started
    have hlast := calls_afterTasks b.directory.path p
    rw [hend] at counted hlast
    have hjobs : (ds.answers.map fun r => Dumping.call b.directory.path r.1.job).filterMap
        Call.dumped? = ds.answers.map fun r => r.1.job := by
      rw [List.filterMap_map, ← List.filterMap_eq_map]
      rfl
    have hall := hlast.trans kept.calls
    rw [harrived, hcalls, List.append_assoc] at hall
    refine ⟨_, hall, ?_, fun m => ?_⟩
    · rw [List.filterMap_append, hjobs]
      exact (covers.orderly (ModuleSet.nodup _)).nodup_jobs
    · rw [List.filterMap_append, hjobs, counted.dumped, counted.generationFailures]
      simp only [Call.dumped?, List.filterMap_cons, List.filterMap_nil, List.nil_append, List.mem_map]
      constructor
      · rintro ⟨r, hr, hj⟩
        by_cases ha : r.2 = .returned (.ok ())
        · exact .inl ⟨r, hr, hj, ha⟩
        · exact .inr ⟨r, hr, hj, ha⟩
      · rintro (⟨r, hr, hj, -⟩ | ⟨r, hr, hj, -⟩)
        · exact ⟨r, hr, hj⟩
        · exact ⟨r, hr, hj⟩

theorem directory_of_opened {path : Path} {revision : Revision} {s t : Session}
    {d : BaselineDirectory} (h : BaselineDirectory.opened (some path) revision s = (.ok d, t)) :
    d = .kept path := by
  unfold BaselineDirectory.opened ExceptT.mk at h
  dsimp only at h
  split at h
  · cases h
    rfl
  · cases h

theorem prepare_idle {c : Collaborators} {modules : ModuleSet} {revision : Revision} {path : Path}
    {regenerate : Bool} {schedule : Pool.Schedule} {s s' : Session} {r : Except Halt Baseline}
    (houses : s.host.Houses path) (idle : (needed s.host path modules regenerate).isEmpty = true)
    (run : prepare c modules revision (some path) regenerate schedule s = (r, s')) : s' = s := by
  rcases hopened : BaselineDirectory.opened (some path) revision s with ⟨e | d, t⟩
  · rw [prepare, Run.bind_of_error hopened] at run
    cases run
    exact opened_there houses hopened
  · obtain rfl := opened_there houses hopened
    have hd := directory_of_opened hopened
    rw [prepare, Run.bind_of_ok hopened, Run.bind_of_ok (Run.get_eq_ok.2 ⟨rfl, rfl⟩), hd] at run
    rw [BaselineDirectory.path, if_pos idle] at run
    exact (Prod.mk.inj run).2.symm

/-- A baseline that is made ready again, in the directory that the first time has left and without
digests being made anew: each module whose dump has failed is dumped once more and no other one, the
same modules are not in the baseline, and no digest of another module changes. If there is nothing to
be made up for, nothing at all is done. -/
theorem prepare_again {c : Collaborators} {modules : ModuleSet} {revision : Revision} {path : Path}
    {g : PackageGraph} {regenerate : Bool} {schedule schedule' : Pool.Schedule} {s s' s'' : Session}
    {b : Baseline} {r : Except Halt Baseline} (respect : c.Respect revision path)
    (makes : MakesDigests c.digester path) (ordinary : s.host.IsOrdinary)
    (identifiers : ∀ m ∈ modules, m.isIdentifier = true)
    (graph : ∀ t arrival u, arrive c revision t = (.ok arrival, u) → arrival.graph = g)
    (free : ∀ d t, BaselineDirectory.opened (some path) revision s = (.ok d, t) →
      ∀ m ∈ modules, t.host.digest? path m ≠ some .directory)
    (first : prepare c modules revision (some path) regenerate schedule s = (.ok b, s'))
    (again : prepare c modules revision (some path) false schedule' s' = (r, s'')) :
    (∀ b', r = .ok b' →
      (∃ calls, s''.calls = s'.calls ++ calls ∧
        (calls.filterMap Call.dumped?).Perm b.dumps.generationFailures.toList) ∧
      b'.dumps.notInBaseline = b.dumps.notInBaseline ∧
      ∀ m : ModuleName, m.isIdentifier = true → m ∉ b.dumps.generationFailures →
        s''.host.digest? path m = s'.host.digest? path m) ∧
    (b.dumps.generationFailures = .empty → b.dumps.notInBaseline = .empty → s'' = s') := by
  obtain ⟨t, hopened, -⟩ := prepare_eq_ok.1 first
  have hpath : b.directory.path = path := congrArg BaselineDirectory.path (directory_of_opened hopened)
  obtain rfl := hpath
  have free' := free _ t hopened
  have housed := houses_opened ordinary hopened
  obtain ⟨houses, -⟩ := leaves_prepare respect housed identifiers first hopened
  have hneeded : ∀ m, m ∈ needed s'.host b.directory.path modules false ↔
      m ∈ b.dumps.generationFailures ∨ m ∈ b.dumps.notInBaseline := fun m =>
    mem_needed_again respect housed identifiers makes first hopened free'
  refine ⟨fun b' hr => ?_, fun hfailed habsent => ?_⟩
  · subst hr
    obtain ⟨u, hreopened, -⟩ := prepare_eq_ok.1 again
    obtain rfl := opened_there houses hreopened
    have hsame : b'.directory = b.directory :=
      (directory_of_opened hreopened).trans (directory_of_opened hopened).symm
    have before := classified_of_graph graph first hopened
    have after := classified_of_graph graph again hreopened
    rw [hsame] at after
    have habsent := before.notInBaseline_again after hneeded
    obtain ⟨calls, hcalls, hnodup, hmem⟩ := dumped?_prepare again
    refine ⟨⟨calls, hcalls, (List.perm_ext_iff_of_nodup hnodup (ModuleSet.nodup _)).2 fun m => ?_⟩,
      habsent, fun m hm hnot => ?_⟩
    · exact (hmem m).trans (before.attempted_again after hneeded m)
    · exact digest?_again respect housed identifiers makes first hopened free' again hreopened
        hsame habsent hm hnot
  · refine prepare_idle houses (ModuleSet.isEmpty_iff.2 fun m hm => ?_) again
    rw [hneeded, hfailed, habsent] at hm
    exact hm.elim (ModuleSet.not_mem_empty m) (ModuleSet.not_mem_empty m)

/-- The dump of one module fails each time, and another one is not in the baseline. -/
theorem prepare_again_failure :
    let c := Rehearsal.collaborators (.failDump .plain ⟨"Bar"⟩) ["Foo", "Bar"] ["Foo", "Bar"]
    let modules : ModuleSet := .ofList [⟨"Foo"⟩, ⟨"Bar"⟩, ⟨"Baz"⟩]
    let s : Session := .ofHost (Rehearsal.machine [(["tmp"], .directory)])
    ∃ b s' b' s'', prepare c modules ⟨"abc123"⟩ (some ⟨"/b"⟩) true (fun _ => 1) s = (.ok b, s') ∧
      prepare c modules ⟨"abc123"⟩ (some ⟨"/b"⟩) false (fun _ => 2) s' = (.ok b', s'') ∧
      (∃ calls, s''.calls = s'.calls ++ calls ∧ calls.filterMap Call.dumped? = [⟨"Bar"⟩]) ∧
      b'.dumps.notInBaseline.toList = [⟨"Baz"⟩] := by
  intro c modules s
  obtain ⟨⟨b, b'⟩, s'', run, hcheck⟩ := Run.exists_of_check (s := s)
    (x := do
      let b ← prepare c modules ⟨"abc123"⟩ (some ⟨"/b"⟩) true fun _ => 1
      let b' ← prepare c modules ⟨"abc123"⟩ (some ⟨"/b"⟩) false fun _ => 2
      return (b, b'))
    (P := fun r _ => decide (r.1.dumps.generationFailures.toList = [⟨"Bar"⟩]) &&
      decide (r.1.dumps.notInBaseline.toList = [⟨"Baz"⟩])) (by decide +kernel)
  simp only [Run.bind_eq_ok, Run.pure_eq_ok, Prod.mk.injEq] at run
  obtain ⟨b, s', first, b', s'', again, ⟨rfl, rfl⟩, rfl⟩ := run
  simp only [Bool.and_eq_true, decide_eq_true_eq] at hcheck
  obtain ⟨hfailed, habsent⟩ := hcheck
  obtain ⟨d, t, hopened, hfree⟩ := Run.exists_of_check (s := s)
    (x := BaselineDirectory.opened (some ⟨"/b"⟩) ⟨"abc123"⟩)
    (P := fun _ t => modules.toList.all fun m => decide (t.host.digest? ⟨"/b"⟩ m ≠ some .directory))
    (by decide +kernel)
  have makes : MakesDigests c.digester ⟨"/b"⟩ := fun m plan h hm _ ended =>
    ⟨_, Rehearsal.ScriptedDigester.digest?_dump _ _ ended⟩
  have graph : ∀ t arrival u, arrive c ⟨"abc123"⟩ t = (.ok arrival, u) →
      arrival.graph = .ofLibraries "demo" ["Foo", "Bar"] := by
    intro t arrival u harrive
    obtain ⟨root, host, hgraph⟩ := arrive_graph harrive
    rw [Rehearsal.graph_collaborators_self] at hgraph
    exact (Except.ok.inj hgraph).symm
  have free : ∀ d t, BaselineDirectory.opened (some ⟨"/b"⟩) ⟨"abc123"⟩ s = (.ok d, t) →
      ∀ m ∈ modules, t.host.digest? ⟨"/b"⟩ m ≠ some .directory := by
    intro d' t' hopened' m hm
    rw [hopened] at hopened'
    cases hopened'
    exact of_decide_eq_true (List.all_eq_true.1 hfree m (ModuleSet.mem_def.1 hm))
  have identifiers : ∀ m ∈ modules.toList, m.isIdentifier = true := by decide +kernel
  obtain ⟨hmended, -⟩ := prepare_again (Rehearsal.respect_collaborators _ _ _ _ _) makes
    (Rehearsal.isOrdinary_machine _) identifiers graph free first again
  obtain ⟨⟨calls, hcalls, hperm⟩, hsame, -⟩ := hmended b' rfl
  rw [hfailed] at hperm
  exact ⟨b, s', b', s'', first, again, ⟨calls, hcalls, List.perm_singleton.1 hperm⟩,
    by rw [hsame, habsent]⟩

end Breakage.Baseline
