import Breakage.Proofs.Run.Invariant
import Breakage.Rehearsal.Programs
import Breakage.Tool.Toolchain

/-!
The commands that a run issues, and what their path arguments denote to the programs. A program is
started in a directory of its own, but the paths are handed on as they are written. So a path that is
relative means something else to it, unless that directory is the one of the run (`issued_paths`).
-/

namespace Breakage

def Command.invocation (c : Command) (here : Place) : Invocation where
  program := c.program
  arguments := c.words.tail
  directory := (c.directory.map (FileTree.aim here)).getD here

theorem Command.aim_of_startingPlace {h : Host} {directory : Option Path} {place : Place}
    (hs : startingPlace h directory = .ok place) :
    (directory.map (FileTree.aim h.workingDirectory)).getD h.workingDirectory = place := by
  cases directory with
  | none => exact Except.ok.inj hs
  | some path =>
    rw [startingPlace] at hs
    cases hl : h.files.locate h.workingDirectory path with
    | error e =>
      rw [hl] at hs
      cases hs
    | ok p =>
      simp only [hl, bind, Except.bind] at hs
      refine (FileTree.aim_of_locate hl).trans ?_
      split at hs
      · cases hs
      · cases hs
      · exact Except.ok.inj hs

theorem Command.start_eq_ok {c : Command} {h : Host} {program : String} {rest : List String}
    (hwords : c.words = program :: rest) {i : Invocation} (hs : c.start h program rest = .ok i) :
    i = c.invocation h.workingDirectory := by
  unfold start at hs
  cases hplace : startingPlace h c.directory with
  | error e =>
    simp only [hplace] at hs
    split at hs <;> cases hs
  | ok place =>
    simp only [hplace] at hs
    split at hs
    · cases hs
    · simp only [pure, Except.pure, bind, Except.bind] at hs
      split at hs
      · cases hs
      · cases hs
        rw [invocation, aim_of_startingPlace hplace, Command.program, hwords]
        rfl

/-- From one machine to another, with nothing started in between but what `P` holds of. -/
structure Host.Issued (h : Host) (P : Invocation → Prop) (h' : Host) : Prop where
  workingDirectory : h'.workingDirectory = h.workingDirectory
  temporary : h'.temporary = h.temporary
  invocations : ∀ i ∈ h'.invocations, i ∈ h.invocations ∨ P i

namespace Host.Issued

variable {h h' : Host} {P : Invocation → Prop}

theorem refl (h : Host) (P : Invocation → Prop) : h.Issued P h := ⟨rfl, rfl, fun _ hi => .inl hi⟩

theorem files (issued : h.Issued P h') (files : FileTree) :
    h.Issued P { h' with files := files } :=
  ⟨issued.workingDirectory, issued.temporary, issued.invocations⟩

theorem append (issued : h.Issued P h') {i : Invocation} (hi : P i) :
    h.Issued P { h' with invocations := h'.invocations ++ [i] } where
  workingDirectory := issued.workingDirectory
  temporary := issued.temporary
  invocations j hj := by
    rcases List.mem_append.1 hj with hj | hj
    · exact issued.invocations j hj
    · rw [List.mem_singleton.1 hj]
      exact .inr hi

theorem run (issued : h.Issued P h') {c : Command} (hc : P (c.invocation h.workingDirectory)) :
    h.Issued P (c.run h').2 := by
  unfold Command.run
  split
  · exact issued
  · rename_i program rest hwords
    cases hs : c.start h' program rest with
    | error e => exact issued
    | ok i =>
      have hi := Command.start_eq_ok hwords hs
      rw [issued.workingDirectory] at hi
      have happend := issued.append (i := i) (by rwa [hi])
      dsimp only
      split
      · exact happend.files _
      · split
        · exact happend
        · exact happend.files _

end Host.Issued

/-! ### The tools -/

inductive ToolCall where
  | resolve (treeish : String)
  | clone (destination : Path)
  | checkOut (revision : Revision) (destination : Path)
  | describe (root : Path)
  | build (root : Path)
  | binPath (root : Path)
  | dump (module : ModuleName) (plan : BuildPlan) (output : Path)
  | compare (module : ModuleName) (plan : BuildPlan) (baseline : Path) (allowlist : Option Path)

namespace ToolCall

def command (t : Toolchain) : ToolCall → Command
  | resolve treeish =>
    ⟨["git", "rev-parse", "--verify", "--quiet", treeish ++ "^\x7bcommit\x7d"],
      some t.packagePath, none⟩
  | clone destination =>
    ⟨["git", "clone", "--quiet", "--shared", "--no-checkout", t.packagePath.text, destination.text],
      some t.packagePath, none⟩
  | checkOut revision destination =>
    ⟨["git", "checkout", "--quiet", "--detach", revision.id], some destination, none⟩
  | describe root =>
    ⟨[t.buildTool, "package", "--package-path", root.text, "describe", "--type", "json"],
      some root, none⟩
  | build root =>
    let builder := PackageBuilder.withJobs t.buildTool t.jobs
    ⟨[builder.tool, "build", "--package-path", root.text, "-j", toString builder.jobs],
      some root, none⟩
  | binPath root =>
    ⟨[t.buildTool, "build", "--package-path", root.text, "--show-bin-path"], some root, none⟩
  | dump m plan output =>
    ⟨t.digester :: DigestCommand.dumpArguments m plan output, some plan.packageRoot, t.timeLimit⟩
  | compare m plan baseline allowlist =>
    ⟨t.digester :: DigestCommand.compareArguments baseline m plan allowlist, some plan.packageRoot,
      t.timeLimit⟩

def paths (t : Toolchain) : ToolCall → List Path
  | resolve _ | checkOut _ _ => []
  | clone destination => [t.packagePath, destination]
  | describe root | build root | binPath root => [root]
  | dump _ _ output => [output]
  | compare _ _ baseline allowlist => baseline :: allowlist.toList

theorem mem_arguments_of_mem_paths {t : Toolchain} {c : ToolCall} {a : Path} (h : a ∈ c.paths t)
    (here : Place) : a.text ∈ ((c.command t).invocation here).arguments := by
  cases c with
  | resolve treeish => cases h
  | checkOut revision destination => cases h
  | clone destination =>
    simp only [paths, List.mem_cons, List.not_mem_nil, or_false] at h
    rcases h with rfl | rfl <;> simp [command, Command.invocation]
  | describe root | build root | binPath root =>
    obtain rfl := List.mem_singleton.1 h
    simp [command, Command.invocation]
  | dump m plan output =>
    obtain rfl := List.mem_singleton.1 h
    simp [command, Command.invocation, DigestCommand.dumpArguments]
  | compare m plan baseline allowlist =>
    simp only [paths, List.mem_cons, Option.mem_toList] at h
    rcases h with rfl | h
    · simp [command, Command.invocation, DigestCommand.compareArguments]
    · simp [command, Command.invocation, DigestCommand.compareArguments, h]

/-- A checkout of a run that is started on this machine. -/
def IsCheckout (h : Host) (path : Path) : Prop :=
  ∃ ending, path = (h.temporary.join ("apidiff-checkout-" ++ ending)).join "baseline"

def IsBaseline (options : RunOptions) (h : Host) (path : Path) : Prop :=
  options.baselineDirectory = some path ∨ options.baselineDirectory = none ∧
    ∃ revision ending, path = h.temporary.join (BaselineDirectory.stem revision ++ ending)

/-- The calls that a run can make. -/
def IsOf (t : Toolchain) (options : RunOptions) (h : Host) : ToolCall → Prop
  | resolve treeish => treeish = options.treeish
  | clone destination | checkOut _ destination => IsCheckout h destination
  | describe root | build root | binPath root => root = t.packagePath ∨ IsCheckout h root
  | dump m plan output => IsCheckout h plan.packageRoot ∧
    ∃ directory, IsBaseline options h directory ∧ output = m.digestPath directory
  | compare m plan baseline allowlist => plan.packageRoot = t.packagePath ∧
    allowlist = options.allowlist ∧
    ∃ directory, IsBaseline options h directory ∧ baseline = m.digestPath directory

def Starts (t : Toolchain) (options : RunOptions) (h : Host) (i : Invocation) : Prop :=
  ∃ c : ToolCall, c.IsOf t options h ∧ i = (c.command t).invocation h.workingDirectory

end ToolCall

/-! ### A package and its usual tools -/

namespace Rehearsal

def Rule.printing (program word : String) (v : Json) : Rule :=
  ⟨program, [word], none, v.compact.toUTF8.toList, [], 0, false, true, false⟩

/-- The usual tools, for a package with one library that never changes. Their records are lists of
the fields in order, which keeps the texts short. -/
def libraryScript (package library : String) : Script where
  home := []
  programs := ["git", Toolchain.defaultBuildTool, Toolchain.defaultDigester]
  forbidden := []
  rules :=
    let product := Json.array [.text library, .array [.text library], .record [("library", .null)]]
    let target := Json.array [.text library, .null, .text "library", .text "SwiftTarget"]
    [.printing "git" "rev-parse" (.ofNat 1),
      .printing Toolchain.defaultBuildTool "describe"
        (.array [.text package, .array [product], .array [target]]),
      .printing Toolchain.defaultDigester "compare" (.record [])]

def libraryMachine : Host :=
  { machine [(["tmp"], .directory)] with programs := (libraryScript "demo" "Foo").host }

end Rehearsal

/-! ### The commands of a run -/

namespace Toolchain

variable {t : Toolchain} {options : RunOptions} {h : Host} {root : Path}

theorem issued_git {directory : Path} {arguments : List String} {P : Invocation → Prop}
    (hP : P (Command.invocation ⟨"git" :: arguments, some directory, none⟩ h.workingDirectory))
    {h' : Host} (issued : h.Issued P h') :
    h.Issued P (GitRepository.call directory arguments h').2 := by
  have hrun := issued.run hP
  unfold GitRepository.call
  split <;> rename_i hr <;> rw [hr] at hrun
  · exact hrun
  · split <;> exact hrun

theorem issued_builder {b : PackageBuilder} {arguments : List String} {P : Invocation → Prop}
    (hP : P (Command.invocation ⟨b.tool :: arguments, some root, none⟩ h.workingDirectory))
    {h' : Host} (issued : h.Issued P h') : h.Issued P (b.call root arguments h').2 := by
  have hrun := issued.run hP
  unfold PackageBuilder.call
  split <;> rename_i hr <;> rw [hr] at hrun
  · exact hrun
  · split <;> exact hrun

theorem issued_digester {d : DigestCommand} {m : ModuleName} {plan : BuildPlan}
    {arguments : List String} {P : Invocation → Prop}
    (hP : P (Command.invocation ⟨d.program :: arguments, some plan.packageRoot, d.limit⟩
      h.workingDirectory))
    {h' : Host} (issued : h.Issued P h') : h.Issued P (d.call m plan arguments h').2 := by
  have hrun := issued.run hP
  unfold DigestCommand.call
  split <;> rename_i hr <;> rw [hr] at hrun <;> exact hrun

theorem keeps_resolve : ((GitRepository.mk t.packagePath).resolve options.treeish).Keeps
    (h.Issued (ToolCall.Starts t options h)) fun _ => True := by
  intro h' issued
  refine ⟨?_, fun _ _ => trivial⟩
  have hcall := issued_git ⟨.resolve options.treeish, rfl, rfl⟩ issued
  unfold GitRepository.resolve
  split <;> rename_i hr <;> rw [hr] at hcall
  · exact hcall
  · split <;> exact hcall

theorem keeps_checkOut {revision : Revision} {destination : Path}
    (hd : ToolCall.IsCheckout h destination) :
    ((GitRepository.mk t.packagePath).checkOut revision destination).Keeps
      (h.Issued (ToolCall.Starts t options h)) (ToolCall.IsCheckout h) := by
  intro h' issued
  have hclone := issued_git ⟨.clone destination, hd, rfl⟩ issued
  unfold GitRepository.checkOut
  dsimp only
  split <;> rename_i hr <;> rw [hr] at hclone
  · exact ⟨hclone, nofun⟩
  · have hcheckOut := issued_git ⟨.checkOut revision destination, hd, rfl⟩ hclone
    split <;> rename_i hr <;> rw [hr] at hcheckOut
    · exact ⟨hcheckOut, nofun⟩
    · exact ⟨hcheckOut, fun _ ha => Except.ok.inj ha ▸ hd⟩

theorem keeps_graph (hroot : root = t.packagePath ∨ ToolCall.IsCheckout h root) :
    ((PackageBuilder.withJobs t.buildTool t.jobs).graph root).Keeps
      (h.Issued (ToolCall.Starts t options h)) fun _ => True := by
  intro h' issued
  refine ⟨?_, fun _ _ => trivial⟩
  have hcall := issued_builder (b := .withJobs t.buildTool t.jobs)
    ⟨.describe root, hroot, rfl⟩ issued
  unfold PackageBuilder.graph
  split <;> rename_i hr <;> rw [hr] at hcall <;> exact hcall

theorem keeps_build (hroot : root = t.packagePath ∨ ToolCall.IsCheckout h root) :
    ((PackageBuilder.withJobs t.buildTool t.jobs).build root).Keeps
      (h.Issued (ToolCall.Starts t options h)) fun plan => plan.packageRoot = root := by
  intro h' issued
  have hbuild := issued_builder (b := .withJobs t.buildTool t.jobs)
    ⟨.build root, hroot, rfl⟩ issued
  unfold PackageBuilder.build
  split <;> rename_i hr <;> rw [hr] at hbuild
  · exact ⟨hbuild, nofun⟩
  · have hbin := issued_builder (b := .withJobs t.buildTool t.jobs)
      ⟨.binPath root, hroot, rfl⟩ hbuild
    split <;> rename_i hr <;> rw [hr] at hbin
    · exact ⟨hbin, nofun⟩
    · exact ⟨hbin, fun _ ha => Except.ok.inj ha ▸ rfl⟩

theorem dump_snd (d : DigestCommand) (m : ModuleName) (plan : BuildPlan) (output : Path)
    (h : Host) : (d.digester.dump m plan output h).2 =
      (d.call m plan (DigestCommand.dumpArguments m plan output) h).2 := by
  change (d.dump m plan output h).2 = _
  unfold DigestCommand.dump
  split <;> rename_i hr <;> rw [hr]
  split <;> rfl

theorem compare_snd (d : DigestCommand) (baseline : Path) (m : ModuleName) (plan : BuildPlan)
    (allowlist : Option Path) (h : Host) : (d.digester.compare baseline m plan allowlist h).2 =
      (d.call m plan (DigestCommand.compareArguments baseline m plan allowlist) h).2 := by
  change (d.compare baseline m plan allowlist h).2 = _
  unfold DigestCommand.compare
  split <;> rename_i hr <;> rw [hr]
  split <;> rfl

theorem upholds_engine (t : Toolchain) (options : RunOptions) (h : Host) :
    t.engine.Upholds options (h.Issued (ToolCall.Starts t options h)) (ToolCall.IsCheckout h)
      (ToolCall.IsBaseline options h) where
  files _ files issued := issued.files files
  named _ hnamed := .inl hnamed
  temporary hnone revision h' path h'' issued hmade := by
    obtain ⟨ending, -, rfl, -⟩ := Host.makeFresh_eq_ok hmade
    rw [issued.temporary]
    exact .inr ⟨hnone, revision, ending, rfl⟩
  opened h' path h'' issued hmade := by
    obtain ⟨ending, -, rfl, -⟩ := Host.makeFresh_eq_ok hmade
    rw [issued.temporary]
    exact ⟨ending, rfl⟩
  resolve := keeps_resolve
  checkOut _ _ hd := keeps_checkOut hd
  graph _ hroot := keeps_graph hroot
  build _ hroot := keeps_build hroot
  dump m plan path h' hroot hpath issued := by
    change h.Issued _ ((DigestCommand.mk t.digester t.timeLimit).digester.dump m plan _ h').2
    rw [dump_snd]
    exact issued_digester ⟨.dump m plan (m.digestPath path), ⟨hroot, path, hpath, rfl⟩, rfl⟩ issued
  compare m plan path h' hroot hpath issued := by
    change h.Issued _ ((DigestCommand.mk t.digester t.timeLimit).digester.compare _ m plan _ h').2
    rw [compare_snd]
    exact issued_digester ⟨.compare m plan (m.digestPath path) options.allowlist,
      ⟨hroot, rfl, path, hpath, rfl⟩, rfl⟩ issued

/-- Every program that a run starts is started by a known call, in the directory of that call. Each of
its paths denotes to the program what it denotes to the run if it is absolute or the two directories
are the same. A relative path that does not lead up denotes something else in all other cases. So all
paths keep their meaning if those of the user and of temporary files are absolute, or the package is in
the directory of the run and the baseline directory is absolute. -/
theorem issued_paths (t : Toolchain) (timing : Timing) (options : RunOptions) (h : Host) :
    let last := (t.engine.run timing options (.ofHost h)).2.host
    let here := h.workingDirectory
    last.workingDirectory = here ∧ ∀ i ∈ last.invocations, i ∈ h.invocations ∨
      ∃ c : ToolCall, c.IsOf t options h ∧ i = (c.command t).invocation here ∧
        ∀ a ∈ c.paths t, a.text ∈ i.arguments ∧
          let same := FileTree.aim i.directory a = FileTree.aim here a
          (∀ (files : FileTree) p q, files.locate i.directory a = .ok p →
            files.locate here a = .ok q → (p = q ↔ same)) ∧
          (a.isAbsolute = true ∨ i.directory = here → same) ∧
          (".." ∉ a.components → same → a.isAbsolute = true ∨ i.directory = here) ∧
          (h.temporary.isAbsolute = true →
            (∀ path, options.baselineDirectory = some path → path.isAbsolute = true) →
            (t.packagePath.isAbsolute = true ∧
                (∀ path, options.allowlist = some path → path.isAbsolute = true) ∨
              FileTree.aim here t.packagePath = here) → same) := by
  intro last here
  have hlast : h.Issued (ToolCall.Starts t options h) last :=
    (Engine.keeps_run (upholds_engine t options h) timing (.ofHost h) (.refl h _)).1
  refine ⟨hlast.workingDirectory, fun i hi => (hlast.invocations i hi).imp_right ?_⟩
  rintro ⟨c, hc, rfl⟩
  refine ⟨c, hc, rfl, fun a ha => ⟨c.mem_arguments_of_mem_paths ha here, ?_⟩⟩
  intro same
  have hsame : a.isAbsolute = true ∨ ((c.command t).invocation here).directory = here → same := by
    rintro (habsolute | hdirectory)
    · exact FileTree.aim_of_isAbsolute habsolute _ _
    · exact congrArg (FileTree.aim · a) hdirectory
  refine ⟨fun files p q hp hq => ?_, hsame, fun down hs => (FileTree.aim_eq_iff down _ _).1 hs,
    fun htemporary hbaseline huser => hsame ?_⟩
  · rw [← FileTree.aim_of_locate hp, ← FileTree.aim_of_locate hq]
  -- what a run makes for itself lies among the temporary files
  have hcheckout : ∀ path, ToolCall.IsCheckout h path → path.isAbsolute = true := by
    rintro _ ⟨ending, rfl⟩
    exact Path.isAbsolute_join_of_isAbsolute (Path.isAbsolute_join_of_isAbsolute htemporary _) _
  have hdigest : ∀ path, ToolCall.IsBaseline options h path → ∀ m : ModuleName,
      (m.digestPath path).isAbsolute = true := by
    rintro path (hnamed | ⟨-, revision, ending, rfl⟩) m
    · exact Path.isAbsolute_join_of_isAbsolute (hbaseline path hnamed) _
    · exact Path.isAbsolute_join_of_isAbsolute (Path.isAbsolute_join_of_isAbsolute htemporary _) _
  have hpackage : t.packagePath.isAbsolute = true ∨ FileTree.aim here t.packagePath = here :=
    huser.imp_left And.left
  cases c with
  | resolve treeish => cases ha
  | checkOut revision destination => cases ha
  | clone destination =>
    simp only [ToolCall.paths, List.mem_cons, List.not_mem_nil, or_false] at ha
    rcases ha with rfl | rfl
    · exact hpackage
    · exact .inl (hcheckout _ hc)
  | describe root | build root | binPath root =>
    obtain rfl := List.mem_singleton.1 ha
    rcases hc with rfl | hc
    · exact hpackage
    · exact .inl (hcheckout _ hc)
  | dump m plan output =>
    obtain rfl := List.mem_singleton.1 ha
    obtain ⟨-, path, hpath, rfl⟩ := hc
    exact .inl (hdigest path hpath m)
  | compare m plan baseline allowlist =>
    obtain ⟨hroot, rfl, path, hpath, rfl⟩ := hc
    simp only [ToolCall.paths, List.mem_cons, Option.mem_toList] at ha
    rcases ha with rfl | ha
    · exact .inl (hdigest path hpath m)
    · rcases huser with ⟨-, hallowlist⟩ | hdirectory
      · exact .inl (hallowlist a ha)
      · -- a comparison is started in the package
        right
        change FileTree.aim here plan.packageRoot = here
        rw [hroot, hdirectory]

/-- The usual run in the directory of the package, by which a digest is dumped and compared. -/
theorem issued_paths_usual :
    let t := usual 1
    let host := Rehearsal.libraryMachine
    ∃ report s', t.engine.run .plain (.ofTreeish "main") (.ofHost host) = (.ok report, s') ∧
      ⟨"Foo"⟩ ∈ report.outcome.succeeded ∧
      ∀ i ∈ s'.host.invocations, ∃ c : ToolCall, i = (c.command t).invocation host.workingDirectory ∧
        ∀ a ∈ c.paths t, a.text ∈ i.arguments ∧
          FileTree.aim i.directory a = FileTree.aim host.workingDirectory a := by
  intro t host
  obtain ⟨report, s', hrun, hcheck⟩ := Run.exists_of_check
    (x := t.engine.run .plain (.ofTreeish "main")) (s := .ofHost host)
    (P := fun report _ => decide (⟨"Foo"⟩ ∈ report.outcome.succeeded)) (by decide +kernel)
  refine ⟨report, s', hrun, of_decide_eq_true hcheck, fun i hi => ?_⟩
  obtain ⟨-, hissued⟩ := issued_paths t .plain (.ofTreeish "main") host
  rw [hrun] at hissued
  obtain ⟨c, -, hstart, hpaths⟩ := (hissued i hi).resolve_left List.not_mem_nil
  refine ⟨c, hstart, fun a ha => ?_⟩
  obtain ⟨hin, -, -, -, hsame⟩ := hpaths a ha
  exact ⟨hin, hsame (by decide) nofun (.inr (by decide))⟩

/-- With a relative baseline directory the digest is dumped where nobody looks for it, and so its
module counts as absent. -/
theorem issued_paths_relative :
    let t := usual 1
    let options := { RunOptions.ofTreeish "main" with baselineDirectory := some ⟨"b"⟩ }
    let host := Rehearsal.libraryMachine
    ∃ report s', t.engine.run .plain options (.ofHost host) = (.ok report, s') ∧
      (∃ i ∈ s'.host.invocations, i.program = t.digester ∧ "b/Foo.json" ∈ i.arguments ∧
        FileTree.aim i.directory ⟨"b/Foo.json"⟩ ≠
          FileTree.aim host.workingDirectory ⟨"b/Foo.json"⟩) ∧
      ⟨"Foo"⟩ ∈ report.baseline.dumps.dumped ∧
      report.outcome.skipped.get? ⟨"Foo"⟩ = some .notInBaseline ∧ report.verdict.passed = true := by
  intro t options host
  obtain ⟨report, s', hrun, hcheck⟩ := Run.exists_of_check (x := t.engine.run .plain options)
    (s := .ofHost host)
    (P := fun report s =>
      s.host.invocations.any (fun i => decide (i.program = t.digester) &&
        decide ("b/Foo.json" ∈ i.arguments) &&
        decide (FileTree.aim i.directory ⟨"b/Foo.json"⟩ ≠
          FileTree.aim host.workingDirectory ⟨"b/Foo.json"⟩)) &&
      decide (⟨"Foo"⟩ ∈ report.baseline.dumps.dumped) &&
      decide (report.outcome.skipped.get? ⟨"Foo"⟩ = some .notInBaseline) && report.verdict.passed)
    (by decide +kernel)
  simp only [Bool.and_eq_true, decide_eq_true_eq, List.any_eq_true] at hcheck
  obtain ⟨⟨⟨⟨i, hi, ⟨hprogram, hargument⟩, haim⟩, hdumped⟩, hskipped⟩, hpassed⟩ := hcheck
  exact ⟨report, s', hrun, ⟨i, hi, hprogram, hargument, haim⟩, hdumped, hskipped, hpassed⟩

end Toolchain

end Breakage
