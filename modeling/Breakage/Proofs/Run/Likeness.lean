import Breakage.Proofs.Run.Digester

/-!
Machines that are the same to one module: they may differ in the digests of other modules, and in
nothing else that the module has to do with (`Host.Alike`). What is asked of digesters that differ in
one module only: a call writes nothing but the digest of its own module (`Digester.WritesOwn`), and for
any other module they do the same on machines that are the same to it (`Digester.AgreesOn`). Main
statement: digesters that follow scripts with the same part for a module agree on it.
-/

namespace Breakage

theorem FileTree.aim_digestPath (here : Place) (directory : Path) {m : ModuleName}
    (hm : m.isIdentifier = true) :
    aim here (m.digestPath directory) = aim here directory ++ [m.text ++ ".json"] := by
  rw [ModuleName.digestPath, aim_join _ _ (plain_digest (ModuleName.plain_of_isIdentifier hm)),
    move_of_ordinary (ordinary_digest m)]

theorem FileTree.aim_digestPath_ne (here : Place) (directory : Path) {m k : ModuleName}
    (hm : m.isIdentifier = true) (hk : k.isIdentifier = true) (different : m ≠ k) :
    aim here (m.digestPath directory) ≠ aim here (k.digestPath directory) := by
  rw [aim_digestPath here directory hm, aim_digestPath here directory hk]
  exact fun h => different (eq_of_digest (List.singleton_inj.1 (List.append_cancel_left h)))

namespace Host

/-- The same machine, but for its files, its clock and the record of what was started. -/
structure SameMachine (h h' : Host) : Prop where
  workingDirectory : h'.workingDirectory = h.workingDirectory
  temporary : h'.temporary = h.temporary
  endings : h'.endings = h.endings
  programs : h'.programs = h.programs

theorem SameMachine.refl (h : Host) : h.SameMachine h := ⟨rfl, rfl, rfl, rfl⟩

theorem SameMachine.symm {h h' : Host} (same : h.SameMachine h') : h'.SameMachine h :=
  ⟨same.workingDirectory.symm, same.temporary.symm, same.endings.symm, same.programs.symm⟩

theorem SameMachine.trans {h h' h'' : Host} (same : h.SameMachine h') (next : h'.SameMachine h'') :
    h.SameMachine h'' :=
  ⟨next.workingDirectory.trans same.workingDirectory, next.temporary.trans same.temporary,
    next.endings.trans same.endings, next.programs.trans same.programs⟩

structure TouchesOnly (path : Path) (h h' : Host) : Prop where
  machine : h.SameMachine h'
  writes : h.Writes path h'

theorem TouchesOnly.refl (path : Path) (h : Host) : h.TouchesOnly path h :=
  ⟨.refl h, rfl, fun _ => rfl, fun _ _ => rfl⟩

theorem touchesOnly_write {h h' : Host} {path : Path} {text : String}
    (hw : h.write path text = .ok h') : h.TouchesOnly path h' := by
  refine ⟨?_, writes_write hw⟩
  obtain ⟨p, -, -, -, rfl⟩ := write_eq_ok.1 hw
  exact ⟨rfl, rfl, rfl, rfl⟩

theorem touchesOnly_removeFile (h : Host) (path : Path) : h.TouchesOnly path (h.removeFile path) :=
  ⟨⟨rfl, rfl, rfl, rfl⟩, h.writes_removeFile path⟩

/-- The machines are the same to the module: they may differ in the digests of other modules. -/
structure Alike (directory : Path) (k : ModuleName) (h h' : Host) : Prop where
  machine : h.SameMachine h'
  directories : FileTree.SameDirectories h.files h'.files
  files : ∀ p, (∀ j : ModuleName, j ≠ k → j.isIdentifier = true →
    FileTree.aim h.workingDirectory (j.digestPath directory) ≠ p) →
      h'.files.lookup p = h.files.lookup p

namespace Alike

variable {directory : Path} {k : ModuleName} {h h' h'' : Host}

theorem refl (directory : Path) (k : ModuleName) (h : Host) : h.Alike directory k h :=
  ⟨.refl h, fun _ => rfl, fun _ _ => rfl⟩

theorem symm (alike : h.Alike directory k h') : h'.Alike directory k h := by
  refine ⟨alike.machine.symm, fun p => (alike.directories p).symm, fun p hp => ?_⟩
  rw [alike.machine.workingDirectory] at hp
  exact (alike.files p hp).symm

theorem trans (alike : h.Alike directory k h') (next : h'.Alike directory k h'') :
    h.Alike directory k h'' := by
  refine ⟨alike.machine.trans next.machine,
    fun p => (next.directories p).trans (alike.directories p), fun p hp => ?_⟩
  rw [next.files p, alike.files p hp]
  rw [alike.machine.workingDirectory]
  exact hp

theorem place?_eq (alike : h.Alike directory k h') (path : Path) : h'.place? path = h.place? path := by
  rw [place?, alike.machine.workingDirectory]
  exact FileTree.place?_congr alike.directories _ path

theorem digest?_eq (alike : h.Alike directory k h') (hk : k.isIdentifier = true) :
    h'.digest? directory k = h.digest? directory k := by
  unfold digest? item?
  rw [alike.place?_eq]
  cases hp : h.place? (k.digestPath directory) with
  | none => rfl
  | some p =>
    refine alike.files p fun j hj hid => ?_
    rw [← aim_of_place? hp]
    exact FileTree.aim_digestPath_ne _ directory hid hk hj

theorem exists?_eq (alike : h.Alike directory k h') (hk : k.isIdentifier = true) :
    h'.exists? (k.digestPath directory) = h.exists? (k.digestPath directory) := by
  rw [exists?_digestPath, exists?_digestPath, alike.digest?_eq hk]

theorem touch (alike : h.Alike directory k h') {j : ModuleName} (hj : j.isIdentifier = true)
    (other : j ≠ k) (touches : h'.TouchesOnly (j.digestPath directory) h'') :
    h.Alike directory k h'' := by
  refine alike.trans ⟨touches.machine, touches.writes.directories, fun p hp => ?_⟩
  refine touches.writes.elsewhere p fun hplace => ?_
  exact hp j other hj (aim_of_place? hplace)

theorem removeFile (alike : h.Alike directory k h') (path : Path) :
    (h.removeFile path).Alike directory k (h'.removeFile path) := by
  refine ⟨⟨alike.machine.workingDirectory, alike.machine.temporary, alike.machine.endings,
    alike.machine.programs⟩, fun p => ?_, fun p hp => ?_⟩
  · rw [(h'.writes_removeFile path).directories, (h.writes_removeFile path).directories,
      alike.directories]
  · rw [lookup_removeFile, lookup_removeFile, alike.place?_eq, alike.directories, alike.files p hp]

theorem removeTree (alike : h.Alike directory k h') (path : Path) :
    (h.removeTree path).Alike directory k (h'.removeTree path) := by
  have hlookup : ∀ p, h'.files.lookup p = h.files.lookup p →
      (h'.removeTree path).files.lookup p = (h.removeTree path).files.lookup p := by
    intro p hp
    rw [files_removeTree, files_removeTree, alike.place?_eq]
    cases h.place? path with
    | none => exact hp
    | some q =>
      by_cases hroot : p = []
      · rw [hroot]
        rfl
      · change (h'.files.prune q).lookup p = (h.files.prune q).lookup p
        rw [FileTree.lookup_prune _ _ _ hroot, FileTree.lookup_prune _ _ _ hroot, hp]
  refine ⟨⟨alike.machine.workingDirectory, alike.machine.temporary, alike.machine.endings,
    alike.machine.programs⟩, fun p => ?_, fun p hp => hlookup p (alike.files p hp)⟩
  rw [files_removeTree, files_removeTree, alike.place?_eq]
  cases h.place? path with
  | none => exact alike.directories p
  | some q =>
    change (h'.files.prune q).isDirectory p = (h.files.prune q).isDirectory p
    have hd := alike.directories p
    unfold FileTree.isDirectory at hd ⊢
    by_cases hroot : p = []
    · rw [hroot]
      rfl
    · rw [FileTree.lookup_prune _ _ _ hroot, FileTree.lookup_prune _ _ _ hroot]
      split
      · rfl
      · exact hd

end Alike

/-- Alike, and the same altogether as long as no digest could have been written. -/
structure Akin (directory : Path) (k : ModuleName) (h h' : Host) : Prop
    extends Alike directory k h h' where
  unreached : (∀ j : ModuleName, j.isIdentifier = true → h.place? (j.digestPath directory) = none) →
    ∀ p, h'.files.lookup p = h.files.lookup p

namespace Akin

variable {directory : Path} {k : ModuleName} {h h' h'' : Host}

theorem refl (directory : Path) (k : ModuleName) (h : Host) : h.Akin directory k h :=
  ⟨.refl directory k h, fun _ _ => rfl⟩

theorem symm (akin : h.Akin directory k h') : h'.Akin directory k h := by
  refine ⟨akin.toAlike.symm, fun none p => (akin.unreached (fun j hj => ?_) p).symm⟩
  rw [← akin.place?_eq]
  exact none j hj

theorem trans (akin : h.Akin directory k h') (next : h'.Akin directory k h'') :
    h.Akin directory k h'' := by
  refine ⟨akin.toAlike.trans next.toAlike, fun none p => ?_⟩
  rw [next.unreached (fun j hj => ?_), akin.unreached none]
  rw [akin.place?_eq]
  exact none j hj

theorem touch (akin : h.Akin directory k h') {j : ModuleName} (hj : j.isIdentifier = true)
    (other : j ≠ k) (touches : h'.TouchesOnly (j.digestPath directory) h'') :
    h.Akin directory k h'' := by
  refine ⟨akin.toAlike.touch hj other touches, fun none p => ?_⟩
  rw [touches.writes.elsewhere p, akin.unreached none]
  rw [akin.place?_eq, none j hj]
  exact nofun

theorem removeDigest (akin : h.Akin directory k h') (hk : k.isIdentifier = true) :
    (h.removeFile (k.digestPath directory)).Akin directory k
      (h'.removeFile (k.digestPath directory)) := by
  refine ⟨akin.toAlike.removeFile _, fun none p => ?_⟩
  have hnone : h.place? (k.digestPath directory) = .none := by
    rw [← (h.writes_removeFile (k.digestPath directory)).place?_eq]
    exact none k hk
  rw [lookup_removeFile, lookup_removeFile, akin.place?_eq, hnone, if_neg nofun, if_neg nofun]
  refine akin.unreached (fun j hj => ?_) p
  rw [← (h.writes_removeFile (k.digestPath directory)).place?_eq]
  exact none j hj

theorem locate_eq (akin : h.Akin directory k h') (hk : k.isIdentifier = true) :
    h'.files.locate h'.workingDirectory (k.digestPath directory) =
      h.files.locate h.workingDirectory (k.digestPath directory) := by
  rw [akin.machine.workingDirectory]
  by_cases none : ∀ j : ModuleName, j.isIdentifier = true →
      h.place? (j.digestPath directory) = none
  · exact FileTree.locate_congr (akin.unreached none) _ _
  · push Not at none
    obtain ⟨j, hj, hreached⟩ := none
    obtain ⟨p, hp⟩ := Option.ne_none_iff_exists'.1 hreached
    exact FileTree.locate_join_congr akin.directories
      (FileTree.plain_digest (ModuleName.plain_of_isIdentifier hj))
      (FileTree.plain_digest (ModuleName.plain_of_isIdentifier hk)) hp

theorem put (akin : h.Akin directory k h') (hk : k.isIdentifier = true) {p : Place}
    (hp : h.place? (k.digestPath directory) = some p) (new : h.files.isDirectory p = false)
    (content : FileTree.Content) :
    Host.Akin directory k { h with files := h.files.put p (.file content) }
      { h' with files := h'.files.put p (.file content) } := by
  have hlookup := FileTree.lookup_put_of_not_directory new (.file content)
  have hlookup' := FileTree.lookup_put_of_not_directory ((akin.directories p).trans new)
    (.file content)
  refine ⟨⟨⟨akin.machine.workingDirectory, akin.machine.temporary, akin.machine.endings,
    akin.machine.programs⟩, fun q => ?_, fun q hq => ?_⟩, fun none => ?_⟩
  · rw [FileTree.isDirectory, FileTree.isDirectory, hlookup, hlookup']
    split
    · rfl
    · exact akin.directories q
  · rw [hlookup, hlookup']
    split
    · rfl
    · exact akin.files q hq
  · have hnone : (h.files.put p (.file content)).place? h.workingDirectory (k.digestPath directory) =
        .none := none k hk
    rw [FileTree.place?_congr (FileTree.sameDirectories_put new content)] at hnone
    cases hp.symm.trans hnone

theorem write (akin : h.Akin directory k h') (hk : k.isIdentifier = true) (text : String) :
    (∃ e, h.write (k.digestPath directory) text = .error e ∧
      h'.write (k.digestPath directory) text = .error e) ∨
    ∃ u u', h.write (k.digestPath directory) text = .ok u ∧
      h'.write (k.digestPath directory) text = .ok u' ∧ u.Akin directory k u' := by
  have hlocate := akin.locate_eq hk
  simp only [Host.write, FileTree.write_eq (FileTree.endsInSlash_digestPath hk directory)]
  rw [hlocate]
  cases hp : h.files.locate h.workingDirectory (k.digestPath directory) with
  | error e => exact .inl ⟨e, rfl, rfl⟩
  | ok p =>
    by_cases hold : h.files.isDirectory p = true
    · simp only [bind, Except.bind, akin.directories p, if_pos hold]
      exact .inl ⟨_, rfl, rfl⟩
    · simp only [bind, Except.bind, akin.directories p, if_neg hold]
      refine .inr ⟨_, _, rfl, rfl, akin.put hk ?_ ?_ (.text text)⟩
      · rw [place?, FileTree.place?, hp]
        rfl
      · exact Bool.not_eq_true _ ▸ hold

end Akin

end Host

namespace Digester

/-- What is called for a module changes nothing but its digest, if anything. -/
structure WritesOwn (g : Digester) : Prop where
  dump : ∀ directory (m : ModuleName) plan (h : Host), m.isIdentifier = true →
    h.TouchesOnly (m.digestPath directory) (g.dump m plan (m.digestPath directory) h).2
  compare : ∀ directory (m : ModuleName) plan allowlist (h : Host), m.isIdentifier = true →
    h.TouchesOnly (m.digestPath directory)
      (g.compare (m.digestPath directory) m plan allowlist h).2

/-- For this module the digesters do the same on machines that are the same to it; comparing is for
modules that have a digest. -/
structure AgreesOn (g g' : Digester) (k : ModuleName) : Prop where
  dump : ∀ directory plan (h h' : Host), h.Akin directory k h' →
    (g.dump k plan (k.digestPath directory) h).1 = (g'.dump k plan (k.digestPath directory) h').1 ∧
      (g.dump k plan (k.digestPath directory) h).2.Akin directory k
        (g'.dump k plan (k.digestPath directory) h').2
  compare : ∀ directory plan allowlist (h h' : Host), h.Alike directory k h' →
    h.exists? (k.digestPath directory) = true →
      (g.compare (k.digestPath directory) k plan allowlist h).1 =
          (g'.compare (k.digestPath directory) k plan allowlist h').1 ∧
        (g.compare (k.digestPath directory) k plan allowlist h).2.Alike directory k
          (g'.compare (k.digestPath directory) k plan allowlist h').2

theorem AgreesOn.self {g g' : Digester} {k : ModuleName} (agrees : g.AgreesOn g' k) :
    g'.AgreesOn g' k := by
  constructor
  · intro directory plan h h' akin
    obtain ⟨hsame, hakin⟩ := agrees.dump directory plan h h (.refl _ _ h)
    obtain ⟨hsame', hakin'⟩ := agrees.dump directory plan h h' akin
    exact ⟨hsame.symm.trans hsame', hakin.symm.trans hakin'⟩
  · intro directory plan allowlist h h' alike present
    obtain ⟨hsame, halike⟩ := agrees.compare directory plan allowlist h h (.refl _ _ h) present
    obtain ⟨hsame', halike'⟩ := agrees.compare directory plan allowlist h h' alike present
    exact ⟨hsame.symm.trans hsame', halike.symm.trans halike'⟩

end Digester

namespace Rehearsal.ScriptedDigester

theorem writesOwn (d : ScriptedDigester) : d.digester.WritesOwn where
  dump directory m plan h hm := by
    rcases d.host_dump m plan (m.digestPath directory) h with hsame | hw
    · rw [hsame]
      exact .refl _ h
    · exact Host.touchesOnly_write hw
  compare directory m _ _ h _ := .refl (m.digestPath directory) h

theorem agreesOn {d d' : ScriptedDigester} {k : ModuleName} (hk : k.isIdentifier = true)
    (comparison : d'.comparison k = d.comparison k)
    (failing : k ∈ d'.failingDumps ↔ k ∈ d.failingDumps)
    (crashing : k ∈ d'.crashingDumps ↔ k ∈ d.crashingDumps) : d.digester.AgreesOn d'.digester k where
  dump directory plan h h' akin := by
    have hdump : (d.dump k (k.digestPath directory) h).1 = (d'.dump k (k.digestPath directory) h').1 ∧
        (d.dump k (k.digestPath directory) h).2.Akin directory k
          (d'.dump k (k.digestPath directory) h').2 := by
      rw [dump, dump]
      simp only [failing]
      split
      · exact ⟨rfl, akin⟩
      · rcases akin.write hk (digest k) with ⟨e, hw, hw'⟩ | ⟨u, u', hw, hw', hu⟩
        · rw [hw, hw']
          exact ⟨rfl, akin⟩
        · rw [hw, hw']
          exact ⟨rfl, hu⟩
    simp only [digester, crashing]
    split
    · exact ⟨rfl, hdump.2⟩
    · exact ⟨congrArg Ending.returned hdump.1, hdump.2⟩
  compare directory _ _ h h' alike _ := ⟨comparison.symm, alike⟩

end Rehearsal.ScriptedDigester

end Breakage
