import Breakage.Proofs.Directories

/-!
Work that is kept to some trees: whatever else was there before is there still (`Host.Spares`).
Temporary directories are made where nothing was, so that what was there before is still spared when
they are taken away (`Spares.removeTree`).
-/

namespace Breakage

namespace FileTree

/-- What is there is in directories that are there. -/
def IsConnected (t : FileTree) : Prop :=
  ∀ p q e, t.lookup p = some e → q <+: p → ∃ e', t.lookup q = some e'

theorem isConnected_of_shallow {t : FileTree} (h : ∀ e ∈ t.entries, e.1.length ≤ 1) :
    t.IsConnected := by
  intro p q e hp hq
  by_cases hroot : q = []
  · rw [hroot]
    exact ⟨.directory, rfl⟩
  · have hne : p ≠ [] := by
      rintro rfl
      exact hroot (List.prefix_nil.1 hq)
    -- there is nothing between the place and the root
    have hlength : p.length ≤ 1 := by
      rw [lookup, if_neg hne] at hp
      obtain ⟨entry, hfind, -⟩ := Option.map_eq_some_iff.1 hp
      have hplace : entry.1 = p := by simpa using List.find?_some hfind
      rw [← hplace]
      exact h entry (List.mem_of_find?_eq_some hfind)
    have hq' := List.length_pos_iff.2 hroot
    rw [hq.eq_of_length_le (by omega)]
    exact ⟨e, hp⟩

theorem lookup_aim_of_makeDirectory {t u : FileTree} {here : Place} {path : Path}
    (h : t.makeDirectory here path = .ok u) : t.lookup (aim here path) = none := by
  obtain ⟨p, hp, free, -⟩ := makeDirectory_eq_ok.1 h
  rw [aim_of_locateNew hp]
  exact free

end FileTree

def Place.IsOutside (p : Place) (trees : List Place) : Prop := ∀ r ∈ trees, ¬r <+: p

namespace Host

/-- What was there outside the trees is there still. -/
structure Spares (trees : List Place) (h h' : Host) : Prop where
  workingDirectory : h'.workingDirectory = h.workingDirectory
  files : ∀ p e, Place.IsOutside p trees → h.files.lookup p = some e → h'.files.lookup p = some e

def IsClear (h : Host) (trees : List Place) (path : Path) : Prop :=
  ∀ p e, Place.IsOutside p trees → h.files.lookup p = some e →
    ¬FileTree.aim h.workingDirectory path <+: p

variable {trees : List Place} {h h' h'' : Host} {path : Path}

theorem Spares.refl (trees : List Place) (h : Host) : h.Spares trees h := ⟨rfl, fun _ _ _ hp => hp⟩

theorem Spares.trans (first : h.Spares trees h') (next : h'.Spares trees h'') : h.Spares trees h'' :=
  ⟨next.workingDirectory.trans first.workingDirectory,
    fun p e hp he => next.files p e hp (first.files p e hp he)⟩

theorem Spares.makeDirectories (spares : h.Spares trees h') (path : Path) :
    h.Spares trees (h'.makeDirectories path).2 :=
  ⟨spares.workingDirectory,
    fun p e hp he => FileTree.lookup_makeDirectories (spares.files p e hp he)⟩

theorem Spares.removeTree (spares : h.Spares trees h') (clear : h.IsClear trees path) :
    h.Spares trees (h'.removeTree path) := by
  refine ⟨spares.workingDirectory, fun p e hp he => ?_⟩
  rw [files_removeTree]
  cases hq : h'.place? path with
  | none => exact spares.files p e hp he
  | some q =>
    have haim := aim_of_place? hq
    rw [spares.workingDirectory] at haim
    change (h'.files.prune q).lookup p = some e
    rw [FileTree.lookup_prune_of_not_below]
    · exact spares.files p e hp he
    · rw [← haim]
      exact clear p e hp he

theorem Spares.within (spares : h.Spares trees h') (clear : h.IsClear trees path)
    (next : h'.Spares (FileTree.aim h'.workingDirectory path :: trees) h'') :
    h.Spares trees h'' := by
  refine ⟨next.workingDirectory.trans spares.workingDirectory, fun p e hp he => ?_⟩
  refine next.files p e (fun r hr => ?_) (spares.files p e hp he)
  rcases List.mem_cons.1 hr with rfl | hr
  · rw [spares.workingDirectory]
    exact clear p e hp he
  · exact hp r hr

theorem Spares.isClear (spares : h.Spares trees h') (connected : h.files.IsConnected)
    (free : h'.files.lookup (FileTree.aim h'.workingDirectory path) = none) :
    h.IsClear trees path := by
  intro p e hp he hbelow
  obtain ⟨e', he'⟩ := connected p _ e he hbelow
  have houtside : Place.IsOutside (FileTree.aim h.workingDirectory path) trees :=
    fun r hr habove => hp r hr (habove.trans hbelow)
  rw [spares.workingDirectory, spares.files _ e' houtside he'] at free
  cases free

theorem IsClear.join (clear : h.IsClear trees path) {name : String} (plain : '/' ∉ name.toList)
    (ordinary : 2 < name.length) : h.IsClear trees (path.join name) := by
  intro p e hp he hbelow
  refine clear p e hp he (List.IsPrefix.trans ?_ hbelow)
  rw [FileTree.aim_join _ _ plain, FileTree.move_of_ordinary ordinary]
  exact List.prefix_append _ _

theorem Spares.makeTemporary (spares : h.Spares trees h') {stem : String}
    (made : h'.makeTemporary stem = .ok (path, h'')) (connected : h.files.IsConnected) :
    h.Spares trees h'' ∧ h.IsClear trees path := by
  obtain ⟨ending, -, -, files, hmade, rfl⟩ := makeFresh_eq_ok made
  refine ⟨⟨spares.workingDirectory, fun p e hp he => ?_⟩, ?_⟩
  · exact FileTree.lookup_makeDirectory hmade (spares.files p e hp he)
  · exact spares.isClear connected (FileTree.lookup_aim_of_makeDirectory hmade)

end Host

end Breakage
