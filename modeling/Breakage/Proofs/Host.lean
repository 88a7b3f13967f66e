import Breakage.Host
import Breakage.Proofs.FileTree

/-!
Writing and removing a file, with nothing else done (`Host.Writes`): what is at other places stays
there, and all paths lead where they led before. What is written is read back (`readText_write`), a
file that is removed is gone (`item?_removeFile`), and taking a tree away brings nothing forth
(`item?_of_removeTree`).
-/

namespace Breakage.Host

def place? (h : Host) (path : Path) : Option Place := h.files.place? h.workingDirectory path

def item? (h : Host) (path : Path) : Option FileTree.Entry := (h.place? path).bind h.files.lookup

theorem aim_of_place? {h : Host} {path : Path} {p : Place} (hp : h.place? path = some p) :
    FileTree.aim h.workingDirectory path = p :=
  FileTree.aim_of_place? hp

theorem exists?_eq (h : Host) (path : Path) : h.exists? path = (h.item? path).isSome :=
  FileTree.exists?_eq h.files h.workingDirectory path

structure Writes (path : Path) (h h' : Host) : Prop where
  workingDirectory : h'.workingDirectory = h.workingDirectory
  directories : FileTree.SameDirectories h.files h'.files
  elsewhere : ∀ p, h.place? path ≠ some p → h'.files.lookup p = h.files.lookup p

theorem Writes.place?_eq {path : Path} {h h' : Host} (w : h.Writes path h') (other : Path) :
    h'.place? other = h.place? other := by
  rw [place?, w.workingDirectory]
  exact FileTree.place?_congr w.directories _ other

theorem lookup_removeFile (h : Host) (path : Path) (q : Place) :
    (h.removeFile path).files.lookup q =
      if h.place? path = some q ∧ h.files.isDirectory q = false then none else h.files.lookup q := by
  change (h.files.removeFile h.workingDirectory path).lookup q = _
  rw [FileTree.removeFile_eq, place?]
  cases h.files.place? h.workingDirectory path with
  | none => simp
  | some p =>
    cases hd : h.files.isDirectory p with
    | true =>
      have hq : ¬(some p = some q ∧ h.files.isDirectory q = false) := by
        rintro ⟨hp, hq⟩
        rw [← Option.some.inj hp, hd] at hq
        cases hq
      rw [if_neg hq]
      simp only [hd, if_true]
    | false =>
      simp only [hd, Bool.false_eq_true, if_false]
      rw [FileTree.lookup_erase_of_not_directory hd]
      by_cases hq : q = p
      · subst hq
        rw [if_pos rfl, if_pos ⟨rfl, hd⟩]
      · rw [if_neg hq, if_neg fun hc => hq (Option.some.inj hc.1).symm]

theorem writes_removeFile (h : Host) (path : Path) : h.Writes path (h.removeFile path) := by
  refine ⟨rfl, fun q => ?_, fun q hq => ?_⟩
  · rw [FileTree.isDirectory, lookup_removeFile]
    split
    · rename_i hc
      rw [hc.2]
      rfl
    · rfl
  · rw [lookup_removeFile, if_neg fun hc => hq hc.1]

theorem item?_removeFile {h : Host} {path : Path} {e : FileTree.Entry} :
    (h.removeFile path).item? path = some e ↔ h.item? path = some .directory ∧ e = .directory := by
  unfold item?
  rw [(h.writes_removeFile path).place?_eq]
  cases hp : h.place? path with
  | none => simp
  | some p =>
    rw [Option.bind_some, Option.bind_some, lookup_removeFile, hp, ← FileTree.isDirectory_iff]
    cases hd : h.files.isDirectory p with
    | true =>
      rw [FileTree.isDirectory_iff.1 hd]
      simp [eq_comm]
    | false => simp

theorem write_eq_ok {h h' : Host} {path : Path} {text : String} :
    h.write path text = .ok h' ↔ ∃ p, h.place? path = some p ∧
      FileTree.endsInSlash path = false ∧ h.files.isDirectory p = false ∧
      { h with files := h.files.put p (.file (.text text)) } = h' := by
  have hwrite : h.write path text = .ok h' ↔ ∃ files,
      h.files.write h.workingDirectory path (.text text) = .ok files ∧
        { h with files := files } = h' := by
    unfold write
    cases h.files.write h.workingDirectory path (.text text) <;>
      simp [bind, Except.bind, pure, Except.pure]
  rw [hwrite]
  constructor
  · rintro ⟨files, hfiles, rfl⟩
    obtain ⟨p, hp, hslash, hd, rfl⟩ := FileTree.write_eq_ok.1 hfiles
    exact ⟨p, hp, hslash, hd, rfl⟩
  · rintro ⟨p, hp, hslash, hd, rfl⟩
    exact ⟨_, FileTree.write_eq_ok.2 ⟨p, hp, hslash, hd, rfl⟩, rfl⟩

section

variable {h h' : Host} {path : Path} {text : String} (written : h.write path text = .ok h')
include written

theorem lookup_write {p : Place} (hp : h.place? path = some p) (q : Place) :
    h'.files.lookup q = if q = p then some (.file (.text text)) else h.files.lookup q := by
  obtain ⟨p', hp', -, hd, rfl⟩ := write_eq_ok.1 written
  obtain rfl := Option.some.inj (hp.symm.trans hp')
  exact FileTree.lookup_put_of_not_directory hd _ q

theorem writes_write : h.Writes path h' := by
  obtain ⟨p, hp, -, hd, rfl⟩ := write_eq_ok.1 written
  refine ⟨rfl, FileTree.sameDirectories_put hd _, fun q hq => ?_⟩
  rw [lookup_write written hp, if_neg]
  rintro rfl
  exact hq hp

theorem item?_write : h'.item? path = some (.file (.text text)) := by
  obtain ⟨p, hp, -⟩ := write_eq_ok.1 written
  rw [item?, (writes_write written).place?_eq, hp, Option.bind_some, lookup_write written hp, if_pos rfl]

theorem readText_write : h'.readText path = .ok text :=
  FileTree.readText_eq_ok.2 (item?_write written)

end

theorem files_removeTree (h : Host) (path : Path) :
    (h.removeTree path).files =
      match h.place? path with
      | none => h.files
      | some p => h.files.prune p := by
  unfold removeTree FileTree.removeTree place? FileTree.place?
  cases h.files.locate h.workingDirectory path <;> rfl

theorem lookup_removeTree {h : Host} {tree : Path} {q : Place}
    (apart : ∀ root, h.place? tree = some root → ¬root <+: q) :
    (h.removeTree tree).files.lookup q = h.files.lookup q := by
  rw [files_removeTree]
  cases hroot : h.place? tree with
  | none => rfl
  | some root =>
    by_cases hq : q = []
    · rw [hq]
      rfl
    · change (h.files.prune root).lookup q = _
      rw [FileTree.lookup_prune _ _ _ hq, if_neg]
      rw [List.isPrefixOf_iff_prefix]
      exact apart root hroot

theorem item?_of_removeTree {h : Host} {tree path : Path} {e : FileTree.Entry}
    (he : (h.removeTree tree).item? path = some e) : h.item? path = some e := by
  have hplace : (h.removeTree tree).place? path =
      (h.removeTree tree).files.place? h.workingDirectory path := rfl
  unfold item? at he ⊢
  rw [hplace, files_removeTree] at he
  cases hp : h.place? tree with
  | none =>
    rw [hp] at he
    exact he
  | some p =>
    rw [hp] at he
    exact FileTree.item?_of_prune he

end Breakage.Host
