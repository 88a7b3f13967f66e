import Breakage.Proofs.Directories
import Breakage.Rehearsal.Collaborators

/-!
What is asked of a digester: a dump writes the digest that it is called for, and a comparison leaves
the digests as they are. Main statement: a digester that follows a script does so.
-/

namespace Breakage

theorem ModuleName.not_mem_of_isIdentifier {m : ModuleName} (h : m.isIdentifier = true) {c : Char}
    (hc : isWordChar c = false) : c ∉ m.text.toList := by
  intro hmem
  unfold isIdentifier at h
  split at h
  · cases h
  · rename_i first rest htext
    simp only [Bool.and_eq_true, List.all_eq_true] at h
    rw [htext, List.mem_cons] at hmem
    have hword : isWordChar c = true := by
      rcases hmem with rfl | hrest
      · exact h.1.1
      · exact h.2 _ hrest
    rw [hc] at hword
    cases hword

theorem ModuleName.plain_of_isIdentifier {m : ModuleName} (h : m.isIdentifier = true) :
    '/' ∉ m.text.toList :=
  not_mem_of_isIdentifier h (by decide)

namespace Host

def digest? (h : Host) (directory : Path) (m : ModuleName) : Option FileTree.Entry :=
  h.item? (m.digestPath directory)

theorem exists?_digestPath (h : Host) (directory : Path) (m : ModuleName) :
    h.exists? (m.digestPath directory) = (h.digest? directory m).isSome :=
  h.exists?_eq (m.digestPath directory)

/-- Only the digests of these modules may have changed, in places that are the same as before. -/
structure WritesDigests (directory : Path) (ms : List ModuleName) (h h' : Host) : Prop where
  places : ∀ m : ModuleName, h'.place? (m.digestPath directory) = h.place? (m.digestPath directory)
  elsewhere : ∀ p, (∀ m ∈ ms, h.place? (m.digestPath directory) ≠ some p) →
    h'.files.lookup p = h.files.lookup p

namespace WritesDigests

variable {directory : Path} {ms ms' : List ModuleName} {h h' h'' : Host}

theorem refl (directory : Path) (ms : List ModuleName) (h : Host) : h.WritesDigests directory ms h :=
  ⟨fun _ => rfl, fun _ _ => rfl⟩

theorem trans (w : h.WritesDigests directory ms h') (w' : h'.WritesDigests directory ms h'') :
    h.WritesDigests directory ms h'' := by
  refine ⟨fun m => (w'.places m).trans (w.places m), fun p hp => ?_⟩
  rw [w'.elsewhere p, w.elsewhere p hp]
  intro m hm
  rw [w.places]
  exact hp m hm

theorem mono (w : h.WritesDigests directory ms h') (sub : ∀ m ∈ ms, m ∈ ms') :
    h.WritesDigests directory ms' h' :=
  ⟨w.places, fun p hp => w.elsewhere p fun m hm => hp m (sub m hm)⟩

theorem digest?_eq (w : h.WritesDigests directory ms h') {k : ModuleName}
    (hk : k.isIdentifier = true) (hms : ∀ m ∈ ms, m.isIdentifier = true) (other : k ∉ ms) :
    h'.digest? directory k = h.digest? directory k := by
  unfold digest? item?
  rw [w.places]
  cases hp : h.place? (k.digestPath directory) with
  | none => rfl
  | some p =>
    refine w.elsewhere p fun m hm => ?_
    have hne : k ≠ m := by
      rintro rfl
      exact other hm
    exact FileTree.place?_digestPath_ne (ModuleName.plain_of_isIdentifier hk)
      (ModuleName.plain_of_isIdentifier (hms m hm)) hne hp

end WritesDigests

theorem Writes.digest {directory : Path} {m : ModuleName} {h h' : Host}
    (w : h.Writes (m.digestPath directory) h') : h.WritesDigests directory [m] h' :=
  ⟨fun k => w.place?_eq (k.digestPath directory), fun p hp => w.elsewhere p (hp m (by simp))⟩

end Host

namespace Digester

/-- A dump changes nothing but the digest that it is called for. -/
def DumpsInPlace (g : Digester) (directory : Path) : Prop :=
  ∀ (m : ModuleName) (plan : BuildPlan) (h : Host), m.isIdentifier = true →
    h.WritesDigests directory [m] (g.dump m plan (m.digestPath directory) h).2

/-- Comparing leaves every digest in its place. -/
def KeepsDigests (g : Digester) (directory : Path) : Prop :=
  ∀ baseline m plan allowlist h k,
    (g.compare baseline m plan allowlist h).2.exists? (ModuleName.digestPath k directory) =
      h.exists? (k.digestPath directory)

end Digester

/-! ### Following a script -/

theorem Path.join_ends (base : Path) (tail : String) :
    ∃ front, (base.join tail).text.toList = front ++ tail.toList := by
  unfold join
  split
  · exact ⟨[], rfl⟩
  · split
    · exact ⟨[], rfl⟩
    · exact ⟨_, String.toList_append⟩
    · exact ⟨_, String.toList_append⟩

theorem ModuleName.exists_components_digestPath (m : ModuleName) (directory : Path) :
    ∃ front last, (m.digestPath directory).components = front ++ [last ++ ".json"] ∧
      '/' ∉ last.toList ∧ ('/' ∉ m.text.toList → last = m.text) := by
  by_cases slash : '/' ∈ m.text.toList
  · obtain ⟨after, before, hreverse, hafter⟩ := List.eq_append_cons_of_mem (List.mem_reverse.2 slash)
    have htext : m.text.toList = before.reverse ++ '/' :: after.reverse := by
      rw [← List.reverse_inj, hreverse]
      simp
    obtain ⟨front, hfront⟩ := directory.join_ends (m.text ++ ".json")
    let last := String.ofList after.reverse
    have hlast : '/' ∉ last.toList := by simpa [last] using hafter
    have hpath : (m.digestPath directory).text.toList =
        (front ++ before.reverse) ++ '/' :: (last ++ ".json").toList := by
      rw [digestPath, hfront, String.toList_append, htext]
      simp [last]
    refine ⟨((front ++ before.reverse).splitOn '/').map String.ofList, last, ?_, hlast,
      fun plain => absurd slash plain⟩
    rw [Path.components_of_slash hpath,
      Path.map_splitOn_of_plain (FileTree.plain_digest (m := ⟨last⟩) hlast)]
  · obtain ⟨front, -, hjoin⟩ := directory.components_join (FileTree.plain_digest slash)
    exact ⟨front, m.text, hjoin, slash, fun _ => rfl⟩

namespace FileTree

theorem endsInSlash_digestPath {m : ModuleName} (h : m.isIdentifier = true) (directory : Path) :
    endsInSlash (m.digestPath directory) = false := by
  have hrelative := Path.startsWithSlash_of_plain (plain_digest (ModuleName.plain_of_isIdentifier h))
  rw [endsInSlash, ModuleName.digestPath, Path.join, hrelative, if_neg Bool.false_ne_true]
  split <;> simp [String.toList_append, List.getLast?_cons]

end FileTree

namespace Rehearsal

def machine (entries : List (Place × FileTree.Entry)) : Host where
  files := ⟨entries⟩
  workingDirectory := []
  temporary := ⟨"/tmp"⟩
  endings := ["0", "1"]
  now := ⟨2026, 1, 1, 0, 0, 0, 0⟩
  programs := ⟨fun _ _ _ => some .notFound, fun _ files => (.error .notFound, files)⟩
  invocations := []

theorem isOrdinary_machine (entries : List (Place × FileTree.Entry)) :
    (machine entries).IsOrdinary := by
  have hendings : ∀ ending ∈ ["0", "1"], '/' ∉ ending.toList := by decide
  refine ⟨fun q hq => ?_, hendings⟩
  rw [List.prefix_nil.1 hq]
  rfl

def collaborators (digester : ScriptedDigester) (current baseline : List String) : Collaborators where
  versionControl := Revisions.versionControl ⟨[("main", ⟨"abc123"⟩)]⟩
  buildSystem := FixedPackage.buildSystem
    ⟨⟨"/"⟩, .ofLibraries "demo" current, some (.ofLibraries "demo" baseline), 2, false⟩
  digester := digester.digester

namespace ScriptedDigester

variable (d : ScriptedDigester) (directory : Path)

theorem host_dump (m : ModuleName) (plan : BuildPlan) (output : Path) (h : Host) :
    (d.digester.dump m plan output h).2 = h ∨
      h.write output (digest m) = .ok (d.digester.dump m plan output h).2 := by
  have hdump : (d.digester.dump m plan output h).2 = (d.dump m output h).2 := by
    simp only [digester]
    split <;> rfl
  rw [hdump, dump]
  split
  · exact .inl rfl
  · split
    · rename_i h' hw
      exact .inr hw
    · exact .inl rfl

theorem digest?_dump {m : ModuleName} {plan : BuildPlan} {h : Host}
    (ended : (d.digester.dump m plan (m.digestPath directory) h).1 = .returned (.ok ())) :
    (d.digester.dump m plan (m.digestPath directory) h).2.digest? directory m =
      some (.file (.text (digest m))) := by
  simp only [digester] at ended ⊢
  split at ended
  · cases ended
  · rename_i hcrash
    rw [if_neg hcrash]
    unfold dump at ended ⊢
    split at ended
    · cases ended
    · rename_i hfail
      rw [if_neg hfail]
      split at ended
      · rename_i hw
        exact Host.item?_write hw
      · cases ended

theorem dumpsInPlace : d.digester.DumpsInPlace directory := by
  intro m plan h hm
  rcases d.host_dump m plan (m.digestPath directory) h with hsame | hw
  · rw [hsame]
    exact Host.WritesDigests.refl directory [m] h
  · exact (Host.writes_write hw).digest

theorem keepsDigests : d.digester.KeepsDigests directory := fun _ _ _ _ _ _ => rfl

end ScriptedDigester

end Rehearsal

end Breakage
