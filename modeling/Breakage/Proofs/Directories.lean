import Breakage.Proofs.Host
import Mathlib.Data.List.Induction

/-!
Directories that are made and taken away. Where a path leads does not depend on the tree, if it can be
followed at all (`walk_unique`), so that a tree below a place where there was no directory can be taken
away and the ways that were there before stay open (`walk_prune`). What is made is a directory then
(`item?_makeDirectories`), in a place that was empty (`makeTemporary_eq_ok`).
-/

namespace Breakage

namespace FileTree

/-! ### On the way -/

/-- The place and all above it are directories. -/
def Grounded (t : FileTree) (p : Place) : Prop := ∀ q, q <+: p → t.isDirectory q = true

theorem Grounded.mono {t u : FileTree} (h : ∀ p, t.isDirectory p = true → u.isDirectory p = true)
    {p : Place} (ground : t.Grounded p) : u.Grounded p :=
  fun q hq => h q (ground q hq)

theorem Grounded.start {t : FileTree} {here : Place} (ground : t.Grounded here) (path : Path) :
    t.Grounded (start here path) := by
  unfold FileTree.start
  split
  · intro q hq
    rw [List.prefix_nil.1 hq]
    rfl
  · exact ground

theorem Grounded.not_below {t : FileTree} {p q : Place} (ground : t.Grounded p)
    (free : t.isDirectory q = false) : ¬q <+: p := by
  intro hq
  rw [ground q hq] at free
  cases free

theorem isDirectory_of_step {t : FileTree} {here next : Place} {name : String}
    (h : t.step here name = .ok next) : t.isDirectory here = true := by
  rw [isDirectory_iff]
  unfold step at h
  split at h
  · cases h
  · cases h
  · assumption

theorem step_congr {t u : FileTree} {here : Place} (ht : t.isDirectory here = true)
    (hu : u.isDirectory here = true) (name : String) : u.step here name = t.step here name := by
  rw [isDirectory_iff] at ht hu
  rw [step, step, ht, hu]

theorem locate_join_congr {t u : FileTree} (same : SameDirectories t u) {here p : Place}
    {base : Path} {found name : String} (plain : '/' ∉ found.toList) (plain' : '/' ∉ name.toList)
    (h : t.place? here (base.join found) = some p) :
    u.locate here (base.join name) = t.locate here (base.join name) := by
  have hwalk := (place?_eq_some_iff.1 h).2
  rw [walk_join t here base plain] at hwalk
  cases hd : t.walk (start here base) base.components with
  | error e =>
    rw [hd] at hwalk
    cases hwalk
  | ok d =>
    rw [hd] at hwalk
    have hdirectory : t.isDirectory d = true := isDirectory_of_step hwalk
    have hd' : u.walk (start here base) base.components = .ok d :=
      walk_mono (fun q hq => (same q).trans hq) hd
    rw [locate, locate, walk_join u here base plain', walk_join t here base plain', hd, hd']
    simp only [bind, Except.bind, step_congr hdirectory ((same d).trans hdirectory)]

theorem walk_unique {t u : FileTree} {here p q : Place} {names : List String}
    (ht : t.walk here names = .ok p) (hu : u.walk here names = .ok q) : q = p := by
  induction names generalizing here with
  | nil =>
    rw [← Except.ok.inj ht]
    exact (Except.ok.inj hu).symm
  | cons name rest ih =>
    obtain ⟨a, hta, ht⟩ := walk_cons_eq_ok.1 ht
    obtain ⟨b, hub, hu⟩ := walk_cons_eq_ok.1 hu
    rw [step_congr (isDirectory_of_step hta) (isDirectory_of_step hub), hta] at hub
    cases hub
    exact ih ht hu

theorem Grounded.step {t : FileTree} {here next : Place} {name : String} (ground : t.Grounded here)
    (hs : t.step here name = .ok next) (hd : t.isDirectory next = true) : t.Grounded next := by
  unfold FileTree.step at hs
  split at hs
  · cases hs
  · cases hs
  · split at hs
    · cases hs
      exact ground
    · split at hs
      · cases hs
        exact fun q hq => ground q (hq.trans (List.dropLast_prefix here))
      · split at hs
        · cases hs
        · cases hs
          intro q hq
          rcases List.prefix_concat_iff.1 hq with rfl | hq
          · exact hd
          · exact ground q hq

theorem isDirectory_of_walk {t : FileTree} {here last : Place} {names : List String}
    (hw : t.walk here names = .ok last) (hd : t.isDirectory last = true) :
    t.isDirectory here = true := by
  cases names with
  | nil =>
    cases hw
    exact hd
  | cons name rest =>
    obtain ⟨next, hs, -⟩ := walk_cons_eq_ok.1 hw
    exact isDirectory_of_step hs

theorem Grounded.walk {t : FileTree} {here last : Place} {names : List String}
    (ground : t.Grounded here) (hw : t.walk here names = .ok last) (hd : t.isDirectory last = true) :
    t.Grounded last := by
  induction names generalizing here with
  | nil =>
    cases hw
    exact ground
  | cons name rest ih =>
    obtain ⟨next, hs, hw⟩ := walk_cons_eq_ok.1 hw
    exact ih (ground.step hs (isDirectory_of_walk hw hd)) hw

theorem lookup_prune_of_not_below {t : FileTree} {p q : Place} (h : ¬p <+: q) :
    (t.prune p).lookup q = t.lookup q := by
  by_cases hq : q = []
  · subst hq
    rfl
  · rw [lookup_prune t p q hq, if_neg]
    rwa [List.isPrefixOf_iff_prefix]

theorem walk_prune {t u : FileTree} {here last p q : Place} {names : List String}
    (free : t.isDirectory q = false) (ground : t.Grounded here) (ht : t.walk here names = .ok last)
    (hd : t.isDirectory last = true) (hu : u.walk here names = .ok p) :
    (u.prune q).walk here names = .ok p := by
  induction names generalizing here with
  | nil => exact hu
  | cons name rest ih =>
    obtain ⟨a, hta, ht⟩ := walk_cons_eq_ok.1 ht
    obtain ⟨b, hub, hu⟩ := walk_cons_eq_ok.1 hu
    -- a directory that the first tree has is not below the place, so it stays in the second one
    have hhere : (u.prune q).isDirectory here = true := by
      rw [isDirectory, lookup_prune_of_not_below (ground.not_below free)]
      exact isDirectory_of_step hub
    have hsame := step_congr (isDirectory_of_step hta) (isDirectory_of_step hub) name
    rw [hsame, hta] at hub
    cases hub
    refine walk_cons_eq_ok.2 ⟨a, ?_, ih (ground.step hta (isDirectory_of_walk ht hd)) ht hu⟩
    rw [step_congr (isDirectory_of_step hta) hhere, hta]

theorem place?_prune {t u : FileTree} {here d q : Place} {base : Path} {name : String}
    (plain : '/' ∉ name.toList) (free : t.isDirectory q = false) (ground : t.Grounded here)
    (ht : t.walk (start here base) base.components = .ok d) (hd : t.isDirectory d = true) :
    (u.prune q).place? here (base.join name) = u.place? here (base.join name) := by
  ext p
  constructor
  · exact place?_mono fun r hr => isDirectory_iff.2 (lookup_of_prune (isDirectory_iff.1 hr))
  · -- the ways in both trees lead to one directory, from which there is one more step
    intro hp
    obtain ⟨htext, hw⟩ := place?_eq_some_iff.1 hp
    refine place?_eq_some_iff.2 ⟨htext, ?_⟩
    rw [walk_join _ here base plain] at hw ⊢
    cases hu : u.walk (start here base) base.components with
    | error e =>
      rw [hu] at hw
      cases hw
    | ok d' =>
      obtain rfl := walk_unique ht hu
      rw [walk_prune free (ground.start base) ht hd hu]
      rw [hu] at hw
      have hstep : u.step d' name = .ok p := hw
      have hdirectory : (u.prune q).isDirectory d' = true := by
        rw [isDirectory, lookup_prune_of_not_below
          (((ground.start base).walk ht hd).not_below free)]
        exact isDirectory_of_step hstep
      exact (step_congr (isDirectory_of_step hstep) hdirectory name).trans hstep

/-- What is in a directory stays there when a tree is taken away where there was no directory. -/
theorem item?_prune {t u : FileTree} {here d q : Place} {base : Path} {name : String}
    (plain : '/' ∉ name.toList) (ordinary : 2 < name.length) (free : t.isDirectory q = false)
    (ground : t.Grounded here) (ht : t.walk (start here base) base.components = .ok d)
    (hd : t.isDirectory d = true) (other : ∀ c, q ≠ c ++ [name]) :
    (u.prune q).item? here (base.join name) = u.item? here (base.join name) := by
  rw [item?, item?, place?_prune plain free ground ht hd]
  cases hp : u.place? here (base.join name) with
  | none => rfl
  | some p =>
    obtain ⟨d', hd', rfl⟩ := place?_join plain ordinary hp
    obtain rfl := walk_unique ht hd'
    apply lookup_prune_of_not_below
    intro hq
    rcases List.prefix_concat_iff.1 hq with h | h
    · exact other d' h
    · exact ((ground.start base).walk ht hd).not_below free h

/-! ### Making directories -/

theorem makeDirectory_eq_ok {t u : FileTree} {here : Place} {path : Path} :
    t.makeDirectory here path = .ok u ↔
      ∃ p, t.locateNew here path = .ok p ∧ t.lookup p = none ∧ u = t.put p .directory := by
  unfold makeDirectory
  cases t.locateNew here path with
  | error e => simp [bind, Except.bind]
  | ok p =>
    cases hp : t.lookup p with
    | some e => simp [bind, Except.bind, hp]
    | none => simp [bind, Except.bind, hp, eq_comm]

theorem isDirectory_put {t : FileTree} {p : Place} (free : t.lookup p = none) (q : Place) :
    (t.put p .directory).isDirectory q = (decide (q = p) || t.isDirectory q) := by
  have hp : p ≠ [] := by
    rintro rfl
    cases free
  by_cases hq : q = []
  · subst hq
    simp [isDirectory, lookup]
  · rw [isDirectory, lookup_put t p q _ hq]
    by_cases h : q = p
    · simp [h]
    · simp [h, isDirectory]

theorem lookup_makeDirectory {t u : FileTree} {here : Place} {path : Path}
    (h : t.makeDirectory here path = .ok u) {q : Place} {e : Entry} (hq : t.lookup q = some e) :
    u.lookup q = some e := by
  obtain ⟨p, -, free, rfl⟩ := makeDirectory_eq_ok.1 h
  by_cases hroot : q = []
  · subst hroot
    exact hq
  · rw [lookup_put t p q _ hroot, if_neg]
    · exact hq
    · rintro rfl
      rw [free] at hq
      cases hq

theorem isDirectory_makeDirectory {t u : FileTree} {here : Place} {path : Path}
    (h : t.makeDirectory here path = .ok u) {q : Place} (hq : t.isDirectory q = true) :
    u.isDirectory q = true :=
  isDirectory_iff.2 (lookup_makeDirectory h (isDirectory_iff.1 hq))

theorem withoutEnd_concat (front : List String) {name : String} (h : name ≠ "") :
    withoutEnd (front ++ [name]) = front ++ [name] := by
  rw [withoutEnd, List.reverse_append, List.reverse_singleton, List.singleton_append,
    List.dropWhile_cons_of_neg (by simpa using h), ← List.singleton_append, List.reverse_append,
    List.reverse_reverse]
  rfl

theorem withoutEnd_join (base : Path) {name : String} (plain : '/' ∉ name.toList) (h : name ≠ "") :
    withoutEnd (base.join name).components = (base.join name).components := by
  obtain ⟨front, -, hjoin⟩ := base.components_join plain
  rw [hjoin, withoutEnd_concat front h]

theorem walk_concat_empty {t : FileTree} {here p : Place} {names : List String}
    (hw : t.walk here names = .ok p) (hd : t.isDirectory p = true) :
    t.walk here (names ++ [""]) = .ok p := by
  rw [walk_append, hw]
  change t.walk p [""] = .ok p
  rw [walk_singleton, step, isDirectory_iff.1 hd]
  rfl

theorem walk_of_withoutEnd {t : FileTree} {here p : Place} {names : List String}
    (hw : t.walk here (withoutEnd names) = .ok p) (hd : t.isDirectory p = true) :
    t.walk here names = .ok p := by
  induction names using List.reverseRecOn with
  | nil => exact hw
  | append_singleton front name ih =>
    by_cases hname : name = ""
    · subst hname
      have hsame : withoutEnd (front ++ [""]) = withoutEnd front := by simp [withoutEnd]
      rw [hsame] at hw
      exact walk_concat_empty (ih hw) hd
    · rwa [withoutEnd_concat front hname] at hw

theorem item?_makeDirectory {t u : FileTree} {here : Place} {path : Path}
    (h : t.makeDirectory here path = .ok u) : u.item? here path = some .directory := by
  obtain ⟨p, hp, free, hu⟩ := makeDirectory_eq_ok.1 h
  have hd : u.isDirectory p = true := by simp [hu, isDirectory_put free]
  have hplace : u.place? here path = some p := by
    unfold locateNew at hp
    split at hp
    · cases hp
    · rename_i htext
      refine place?_eq_some_iff.2 ⟨htext, walk_of_withoutEnd ?_ hd⟩
      exact walk_mono (fun q hq => isDirectory_makeDirectory h hq) hp
  rw [item?, hplace]
  exact isDirectory_iff.1 hd

theorem unlessDirectory_eq_ok {t u : FileTree} {here : Place} {path : Path} {e : OsError} {x : Unit}
    (h : t.unlessDirectory here path e = (.ok x, u)) :
    u.item? here path = some .directory := by
  unfold unlessDirectory at h
  split at h
  · rename_i hstatus
    cases h
    unfold status at hstatus
    unfold item? place?
    cases hl : t.locate here path with
    | error e => simp [hl, bind, Except.bind] at hstatus
    | ok p =>
      cases hp : t.lookup p with
      | none => simp [hl, hp, bind, Except.bind] at hstatus
      | some e =>
        simp only [hl, hp, bind, Except.bind] at hstatus
        cases hstatus
        exact hp
  · cases h

theorem unlessDirectory_snd (t : FileTree) (here : Place) (path : Path) (e : OsError) :
    (t.unlessDirectory here path e).2 = t := by
  unfold unlessDirectory
  split <;> rfl

theorem item?_makeAbove {t u : FileTree} {here : Place} {absolute : Bool} {path : Path}
    {names : List String} (h : t.makeAbove here absolute path names = (.ok (), u)) :
    u.item? here path = some .directory := by
  cases names with
  | nil =>
    unfold makeAbove at h
    split at h
    · rename_i hmade
      cases h
      exact item?_makeDirectory hmade
    · exact unlessDirectory_eq_ok h
  | cons name rest =>
    unfold makeAbove at h
    split at h
    · rename_i hmade
      cases h
      exact item?_makeDirectory hmade
    · split at h
      · cases h
      · split at h
        · rename_i hmade
          cases h
          exact item?_makeDirectory hmade
        · exact unlessDirectory_eq_ok h
    · exact unlessDirectory_eq_ok h

theorem lookup_makeAbove {t : FileTree} {here : Place} {absolute : Bool} {path : Path}
    {names : List String} {q : Place} {e : Entry} (hq : t.lookup q = some e) :
    (t.makeAbove here absolute path names).2.lookup q = some e := by
  induction names generalizing path with
  | nil =>
    unfold makeAbove
    split
    · rename_i hmade
      exact lookup_makeDirectory hmade hq
    · rwa [unlessDirectory_snd]
  | cons name rest ih =>
    unfold makeAbove
    split
    · rename_i hmade
      exact lookup_makeDirectory hmade hq
    · have habove := @ih (pathOf absolute (name :: rest))
      split
      · rename_i hfailed
        rwa [hfailed] at habove
      · rename_i hmade
        rw [hmade] at habove
        split
        · rename_i hmade'
          exact lookup_makeDirectory hmade' habove
        · rwa [unlessDirectory_snd]
    · rwa [unlessDirectory_snd]

theorem lookup_makeDirectories {t : FileTree} {here : Place} {path : Path} {q : Place} {e : Entry}
    (hq : t.lookup q = some e) : (t.makeDirectories here path).2.lookup q = some e := by
  unfold makeDirectories
  split
  · exact hq
  · exact lookup_makeAbove hq

theorem walk_withoutEnd {t : FileTree} {here d : Place} {names : List String}
    (hw : t.walk here names = .ok d) : t.walk here (withoutEnd names) = .ok d := by
  induction names using List.reverseRecOn generalizing d with
  | nil => exact hw
  | append_singleton front name ih =>
    by_cases hname : name = ""
    · subst hname
      have hsame : withoutEnd (front ++ [""]) = withoutEnd front := by simp [withoutEnd]
      rw [walk_append] at hw
      cases hfront : t.walk here front with
      | error e =>
        rw [hfront] at hw
        cases hw
      | ok p =>
        rw [hfront] at hw
        have hstep : t.step p "" = .ok d := (walk_singleton t p "").symm.trans hw
        have hp : move p "" = d := move_of_step hstep
        obtain rfl : p = d := hp
        rw [hsame]
        exact ih hfront
    · rwa [withoutEnd_concat front hname]

theorem textError?_ne_notFound {path : Path} (text : path.text ≠ "") :
    textError? path ≠ some .notFound := by
  rw [textError?, if_neg text]
  split
  · simp
  · split <;> simp

theorem makeDirectory_of_walk {t : FileTree} {here d : Place} {path : Path} (text : path.text ≠ "")
    (hw : t.walk (start here path) path.components = .ok d) (hd : t.isDirectory d = true) :
    ∃ e, e ≠ .notFound ∧ t.makeDirectory here path = .error e := by
  unfold makeDirectory locateNew
  cases htext : textError? path with
  | some e =>
    refine ⟨e, ?_, rfl⟩
    rintro rfl
    exact textError?_ne_notFound text htext
  | none =>
    refine ⟨.fileExists, nofun, ?_⟩
    rw [walk_withoutEnd hw]
    simp only [bind, Except.bind, isDirectory_iff.1 hd]

theorem makeDirectories_eq {t : FileTree} {here : Place} {path : Path}
    (found : t.makeDirectory here path ≠ .error .notFound) :
    (t.makeDirectories here path).2 = t ∨
      t.makeDirectory here path = .ok (t.makeDirectories here path).2 := by
  unfold makeDirectories
  split
  · exact .inl rfl
  · cases hmade : t.makeDirectory here path with
    | ok u =>
      right
      cases path.names.reverse.tail <;> simp only [makeAbove, hmade]
    | error e =>
      left
      cases path.names.reverse.tail with
      | nil =>
        simp only [makeAbove, hmade]
        exact unlessDirectory_snd t here path e
      | cons name rest =>
        simp only [makeAbove, hmade]
        cases e with
        | notFound => exact absurd hmade found
        | _ => exact unlessDirectory_snd t here path _

theorem makeDirectories_of_walk {t : FileTree} {here d : Place} {path : Path}
    (hw : t.walk (start here path) path.components = .ok d) (hd : t.isDirectory d = true) :
    (t.makeDirectories here path).2 = t := by
  by_cases text : path.text = ""
  · rw [makeDirectories, if_pos text]
  · obtain ⟨e, he, hmade⟩ := makeDirectory_of_walk text hw hd
    have hfound : t.makeDirectory here path ≠ .error .notFound := by
      rw [hmade]
      exact fun h => he (Except.error.inj h)
    rcases makeDirectories_eq hfound with h | h
    · exact h
    · rw [hmade] at h
      cases h

theorem makeDirectory_join {t : FileTree} {here d : Place} {base : Path} {name : String}
    (plain : '/' ∉ name.toList) (ordinary : name ≠ "")
    (hw : t.walk (start here base) base.components = .ok d) (hd : t.isDirectory d = true) :
    t.makeDirectory here (base.join name) ≠ .error .notFound := by
  have text : (base.join name).text ≠ "" := by
    intro hempty
    have hwhole := withoutEnd_join base plain ordinary
    rw [Path.components, hempty] at hwhole
    exact absurd hwhole (by decide)
  unfold makeDirectory locateNew
  cases htext : textError? (base.join name) with
  | some e =>
    intro h
    obtain rfl := Except.error.inj h
    exact textError?_ne_notFound text htext
  | none =>
    have hstep : t.step d name ≠ .error .notFound := by
      rw [step, isDirectory_iff.1 hd]
      dsimp only
      split_ifs <;> simp
    rw [withoutEnd_join base plain ordinary, walk_join t here base plain, hw]
    simp only [bind, Except.bind]
    cases hp : t.step d name with
    | error e =>
      rw [hp] at hstep
      exact fun h => hstep (congrArg Except.error (Except.error.inj h))
    | ok p =>
      dsimp only
      cases t.lookup p <;> simp

end FileTree

namespace Host

/-- The working directory is there, with all above it, and temporary names have no slash in them. -/
structure IsOrdinary (h : Host) : Prop where
  grounded : h.files.Grounded h.workingDirectory
  endings : ∀ ending ∈ h.endings, '/' ∉ ending.toList

/-- The path leads to a directory. An empty text leads to the working directory. -/
def HasDirectory (h : Host) (path : Path) : Prop :=
  ∃ d, h.files.walk (FileTree.start h.workingDirectory path) path.components = .ok d ∧
    h.files.isDirectory d = true

theorem hasDirectory_of_item? {h : Host} {path : Path} (hd : h.item? path = some .directory) :
    h.HasDirectory path := by
  obtain ⟨d, hplace, hdirectory⟩ := Option.bind_eq_some_iff.1 hd
  exact ⟨d, (FileTree.place?_eq_some_iff.1 hplace).2, FileTree.isDirectory_iff.2 hdirectory⟩

section

variable {h h' : Host} {path : Path} (ordinary : h.IsOrdinary)
include ordinary

theorem IsOrdinary.makeDirectories {r : Except OsError Unit}
    (hm : h.makeDirectories path = (r, h')) : h'.IsOrdinary := by
  cases hm
  refine ⟨FileTree.Grounded.mono (fun p hp => ?_) ordinary.grounded, ordinary.endings⟩
  exact FileTree.isDirectory_iff.2 (FileTree.lookup_makeDirectories (FileTree.isDirectory_iff.1 hp))

theorem hasDirectory_makeDirectories (hm : h.makeDirectories path = (.ok (), h')) :
    h'.HasDirectory path := by
  unfold makeDirectories FileTree.makeDirectories at hm
  by_cases htext : path.text = ""
  · rw [if_pos htext] at hm
    obtain ⟨text⟩ := path
    obtain rfl : text = "" := htext
    cases hm
    have hd := ordinary.grounded h.workingDirectory (List.prefix_refl _)
    have hw : h.files.walk h.workingDirectory ([] ++ [""]) = .ok h.workingDirectory :=
      FileTree.walk_concat_empty rfl hd
    exact ⟨h.workingDirectory, hw, hd⟩
  · rw [if_neg htext] at hm
    obtain ⟨hr, rfl⟩ := Prod.mk.inj hm
    exact hasDirectory_of_item? (FileTree.item?_makeAbove (Prod.ext hr rfl))

end

theorem makeFresh_eq_ok {h h' : Host} {stem : String} {endings : List String} {path : Path}
    (hm : h.makeFresh stem endings = .ok (path, h')) :
    ∃ ending ∈ endings, path = h.temporary.join (stem ++ ending) ∧
      ∃ files, h.files.makeDirectory h.workingDirectory path = .ok files ∧
        h' = { h with files := files } := by
  induction endings with
  | nil => cases hm
  | cons ending rest ih =>
    unfold makeFresh at hm
    dsimp only at hm
    split at hm
    · rename_i files hmade
      cases hm
      exact ⟨ending, List.mem_cons_self, rfl, files, hmade, rfl⟩
    · obtain ⟨ending', hmem, hrest⟩ := ih hm
      exact ⟨ending', List.mem_cons_of_mem _ hmem, hrest⟩
    · cases hm

section

variable {h h' : Host} {stem : String} {path : Path} (ordinary : h.IsOrdinary)
  (hm : h.makeTemporary stem = .ok (path, h'))
include hm

theorem hasDirectory_makeTemporary : h'.HasDirectory path := by
  obtain ⟨ending, -, -, files, hmade, rfl⟩ := makeFresh_eq_ok hm
  exact hasDirectory_of_item? (FileTree.item?_makeDirectory hmade)

include ordinary

theorem IsOrdinary.makeTemporary : h'.IsOrdinary := by
  obtain ⟨ending, -, -, files, hmade, rfl⟩ := makeFresh_eq_ok hm
  exact ⟨ordinary.grounded.mono fun p hp => FileTree.isDirectory_makeDirectory hmade hp,
    ordinary.endings⟩

theorem place?_makeTemporary (plain : '/' ∉ stem.toList) (long : 2 < stem.length) {v : Host}
    (same : v.workingDirectory = h.workingDirectory) {q : Place} (hq : v.place? path = some q) :
    h.files.isDirectory q = false ∧ ∃ c ending, q = c ++ [stem ++ ending] := by
  obtain ⟨ending, hending, rfl, files, hmade, -⟩ := makeFresh_eq_ok hm
  obtain ⟨p, hlocate, free, -⟩ := FileTree.makeDirectory_eq_ok.1 hmade
  have hplain : '/' ∉ (stem ++ ending).toList := by
    simp [plain, ordinary.endings ending hending]
  have hlong : 2 < (stem ++ ending).length := by
    rw [String.length_append]
    omega
  have hne : stem ++ ending ≠ "" := by
    intro hempty
    rw [hempty] at hlong
    exact absurd hlong (by decide)
  rw [place?, same] at hq
  obtain ⟨c, -, hc⟩ := FileTree.place?_join hplain hlong hq
  refine ⟨?_, c, ending, hc⟩
  unfold FileTree.locateNew at hlocate
  split at hlocate
  · cases hlocate
  · rw [FileTree.withoutEnd_join _ hplain hne] at hlocate
    rw [FileTree.walk_unique hlocate (FileTree.place?_eq_some_iff.1 hq).2, FileTree.isDirectory, free]
    rfl

theorem item?_removeTree_makeTemporary (plain : '/' ∉ stem.toList) (long : 2 < stem.length) {v : Host}
    (same : v.workingDirectory = h.workingDirectory) {base : Path} (hbase : h.HasDirectory base)
    {name : String} (hplain : '/' ∉ name.toList) (hlong : 2 < name.length)
    (other : ∀ ending, name ≠ stem ++ ending) :
    (v.removeTree path).item? (base.join name) = v.item? (base.join name) := by
  have hremoved : (v.removeTree path).item? (base.join name) =
      (v.removeTree path).files.item? v.workingDirectory (base.join name) := rfl
  rw [hremoved, files_removeTree]
  cases hq : v.place? path with
  | none => rfl
  | some q =>
    obtain ⟨free, c, ending, hc⟩ := place?_makeTemporary ordinary hm plain long same hq
    obtain ⟨d, hd, hdirectory⟩ := hbase
    rw [← same] at hd
    refine FileTree.item?_prune hplain hlong free (same ▸ ordinary.grounded) hd hdirectory fun c' hc' => ?_
    rw [hc] at hc'
    exact other ending (List.singleton_inj.1 (List.append_inj' hc' rfl).2).symm

end

end Host

end Breakage
