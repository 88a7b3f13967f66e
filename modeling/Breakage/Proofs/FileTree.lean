import Breakage.FileTree
import Breakage.Module.Name
import Mathlib.Data.List.Induction

/-!
Where paths lead in a tree that changes. A path leads to the same place as long as the same places
are directories, whatever becomes of the files (`place?_congr`), and the digests of two modules are
never in one place (`place?_digestPath_ne`).
-/

namespace Breakage

namespace Path

theorem components_of_slash {p : Path} {front back : List Char}
    (h : p.text.toList = front ++ '/' :: back) :
    p.components =
      (front.splitOn '/').map String.ofList ++ (back.splitOn '/').map String.ofList := by
  rw [components, h, List.splitOn_append_cons_self, List.map_append]

theorem map_splitOn_of_plain {name : String} (plain : '/' ∉ name.toList) :
    (name.toList.splitOn '/').map String.ofList = [name] := by
  rw [List.splitOn_eq_singleton plain, List.map_singleton, String.ofList_toList]

theorem startsWithSlash_cons (c : Char) (rest : List Char) :
    startsWithSlash (c :: rest) = decide (c = '/') := by
  unfold startsWithSlash
  split
  · rename_i heq
    rw [(List.cons.inj heq).1]
    rfl
  · rename_i hne
    symm
    rw [decide_eq_false_iff_not]
    rintro rfl
    exact hne rest rfl

theorem startsWithSlash_of_plain {cs : List Char} (plain : '/' ∉ cs) :
    startsWithSlash cs = false := by
  unfold startsWithSlash
  split
  · exact absurd List.mem_cons_self plain
  · rfl

theorem components_join (base : Path) {name : String} (plain : '/' ∉ name.toList) :
    ∃ front, (base.components = front ∨ base.components = front ++ [""]) ∧
      (base.join name).components = front ++ [name] := by
  have hrelative := startsWithSlash_of_plain plain
  rcases List.eq_nil_or_concat base.text.toList with hbase | ⟨front, last, hbase⟩
  · have hjoin : base.join name = ⟨name⟩ := by simp [join, hrelative, hbase]
    refine ⟨[], .inr ?_, ?_⟩
    · rw [components, hbase]
      rfl
    · rw [hjoin]
      exact map_splitOn_of_plain plain
  · rw [List.concat_eq_append] at hbase
    by_cases hlast : last = '/'
    · subst hlast
      have hjoin : base.join name = ⟨base.text ++ name⟩ := by simp [join, hrelative, hbase]
      have htext : (base.join name).text.toList = front ++ '/' :: name.toList := by
        simp [hjoin, hbase]
      refine ⟨(front.splitOn '/').map String.ofList, .inr (components_of_slash hbase), ?_⟩
      rw [components_of_slash htext, map_splitOn_of_plain plain]
    · have hjoin : base.join name = ⟨base.text ++ "/" ++ name⟩ := by
        simp [join, hrelative, hbase, hlast]
      have htext : (base.join name).text.toList = base.text.toList ++ '/' :: name.toList := by
        simp [hjoin]
      refine ⟨base.components, .inl rfl, ?_⟩
      rw [components_of_slash htext, map_splitOn_of_plain plain, components]

theorem startsWithSlash_append {cs : List Char} (hcs : cs ≠ []) (ds : List Char) :
    startsWithSlash (cs ++ ds) = startsWithSlash cs := by
  obtain ⟨c, rest, rfl⟩ := List.exists_cons_of_ne_nil hcs
  rw [List.cons_append, startsWithSlash_cons, startsWithSlash_cons]

theorem isAbsolute_join_of_ne_nil {base : Path} (hbase : base.text.toList ≠ []) {tail : String}
    (relative : startsWithSlash tail.toList = false) :
    (base.join tail).isAbsolute = base.isAbsolute := by
  unfold join
  rw [relative, if_neg Bool.false_ne_true]
  split
  · rename_i hnil
    exact absurd (List.reverse_eq_nil_iff.1 hnil) hbase
  · rw [isAbsolute, String.toList_append, startsWithSlash_append hbase, isAbsolute]
  · rw [isAbsolute, String.toList_append, String.toList_append, List.append_assoc,
      startsWithSlash_append hbase, isAbsolute]

theorem isAbsolute_join (base : Path) {name : String} (plain : '/' ∉ name.toList) :
    (base.join name).isAbsolute = base.isAbsolute := by
  have hrelative := startsWithSlash_of_plain plain
  by_cases hbase : base.text.toList = []
  · have hjoin : base.join name = ⟨name⟩ := by simp [join, hrelative, hbase]
    rw [hjoin, isAbsolute, isAbsolute, hbase, hrelative]
    rfl
  · exact isAbsolute_join_of_ne_nil hbase hrelative

theorem isAbsolute_join_of_isAbsolute {base : Path} (h : base.isAbsolute = true) (tail : String) :
    (base.join tail).isAbsolute = true := by
  have hbase : base.text.toList ≠ [] := by
    intro hnil
    rw [isAbsolute, hnil] at h
    cases h
  cases htail : startsWithSlash tail.toList with
  | true =>
    rw [join, htail]
    exact htail
  | false => rw [isAbsolute_join_of_ne_nil hbase htail, h]

end Path

namespace FileTree

/-! ### By the names alone -/

def move (here : Place) (name : String) : Place :=
  if name = "" || name = "." then here else if name = ".." then here.dropLast else here ++ [name]

/-- The place that a path can only denote, as seen from a directory. -/
def aim (here : Place) (path : Path) : Place := path.components.foldl move (start here path)

theorem ne_of_ordinary {name : String} (ordinary : 2 < name.length) :
    name ≠ "" ∧ name ≠ "." ∧ name ≠ ".." := by
  refine ⟨?_, ?_, ?_⟩
  all_goals
    rintro rfl
    exact absurd ordinary (by decide)

theorem move_of_ordinary {here : Place} {name : String} (ordinary : 2 < name.length) :
    move here name = here ++ [name] := by
  obtain ⟨hempty, hdot, hup⟩ := ne_of_ordinary ordinary
  simp [move, hempty, hdot, hup]

theorem move_of_step {t : FileTree} {here next : Place} {name : String}
    (h : t.step here name = .ok next) : move here name = next := by
  unfold step at h
  unfold move
  cases hl : t.lookup here with
  | none => simp [hl] at h
  | some e =>
    cases e with
    | file content => simp [hl] at h
    | directory =>
      rw [hl] at h
      dsimp only at h
      split at h
      · rename_i hstay
        rw [if_pos hstay]
        exact Except.ok.inj h
      · rename_i hstay
        rw [if_neg hstay]
        split at h
        · rename_i hup
          rw [if_pos hup]
          exact Except.ok.inj h
        · rename_i hup
          rw [if_neg hup]
          split at h
          · cases h
          · exact Except.ok.inj h

theorem foldl_move_of_walk {t : FileTree} {here p : Place} {names : List String}
    (h : t.walk here names = .ok p) : names.foldl move here = p := by
  induction names generalizing here with
  | nil => exact Except.ok.inj h
  | cons name rest ih =>
    rw [walk, List.foldlM_cons] at h
    cases hs : t.step here name with
    | error e =>
      rw [hs] at h
      cases h
    | ok next =>
      rw [hs] at h
      rw [List.foldl_cons, move_of_step hs]
      exact ih h

theorem aim_of_locate {t : FileTree} {here p : Place} {path : Path}
    (h : t.locate here path = .ok p) : aim here path = p := by
  unfold locate at h
  split at h
  · cases h
  · exact foldl_move_of_walk h

theorem foldl_move_withoutEnd (names : List String) (here : Place) :
    (withoutEnd names).foldl move here = names.foldl move here := by
  induction names using List.reverseRecOn with
  | nil => rfl
  | append_singleton front name ih =>
    by_cases hname : name = ""
    · subst hname
      have hsame : withoutEnd (front ++ [""]) = withoutEnd front := by simp [withoutEnd]
      rw [hsame, ih, List.foldl_append]
      rfl
    · have hsame : withoutEnd (front ++ [name]) = front ++ [name] := by simp [withoutEnd, hname]
      rw [hsame]

theorem aim_of_locateNew {t : FileTree} {here p : Place} {path : Path}
    (h : t.locateNew here path = .ok p) : aim here path = p := by
  unfold locateNew at h
  split at h
  · cases h
  · rw [aim, ← foldl_move_withoutEnd]
    exact foldl_move_of_walk h

theorem aim_join (here : Place) (base : Path) {name : String} (plain : '/' ∉ name.toList) :
    aim here (base.join name) = move (aim here base) name := by
  obtain ⟨front, hbase, hjoin⟩ := base.components_join plain
  have hstart : start here (base.join name) = start here base := by
    rw [start, Path.isAbsolute_join base plain]
    rfl
  rw [aim, aim, hstart, hjoin, List.foldl_append]
  rcases hbase with h | h
  · rw [h]
    rfl
  · rw [h, List.foldl_append]
    rfl

theorem aim_of_isAbsolute {path : Path} (absolute : path.isAbsolute = true) (here there : Place) :
    aim here path = aim there path := by
  rw [aim, aim, start, start, if_pos absolute, if_pos absolute]

theorem aim_of_relative {path : Path} (relative : path.isAbsolute = false)
    (down : ".." ∉ path.components) (here : Place) : aim here path = here ++ path.names := by
  have hmove : ∀ (names : List String) (here : Place), ".." ∉ names →
      names.foldl move here = here ++ names.filter fun n => decide (n ≠ "" ∧ n ≠ ".") := by
    intro names
    induction names with
    | nil => simp
    | cons name rest ih =>
      intro here h
      rw [List.mem_cons, not_or] at h
      obtain ⟨hname, hrest⟩ := h
      rw [List.foldl_cons, ih _ hrest]
      by_cases hstay : name = "" ∨ name = "."
      · have hfilter : ¬(name ≠ "" ∧ name ≠ ".") := by
          rintro ⟨hempty, hdot⟩
          exact hstay.elim hempty hdot
        rw [List.filter_cons_of_neg (by simpa using hfilter)]
        simp [move, hstay]
      · rw [not_or] at hstay
        rw [List.filter_cons_of_pos (by simpa using hstay)]
        simp [move, hstay, Ne.symm hname]
  rw [aim, start, if_neg (by simp [relative])]
  exact hmove path.components here down

/-- From two directories a path without a way up leads to one place only if it does not depend on
them, or they are the same. -/
theorem aim_eq_iff {path : Path} (down : ".." ∉ path.components) (here there : Place) :
    aim here path = aim there path ↔ path.isAbsolute = true ∨ here = there := by
  by_cases absolute : path.isAbsolute = true
  · simp [absolute, aim_of_isAbsolute absolute here there]
  · rw [Bool.not_eq_true] at absolute
    rw [aim_of_relative absolute down, aim_of_relative absolute down, List.append_left_inj, absolute]
    simp

/-! ### Along the directories -/

theorem step_step_empty (t : FileTree) (here : Place) (name : String) :
    (t.step here "" >>= fun p => t.step p name) = t.step here name := by
  unfold step
  cases h : t.lookup here with
  | none => rfl
  | some e =>
    cases e with
    | file content => rfl
    | directory => simp [h, bind, Except.bind]

theorem walk_append (t : FileTree) (here : Place) (front back : List String) :
    t.walk here (front ++ back) = (t.walk here front >>= fun p => t.walk p back) :=
  List.foldlM_append

theorem walk_singleton (t : FileTree) (here : Place) (name : String) :
    t.walk here [name] = t.step here name := by
  rw [walk, List.foldlM_cons]
  cases t.step here name <;> rfl

theorem walk_cons_eq_ok {t : FileTree} {here last : Place} {name : String} {rest : List String} :
    t.walk here (name :: rest) = .ok last ↔
      ∃ next, t.step here name = .ok next ∧ t.walk next rest = .ok last := by
  rw [walk, List.foldlM_cons]
  cases t.step here name with
  | error e => simp [bind, Except.bind]
  | ok next => simp [bind, Except.bind, walk]

theorem walk_append_empty (t : FileTree) (here : Place) (front : List String) (name : String) :
    (t.walk here (front ++ [""]) >>= fun p => t.step p name) =
      (t.walk here front >>= fun p => t.step p name) := by
  rw [walk_append, bind_assoc]
  congr 1
  funext p
  rw [walk_singleton, step_step_empty]

theorem walk_join (t : FileTree) (here : Place) (base : Path) {name : String}
    (plain : '/' ∉ name.toList) :
    t.walk (start here (base.join name)) (base.join name).components =
      (t.walk (start here base) base.components >>= fun p => t.step p name) := by
  obtain ⟨front, hbase, hjoin⟩ := base.components_join plain
  have hstart : start here (base.join name) = start here base := by
    rw [start, Path.isAbsolute_join base plain]
    rfl
  rw [hstart, hjoin, walk_append]
  simp only [walk_singleton]
  rcases hbase with h | h
  · rw [h]
  · rw [h, walk_append_empty]

/-! ### Places that paths denote -/

def place? (t : FileTree) (here : Place) (path : Path) : Option Place := (t.locate here path).toOption

def item? (t : FileTree) (here : Place) (path : Path) : Option Entry :=
  (t.place? here path).bind t.lookup

theorem place?_eq_some_iff {t : FileTree} {here p : Place} {path : Path} :
    t.place? here path = some p ↔
      textError? path = none ∧ t.walk (start here path) path.components = .ok p := by
  unfold place? locate
  cases textError? path with
  | some e => simp [Except.toOption]
  | none => cases t.walk (start here path) path.components <;> simp [Except.toOption]

theorem aim_of_place? {t : FileTree} {here p : Place} {path : Path}
    (h : t.place? here path = some p) : aim here path = p :=
  foldl_move_of_walk (place?_eq_some_iff.1 h).2

theorem exists?_eq (t : FileTree) (here : Place) (path : Path) :
    t.exists? here path = (t.item? here path).isSome := by
  unfold exists? status item? place?
  cases h : t.locate here path with
  | error e => rfl
  | ok p =>
    cases hp : t.lookup p with
    | none => simp [Except.toOption, bind, Except.bind, Except.isOk, Except.toBool, hp]
    | some e => simp [Except.toOption, bind, Except.bind, Except.isOk, Except.toBool, hp]

theorem readText_eq_ok {t : FileTree} {here : Place} {path : Path} {text : String} :
    t.readText here path = .ok text ↔ t.item? here path = some (.file (.text text)) := by
  unfold readText status item? place?
  cases t.locate here path with
  | error e => simp [Except.toOption, bind, Except.bind]
  | ok p =>
    simp only [bind, Except.bind, Except.toOption, Option.bind_some]
    rcases t.lookup p with _ | _ | _ | _ <;> simp

theorem isDirectory_iff {t : FileTree} {p : Place} :
    t.isDirectory p = true ↔ t.lookup p = some .directory := by simp [isDirectory]

theorem step_mono {t u : FileTree} (h : ∀ p, t.isDirectory p = true → u.isDirectory p = true)
    {here next : Place} {name : String} (hs : t.step here name = .ok next) :
    u.step here name = .ok next := by
  unfold step at hs ⊢
  cases hl : t.lookup here with
  | none => simp [hl] at hs
  | some e =>
    cases e with
    | file content => simp [hl] at hs
    | directory =>
      rw [hl] at hs
      rw [isDirectory_iff.1 (h here (isDirectory_iff.2 hl))]
      exact hs

theorem walk_mono {t u : FileTree} (h : ∀ p, t.isDirectory p = true → u.isDirectory p = true)
    {here last : Place} {names : List String} (hw : t.walk here names = .ok last) :
    u.walk here names = .ok last := by
  induction names generalizing here with
  | nil => exact hw
  | cons name rest ih =>
    obtain ⟨next, hs, hw⟩ := walk_cons_eq_ok.1 hw
    exact walk_cons_eq_ok.2 ⟨next, step_mono h hs, ih hw⟩

theorem place?_mono {t u : FileTree} (h : ∀ p, t.isDirectory p = true → u.isDirectory p = true)
    {here p : Place} {path : Path} (hp : t.place? here path = some p) :
    u.place? here path = some p := by
  rw [place?_eq_some_iff] at hp ⊢
  exact ⟨hp.1, walk_mono h hp.2⟩

theorem item?_mono {t u : FileTree} (h : ∀ p e, t.lookup p = some e → u.lookup p = some e)
    {here : Place} {path : Path} {e : Entry} (hp : t.item? here path = some e) :
    u.item? here path = some e := by
  obtain ⟨p, hplace, he⟩ := Option.bind_eq_some_iff.1 hp
  refine Option.bind_eq_some_iff.2 ⟨p, place?_mono (fun q hq => ?_) hplace, h p e he⟩
  exact isDirectory_iff.2 (h q .directory (isDirectory_iff.1 hq))

/-- The same places are directories in both trees. -/
def SameDirectories (t u : FileTree) : Prop := ∀ p, u.isDirectory p = t.isDirectory p

theorem place?_congr {t u : FileTree} (h : SameDirectories t u) (here : Place) (path : Path) :
    u.place? here path = t.place? here path := by
  ext p
  constructor
  · exact place?_mono fun q hq => by rwa [← h q]
  · exact place?_mono fun q hq => by rwa [h q]

/-- Where a path leads, or why it leads nowhere, has to do with what is there and nothing else. -/
theorem locate_congr {t u : FileTree} (h : ∀ p, u.lookup p = t.lookup p) (here : Place)
    (path : Path) : u.locate here path = t.locate here path := by
  have hstep : u.step = t.step := by
    funext p name
    rw [step, step, h]
  rw [locate, locate, walk, walk, hstep]

theorem step_eq_append {t : FileTree} {here next : Place} {name : String}
    (h : t.step here name = .ok next) (ordinary : 2 < name.length) : next = here ++ [name] := by
  rw [← move_of_step h, move_of_ordinary ordinary]

theorem step_of_ordinary {t : FileTree} {here : Place} {name : String}
    (hd : t.isDirectory here = true) (ordinary : 2 < name.length)
    (short : name.utf8ByteSize ≤ nameLimit) : t.step here name = .ok (here ++ [name]) := by
  obtain ⟨hempty, hdot, hup⟩ := ne_of_ordinary ordinary
  rw [step, isDirectory_iff.1 hd]
  simp [hempty, hdot, hup, Nat.not_lt.2 short]

theorem place?_join {t : FileTree} {here p : Place} {base : Path} {name : String}
    (plain : '/' ∉ name.toList) (ordinary : 2 < name.length)
    (h : t.place? here (base.join name) = some p) :
    ∃ d, t.walk (start here base) base.components = .ok d ∧ p = d ++ [name] := by
  have hw := (place?_eq_some_iff.1 h).2
  rw [walk_join t here base plain] at hw
  cases hd : t.walk (start here base) base.components with
  | error e =>
    rw [hd] at hw
    cases hw
  | ok d =>
    rw [hd] at hw
    exact ⟨d, rfl, step_eq_append hw ordinary⟩

theorem plain_digest {m : ModuleName} (plain : '/' ∉ m.text.toList) :
    '/' ∉ (m.text ++ ".json").toList := by simp [plain]

theorem ordinary_digest (m : ModuleName) : 2 < (m.text ++ ".json").length := by
  rw [String.length_append]
  exact Nat.lt_of_lt_of_le (by decide) (Nat.le_add_left 5 _)

theorem eq_of_digest {m k : ModuleName} (h : m.text ++ ".json" = k.text ++ ".json") : m = k := by
  cases m
  cases k
  exact congrArg ModuleName.mk ((String.append_left_inj ".json").1 h)

theorem place?_digestPath_ne {t : FileTree} {here p : Place} {m k : ModuleName} {directory : Path}
    (hm : '/' ∉ m.text.toList) (hk : '/' ∉ k.text.toList) (different : m ≠ k)
    (h : t.place? here (m.digestPath directory) = some p) :
    t.place? here (k.digestPath directory) ≠ some p := by
  intro h'
  obtain ⟨d, hd, rfl⟩ := place?_join (plain_digest hm) (ordinary_digest m) h
  obtain ⟨d', hd', heq⟩ := place?_join (plain_digest hk) (ordinary_digest k) h'
  rw [hd] at hd'
  cases hd'
  exact different (eq_of_digest (List.singleton_inj.1 (List.append_cancel_left heq)))

/-! ### Removing -/

theorem removeFile_eq (t : FileTree) (here : Place) (path : Path) :
    t.removeFile here path =
      match t.place? here path with
      | none => t
      | some p => if t.isDirectory p then t else t.erase p := by
  unfold removeFile place?
  cases t.locate here path <;> rfl

theorem lookup_root (t : FileTree) : t.lookup [] = some .directory := rfl

theorem lookup_erase_of_not_directory {t : FileTree} {p : Place} (h : t.isDirectory p = false)
    (q : Place) : (t.erase p).lookup q = if q = p then none else t.lookup q := by
  by_cases hq : q = []
  · subst hq
    have hp : ([] : Place) ≠ p := by
      rintro rfl
      rw [isDirectory, lookup_root] at h
      cases h
    rw [if_neg hp, lookup_root, lookup_root]
  · exact lookup_erase t p q hq

/-- A file takes the place of anything that is no directory. -/
theorem lookup_put_of_not_directory {t : FileTree} {p : Place} (h : t.isDirectory p = false)
    (e : Entry) (q : Place) : (t.put p e).lookup q = if q = p then some e else t.lookup q := by
  by_cases hq : q = []
  · subst hq
    have hp : ([] : Place) ≠ p := by
      rintro rfl
      rw [isDirectory, lookup_root] at h
      cases h
    rw [if_neg hp, lookup_root, lookup_root]
  · exact lookup_put t p q e hq

theorem sameDirectories_put {t : FileTree} {p : Place} (h : t.isDirectory p = false)
    (content : Content) : SameDirectories t (t.put p (.file content)) := by
  intro q
  rw [isDirectory, lookup_put_of_not_directory h]
  split
  · rename_i hq
    rw [hq, h]
    rfl
  · rfl

/-! ### Writing -/

theorem components_of_not_endsInSlash {path : Path} (open_end : endsInSlash path = false)
    (some_text : path.text ≠ "") : ∃ front name, path.components = front ++ [name] ∧ name ≠ "" := by
  by_cases slash : '/' ∈ path.text.toList
  · obtain ⟨back, front, hreverse, plain⟩ :=
      List.eq_append_cons_of_mem (List.mem_reverse.2 slash)
    have htext : path.text.toList = front.reverse ++ '/' :: back.reverse := by
      rw [← List.reverse_reverse path.text.toList, hreverse]
      simp
    have hplain : '/' ∉ (String.ofList back.reverse).toList := by simpa using plain
    refine ⟨(front.reverse.splitOn '/').map String.ofList, String.ofList back.reverse, ?_,
      fun hempty => ?_⟩
    · have hlast := Path.map_splitOn_of_plain hplain
      rw [String.toList_ofList] at hlast
      rw [Path.components_of_slash htext, hlast]
    · have hback : back.reverse = [] := String.ofList_eq_empty_iff.1 hempty
      rw [endsInSlash, htext, hback] at open_end
      simp at open_end
  · refine ⟨[], path.text, Path.map_splitOn_of_plain slash, some_text⟩

theorem locateNew_eq {t : FileTree} {here : Place} {path : Path}
    (open_end : endsInSlash path = false) : t.locateNew here path = t.locate here path := by
  unfold locateNew locate
  by_cases hempty : path.text = ""
  · have herror : textError? path ≠ none := by simp [textError?, hempty]
    cases h : textError? path with
    | none => exact absurd h herror
    | some e => rfl
  · obtain ⟨front, name, hcomponents, hname⟩ := components_of_not_endsInSlash open_end hempty
    have hsame : withoutEnd path.components = path.components := by
      rw [hcomponents]
      simp [withoutEnd, hname]
    rw [hsame]

theorem write_eq {t : FileTree} {here : Place} {path : Path} {content : Content}
    (open_end : endsInSlash path = false) :
    t.write here path content = t.locate here path >>= fun p =>
      if t.isDirectory p then .error .isDirectory else .ok (t.put p (.file content)) := by
  rw [write, locateNew_eq open_end, open_end]
  rfl

theorem write_eq_ok {t u : FileTree} {here : Place} {path : Path} {content : Content} :
    t.write here path content = .ok u ↔ ∃ p, t.place? here path = some p ∧
      endsInSlash path = false ∧ t.isDirectory p = false ∧ t.put p (.file content) = u := by
  cases hslash : endsInSlash path with
  | true =>
    unfold write
    cases t.locateNew here path <;> simp [hslash, bind, Except.bind]
  | false =>
    rw [write_eq hslash, place?]
    cases t.locate here path with
    | error e => simp [bind, Except.bind, Except.toOption]
    | ok p => cases hd : t.isDirectory p <;> simp [bind, Except.bind, Except.toOption, hd]

theorem lookup_prune (t : FileTree) (p q : Place) (h : q ≠ []) :
    (t.prune p).lookup q = if p.isPrefixOf q then none else t.lookup q := by
  obtain ⟨es⟩ := t
  simp only [lookup, prune, h, if_false, List.find?_filter]
  split
  · rename_i hp
    rw [Option.map_eq_none_iff, List.find?_eq_none]
    intro e _
    by_cases he : e.1 = q <;> simp [he, hp]
  · rename_i hp
    congr 2
    funext e
    by_cases he : e.1 = q <;> simp [he, hp]

theorem lookup_of_prune {t : FileTree} {p q : Place} {e : Entry}
    (h : (t.prune p).lookup q = some e) : t.lookup q = some e := by
  by_cases hq : q = []
  · subst hq
    exact h
  · rw [lookup_prune t p q hq] at h
    split at h
    · cases h
    · exact h

theorem item?_of_prune {t : FileTree} {p here : Place} {path : Path} {e : Entry}
    (h : (t.prune p).item? here path = some e) : t.item? here path = some e :=
  item?_mono (fun _ _ => lookup_of_prune) h

end FileTree

end Breakage
