import Breakage.Proofs.Run.Likeness
import Mathlib.Data.List.Forall2

/-!
Names of modules as keys of their digests. An identifier is what the grammar of C takes for one
(`ModuleName.Identifier`): the name of every target that has a name is made into one, and one stays
as it is. The digest of a module is an entry of the directory, under the name of the module, however
the directory is written (`Path.IsEntryOf`). Main statement: `ModuleName.digest_keys`.
-/

namespace Breakage

namespace ModuleName

/-! ### Characters -/

def nondigits : List Char := "_abcdefghijklmnopqrstuvwxyzABCDEFGHIJKLMNOPQRSTUVWXYZ".toList

def digits : List Char := "0123456789".toList

theorem forall_of_toNat_lt {bound : Nat} {P : Char → Prop} (h : ∀ n < bound, P (Char.ofNat n))
    {c : Char} (hc : c.toNat < bound) : P c := by
  have hp := h c.toNat hc
  rwa [Char.ofNat_toNat] at hp

theorem toNat_lt_of_isWordChar {c : Char} (h : isWordChar c = true) : c.toNat < 128 := by
  have hlast {last : Char} (hc : c.val ≤ last.val) (small : last.toNat < 128) : c.toNat < 128 :=
    Nat.lt_of_le_of_lt hc small
  rcases Bool.or_eq_true_iff.1 h with h | h
  · rcases Bool.or_eq_true_iff.1 h with h | h
    · rcases Bool.or_eq_true_iff.1 h with h | h
      · exact hlast (of_decide_eq_true h : c.val ≥ 'A'.val ∧ c.val ≤ 'Z'.val).2 (by decide)
      · exact hlast (of_decide_eq_true (Bool.and_eq_true_iff.1 h).2) (by decide)
    · exact hlast (of_decide_eq_true (Bool.and_eq_true_iff.1 h).2) (by decide)
  · rw [beq_iff_eq.1 h]
    decide

theorem isWordChar_of_isDigit {c : Char} (h : c.isDigit = true) : isWordChar c = true := by
  simp [isWordChar, Char.isAlphanum, h]

theorem isDigit_iff {c : Char} : c.isDigit = true ↔ c ∈ digits := by
  constructor
  · intro h
    exact forall_of_toNat_lt (P := fun c => c.isDigit = true → c ∈ digits) (by decide +kernel)
      (toNat_lt_of_isWordChar (isWordChar_of_isDigit h)) h
  · have hall : digits.all Char.isDigit = true := by decide
    exact List.all_eq_true.1 hall c

theorem isWordChar_iff {c : Char} : isWordChar c = true ↔ c ∈ nondigits ∨ c ∈ digits := by
  constructor
  · intro h
    exact forall_of_toNat_lt (P := fun c => isWordChar c = true → c ∈ nondigits ∨ c ∈ digits)
      (by decide +kernel) (toNat_lt_of_isWordChar h) h
  · rintro (h | h)
    · have hall : nondigits.all isWordChar = true := by decide
      exact List.all_eq_true.1 hall c h
    · exact isWordChar_of_isDigit (isDigit_iff.2 h)

theorem isDigit_eq_false_of_mem_nondigits {c : Char} (h : c ∈ nondigits) : c.isDigit = false := by
  have hall : nondigits.all (!·.isDigit) = true := by decide
  simpa using List.all_eq_true.1 hall c h

theorem mem_nondigits_iff {c : Char} : c ∈ nondigits ↔ isWordChar c = true ∧ c.isDigit = false := by
  constructor
  · intro h
    exact ⟨isWordChar_iff.2 (.inl h), isDigit_eq_false_of_mem_nondigits h⟩
  · rintro ⟨hword, hdigit⟩
    refine (isWordChar_iff.1 hword).resolve_right fun h => ?_
    rw [isDigit_iff.2 h] at hdigit
    cases hdigit

/-! ### Identifiers -/

/-- A nondigit is an identifier; an identifier with a nondigit or a digit behind it is one. -/
inductive Identifier : List Char → Prop where
  | single {c : Char} : c ∈ nondigits → Identifier [c]
  | nondigit {cs : List Char} {c : Char} : Identifier cs → c ∈ nondigits → Identifier (cs ++ [c])
  | digit {cs : List Char} {c : Char} : Identifier cs → c ∈ digits → Identifier (cs ++ [c])

theorem identifier_iff {cs : List Char} : Identifier cs ↔
    ∃ c rest, cs = c :: rest ∧ c ∈ nondigits ∧ ∀ d ∈ rest, isWordChar d = true := by
  constructor
  · intro h
    have hsnoc {rest : List Char} {d : Char} (hrest : ∀ e ∈ rest, isWordChar e = true)
        (hd : isWordChar d = true) : ∀ e ∈ rest ++ [d], isWordChar e = true :=
      List.forall_mem_append.2 ⟨hrest, List.forall_mem_singleton.2 hd⟩
    induction h with
    | single hc => exact ⟨_, [], rfl, hc, nofun⟩
    | nondigit _ hd ih =>
      obtain ⟨c, rest, rfl, hc, hrest⟩ := ih
      exact ⟨c, rest ++ [_], rfl, hc, hsnoc hrest (isWordChar_iff.2 (.inl hd))⟩
    | digit _ hd ih =>
      obtain ⟨c, rest, rfl, hc, hrest⟩ := ih
      exact ⟨c, rest ++ [_], rfl, hc, hsnoc hrest (isWordChar_iff.2 (.inr hd))⟩
  · rintro ⟨c, rest, rfl, hc, hrest⟩
    induction rest using List.reverseRecOn with
    | nil => exact .single hc
    | append_singleton front d ih =>
      have hfront := ih fun e he => hrest e (List.mem_append_left _ he)
      rw [← List.cons_append]
      rcases isWordChar_iff.1 (hrest d (by simp)) with hd | hd
      · exact hfront.nondigit hd
      · exact hfront.digit hd

theorem isIdentifier_iff {m : ModuleName} : m.isIdentifier = true ↔ Identifier m.text.toList := by
  rw [identifier_iff, isIdentifier]
  cases m.text.toList with
  | nil => simp
  | cons c rest => simp [mem_nondigits_iff]

/-! ### Names of targets -/

def startsWithDigit (cs : List Char) : Bool := cs.head?.any digits.contains

theorem canonicalChars_eq (cs : List Char) :
    canonicalChars cs = (if startsWithDigit cs then ['_'] else []) ++ cs.map wordChar := by
  cases cs with
  | nil => rfl
  | cons c rest =>
    have hdigit : startsWithDigit (c :: rest) = c.isDigit := by
      rw [Bool.eq_iff_iff, isDigit_iff]
      simp [startsWithDigit]
    rw [canonicalChars, hdigit]
    cases c.isDigit <;> rfl

theorem identifier_canonicalChars {cs : List Char} (named : cs ≠ []) :
    Identifier (canonicalChars cs) := by
  have hword (rest : List Char) : ∀ d ∈ rest.map wordChar, isWordChar d = true := by
    intro d hd
    obtain ⟨c, -, rfl⟩ := List.mem_map.1 hd
    exact isWordChar_wordChar c
  obtain ⟨c, rest, rfl⟩ := List.exists_cons_of_ne_nil named
  rw [identifier_iff, canonicalChars]
  split
  · exact ⟨'_', _, rfl, by decide, hword (c :: rest)⟩
  · rename_i hdigit
    refine ⟨wordChar c, _, rfl, ?_, hword rest⟩
    rw [mem_nondigits_iff]
    refine ⟨isWordChar_wordChar c, ?_⟩
    unfold wordChar
    split
    · exact Bool.not_eq_true _ ▸ hdigit
    · rfl

theorem canonicalChars_of_identifier {cs : List Char} (h : Identifier cs) :
    canonicalChars cs = cs := by
  obtain ⟨c, rest, rfl, hc, hrest⟩ := identifier_iff.1 h
  obtain ⟨hword, hdigit⟩ := mem_nondigits_iff.1 hc
  have hsame : ∀ d ∈ c :: rest, wordChar d = d :=
    List.forall_mem_cons.2 ⟨if_pos hword, fun d hd => if_pos (hrest d hd)⟩
  rw [canonicalChars, hdigit, if_neg Bool.false_ne_true, List.map_congr_left hsame, List.map_id']

/-- A character that an identifier may have stays; an underscore stands for any other. -/
def StandsFor (d c : Char) : Prop := if c ∈ nondigits ∨ c ∈ digits then d = c else d = '_'

theorem standsFor_wordChar (c : Char) : StandsFor (wordChar c) c := by
  unfold StandsFor wordChar
  by_cases h : isWordChar c = true
  · rw [if_pos (isWordChar_iff.1 h), if_pos h]
  · rw [if_neg fun hc => h (isWordChar_iff.2 hc), if_neg h]

theorem toList_ofTarget (target : String) : ∃ kept,
    (ofTarget target).text.toList =
      (if startsWithDigit target.toList then ['_'] else []) ++ kept ∧
    List.Forall₂ StandsFor kept target.toList := by
  refine ⟨target.toList.map wordChar, ?_, ?_⟩
  · rw [ofTarget, String.toList_ofList, canonicalChars_eq]
  · rw [List.forall₂_map_left_iff, List.forall₂_same]
    exact fun c _ => standsFor_wordChar c

theorem length_ofTarget (target : String) :
    (ofTarget target).text.length =
      target.length + if startsWithDigit target.toList then 1 else 0 := by
  obtain ⟨kept, htext, hkept⟩ := toList_ofTarget target
  rw [← String.length_toList, htext, List.length_append, hkept.length_eq, String.length_toList,
    Nat.add_comm]
  split <;> rfl

theorem identifier_ofTarget {target : String} (named : target ≠ "") :
    Identifier (ofTarget target).text.toList := by
  rw [ofTarget, String.toList_ofList]
  exact identifier_canonicalChars fun h => named (String.toList_eq_nil_iff.1 h)

theorem ofTarget_of_identifier {m : ModuleName} (h : Identifier m.text.toList) :
    ofTarget m.text = m := by
  rw [ofTarget, canonicalChars_of_identifier h, String.ofList_toList]

end ModuleName

/-! ### Entries of a directory -/

namespace Path

/-- The path is that of the directory with the name behind it, and leads so from everywhere. -/
structure IsEntryOf (path directory : Path) (name : String) : Prop where
  isAbsolute : path.isAbsolute = directory.isAbsolute
  names : path.names = directory.names ++ [name]
  aim : ∀ here, FileTree.aim here path = FileTree.aim here directory ++ [name]

theorem names_join (base : Path) {name : String} (plain : '/' ∉ name.toList)
    (ordinary : 2 < name.length) : (base.join name).names = base.names ++ [name] := by
  obtain ⟨hempty, hdot, -⟩ := FileTree.ne_of_ordinary ordinary
  obtain ⟨front, hbase, hjoin⟩ := base.components_join plain
  rw [names, names, hjoin, List.filter_append]
  rcases hbase with h | h
  · simp [h, hempty, hdot]
  · simp [h, hempty, hdot]

theorem isEntryOf_join (base : Path) {name : String} (plain : '/' ∉ name.toList)
    (ordinary : 2 < name.length) : (base.join name).IsEntryOf base name where
  isAbsolute := isAbsolute_join base plain
  names := names_join base plain ordinary
  aim here := by rw [FileTree.aim_join here base plain, FileTree.move_of_ordinary ordinary]

theorem IsEntryOf.of_slash {path directory : Path} {name : String} (nonempty : directory.text ≠ "")
    (h : path.IsEntryOf ⟨directory.text ++ "/"⟩ name) : path.IsEntryOf directory name := by
  have habsolute : Path.isAbsolute ⟨directory.text ++ "/"⟩ = directory.isAbsolute := by
    rw [Path.isAbsolute, String.toList_append, startsWithSlash_append, Path.isAbsolute]
    exact fun hnil => nonempty (String.toList_eq_nil_iff.1 hnil)
  have hcomponents : components ⟨directory.text ++ "/"⟩ = directory.components ++ [""] := by
    have hslash : (directory.text ++ "/").toList = directory.text.toList ++ '/' :: [] :=
      String.toList_append
    rw [components_of_slash hslash]
    rfl
  refine ⟨h.isAbsolute.trans habsolute, ?_, fun here => ?_⟩
  · rw [h.names, Path.names, hcomponents, List.filter_append]
    simp [Path.names]
  · rw [h.aim, FileTree.aim, FileTree.start, habsolute, hcomponents, List.foldl_append]
    rfl

end Path

namespace ModuleName

theorem isEntryOf_digestPath (directory : Path) {m : ModuleName} (hm : Identifier m.text.toList) :
    (m.digestPath directory).IsEntryOf directory (m.text ++ ".json") :=
  directory.isEntryOf_join
    (FileTree.plain_digest (plain_of_isIdentifier (isIdentifier_iff.2 hm)))
    (FileTree.ordinary_digest m)

/-- The name of a target that has a name is made into an identifier. It keeps its length, but for an
underscore that is put before a digit, and an identifier stays as it is. With such names the digest
of a module is an entry of the directory, and no file is the digest of two modules. -/
theorem digest_keys {target : String} (named : target ≠ "") (directory directory' : Path)
    {m k : ModuleName} (hm : Identifier m.text.toList) (hk : Identifier k.text.toList) :
    Identifier (ofTarget target).text.toList ∧
    (ofTarget target).text.length =
      (target.length + if startsWithDigit target.toList then 1 else 0) ∧
    (∃ kept, (ofTarget target).text.toList =
        (if startsWithDigit target.toList then ['_'] else []) ++ kept ∧
      List.Forall₂ StandsFor kept target.toList) ∧
    ofTarget m.text = m ∧
    ofTarget (ofTarget target).text = ofTarget target ∧
    (m.digestPath directory).IsEntryOf directory (m.text ++ ".json") ∧
    (directory.text ≠ "" →
      (m.digestPath ⟨directory.text ++ "/"⟩).IsEntryOf directory (m.text ++ ".json")) ∧
    ((m.digestPath directory).names = (k.digestPath directory).names → m = k) ∧
    ∀ (t : FileTree) (here p : Place), t.place? here (m.digestPath directory) = some p →
      p = FileTree.aim here directory ++ [m.text ++ ".json"] ∧
      (t.place? here (k.digestPath directory') = some p →
        m = k ∧ FileTree.aim here directory = FileTree.aim here directory') := by
  have hentry := isEntryOf_digestPath directory hm
  refine ⟨identifier_ofTarget named, length_ofTarget target, toList_ofTarget target,
    ofTarget_of_identifier hm, ofTarget_of_identifier (identifier_ofTarget named), hentry,
    fun nonempty => (isEntryOf_digestPath _ hm).of_slash nonempty, fun hnames => ?_,
    fun t here p hp => ?_⟩
  · rw [hentry.names, (isEntryOf_digestPath directory hk).names] at hnames
    exact FileTree.eq_of_digest (List.singleton_inj.1 (List.append_cancel_left hnames))
  · have hplace := FileTree.aim_of_place? hp
    rw [hentry.aim] at hplace
    refine ⟨hplace.symm, fun hp' => ?_⟩
    have hplace' := FileTree.aim_of_place? hp'
    rw [(isEntryOf_digestPath directory' hk).aim, ← hplace] at hplace'
    obtain ⟨hdirectory, hname⟩ := List.append_inj' hplace' rfl
    exact ⟨FileTree.eq_of_digest (List.singleton_inj.1 hname).symm, hdirectory.symm⟩

/-- A name with a digit at its start and a letter that is not of ASCII, and two ways to write a
directory. -/
theorem digest_keys_umlaut :
    let m : ModuleName := ⟨"_3d_k_"⟩
    let k : ModuleName := ⟨"Foo"⟩
    ofTarget "3d-kö" = m ∧ Identifier m.text.toList ∧ m.text.length = "3d-kö".length + 1 ∧
    ofTarget m.text = m ∧ (m.digestPath ⟨"b/"⟩).IsEntryOf ⟨"b/"⟩ "_3d_k_.json" ∧
    ∀ (t : FileTree) (here p : Place), t.place? here (m.digestPath ⟨"b/"⟩) = some p →
      t.place? here (k.digestPath ⟨"b"⟩) ≠ some p := by
  intro m k
  have hm : Identifier m.text.toList := isIdentifier_iff.1 (by decide)
  have hk : Identifier k.text.toList := isIdentifier_iff.1 (by decide)
  have hmade : ofTarget "3d-kö" = m := by decide
  obtain ⟨hidentifier, hlength, -, hsame, -, hentry, -, -, hplaces⟩ :=
    digest_keys (show "3d-kö" ≠ "" by decide) ⟨"b/"⟩ ⟨"b"⟩ hm hk
  rw [hmade] at hidentifier hlength
  refine ⟨hmade, hidentifier, hlength, hsame, hentry, fun t here p hp hp' => ?_⟩
  exact absurd ((hplaces t here p hp).2 hp').1 (by decide)

end ModuleName

end Breakage
