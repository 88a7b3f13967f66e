import Breakage.Proofs.Outcome
import Breakage.Proofs.Pool.Mirror
import Breakage.Proofs.Run.Faults
import Breakage.Proofs.Run.Likeness

/-!
What a digester does with one module is no matter to the others. As far as it is up to one module, the
files are where its own deeds have brought them (`Baseline.mirrors`, `Comparing.mirrors`), so that two
runs whose digesters agree on the module make the same digest for it (`Baseline.akin_dumpAll`) and
find the same for it (`Comparing.alike_compareAll`). Main statement: `run_siblings`.
-/

namespace Breakage

namespace Baseline

variable {g g' : Digester} {plan : BuildPlan} {directory : Path} {defined : ModuleSet} {k : ModuleName}

def ownDuty (g : Digester) (plan : BuildPlan) (directory : Path) (defined : ModuleSet) :
    Pool.Duty Host ModuleName Dumped where
  admits m _ := decide (m ∈ defined)
  refuse m h := h.removeFile (m.digestPath directory)
  call m h := g.dump m plan (m.digestPath directory) h
  report m answer h :=
    match answer with
    | .returned (.error _) => h.removeFile (m.digestPath directory)
    | _ => h
  settle _ _ _ h := h

theorem mirrors (agrees : g.AgreesOn g' k) (own : g.WritesOwn) (hk : k.isIdentifier = true)
    {jobs : List ModuleName} (identifiers : ∀ j ∈ jobs, j.isIdentifier = true) :
    (duty g plan directory defined).Mirrors (ownDuty g' plan directory defined) jobs k
      fun h w => h.Akin directory k w.session.host where
  admits _ _ _ := rfl
  answer h w akin _ := (agrees.dump directory plan _ h akin.symm).1
  own h w deed akin hjob _ := by
    cases deed with
    | refused m =>
      obtain rfl : m = k := hjob
      exact akin.removeDigest hk
    | admitted m | granted m | started task => exact akin
    | answered task a =>
      obtain rfl : task.job = k := hjob
      exact (agrees.dump directory plan _ h akin.symm).2.symm
    | reported task a =>
      obtain rfl : task.job = k := hjob
      rcases a with (e | ⟨⟨⟩⟩) | words
      · exact akin.removeDigest hk
      · exact akin
      · exact akin
    | joined task a => rcases a with (e | ⟨⟨⟩⟩) | words <;> exact akin
  others h w deed akin hmem hjob := by
    have hid := identifiers _ hmem
    cases deed with
    | refused m => exact akin.touch hid hjob (Host.touchesOnly_removeFile _ _)
    | admitted m | granted m | started task => exact akin
    | answered task a => exact akin.touch hid hjob (own.dump directory task.job plan _ hid)
    | reported task a =>
      rcases a with (e | ⟨⟨⟩⟩) | words
      · exact akin.touch hid hjob (Host.touchesOnly_removeFile _ _)
      · exact akin
      · exact akin
    | joined task a => rcases a with (e | ⟨⟨⟩⟩) | words <;> exact akin
  settle _ _ _ := rfl

theorem akin_sweep (hk : k.isIdentifier = true) {ms : List ModuleName} (nodup : ms.Nodup)
    (identifiers : ∀ j ∈ ms, j.isIdentifier = true) {h : Host} {w : Dumping}
    (akin : h.Akin directory k w.session.host) :
    (if k ∈ ms then h.removeFile (k.digestPath directory) else h).Akin directory k
      (ms.foldl (sweep directory) w).session.host := by
  induction ms generalizing h w with
  | nil => exact akin
  | cons j rest ih =>
    obtain ⟨hj, hrest⟩ := List.nodup_cons.1 nodup
    have hids : ∀ i ∈ rest, i.isIdentifier = true := fun i hi =>
      identifiers i (List.mem_cons_of_mem j hi)
    rw [List.foldl_cons]
    by_cases hjk : j = k
    · subst hjk
      have hswept := ih hrest hids (w := sweep directory w j) (akin.removeDigest hk)
      rw [if_neg hj] at hswept
      rwa [if_pos List.mem_cons_self]
    · have hswept := ih hrest hids (w := sweep directory w j)
        (akin.touch (identifiers j List.mem_cons_self) hjk (Host.touchesOnly_removeFile _ _))
      simpa [Ne.symm hjk] using hswept

theorem akin_afterTasks (hk : k.isIdentifier = true) {s : Session} {needed : ModuleSet}
    {ds : Dumping.History} {p : Pool Dumping ModuleName Dumped}
    (kept : Dumping.Kept directory s ds p.world) (covers : ds.Covers needed.toList)
    (started : p.started = ds.admitted) (identifiers : ∀ j ∈ needed, j.isIdentifier = true)
    {h : Host} {crashed : Bool}
    (hcrashed : crashed = true ↔ ∃ r ∈ ds.answers, r.1.job = k ∧ ∃ words, r.2 = .crashed words)
    (view : h.Akin directory k p.world.session.host) :
    (if crashed then h.removeFile (k.digestPath directory) else h).Akin directory k
      (afterTasks directory p).session.host := by
  let silent := (ModuleSet.ofList p.started).filter fun m => !p.world.dumps.isReported m
  have hids : ∀ j ∈ silent.toList, j.isIdentifier = true := by
    intro j hj
    obtain ⟨r, hr, rfl, -⟩ := (mem_silent kept covers started).1 (ModuleSet.mem_def.2 hj)
    exact identifiers _ (covers.mem_jobs_iff.2 (.inr ⟨r, hr, rfl⟩))
  have hsilent : k ∈ silent.toList ↔ crashed = true := by
    rw [← ModuleSet.mem_def, mem_silent kept covers started, hcrashed]
  have hswept := akin_sweep hk silent.nodup hids view
  simp only [hsilent] at hswept
  exact hswept

theorem akin_dumpAll {g₁ g₂ : Digester} (agrees : g₁.AgreesOn g₂ k) (own₁ : g₁.WritesOwn)
    (own₂ : g₂.WritesOwn) (hk : k.isIdentifier = true) {needed : ModuleSet}
    (identifiers : ∀ j ∈ needed, j.isIdentifier = true) {width : Nat}
    {schedule₁ schedule₂ : Pool.Schedule} {s t₁ t₂ : Session} {d₁ d₂ : Dumps}
    (run₁ : dumpAll g₁ plan directory defined needed width schedule₁ s = (.ok d₁, t₁))
    (run₂ : dumpAll g₂ plan directory defined needed width schedule₂ s = (.ok d₂, t₂)) :
    t₁.host.Akin directory k t₂.host ∧
      (k ∈ d₁.generationFailures ↔ k ∈ d₂.generationFailures) := by
  obtain ⟨ds₁, p₁, leads₁, covers₁, started₁, hend₁⟩ := leads_dumpAll run₁
  obtain ⟨ds₂, p₂, leads₂, covers₂, started₂, hend₂⟩ := leads_dumpAll run₂
  have kept₁ := Dumping.kept_of_leads g₁ plan defined leads₁
  have kept₂ := Dumping.kept_of_leads g₂ plan defined leads₂
  obtain ⟨concur, v, view₁, view₂⟩ := Pool.concur_of_leads (mirrors agrees own₁ hk identifiers)
    (mirrors agrees.self own₂ hk identifiers) needed.nodup (Host.Akin.refl directory k s.host)
    (Host.Akin.refl directory k s.host) leads₁ leads₂ covers₁ covers₂
  obtain ⟨crashed, hcrashed⟩ : ∃ crashed : Bool, crashed = true ↔
      ∃ r ∈ ds₁.answers, r.1.job = k ∧ ∃ words, r.2 = .crashed words := by
    classical exact ⟨decide _, decide_eq_true_iff⟩
  have hfiles₁ := akin_afterTasks hk kept₁ covers₁ started₁ identifiers hcrashed view₁
  have hfiles₂ := akin_afterTasks hk kept₂ covers₂ started₂ identifiers
    (hcrashed.trans (concur.exists_answer_iff fun a => ∃ words, a = .crashed words)) view₂
  have hfailed₁ := (counted_afterTasks kept₁ covers₁ started₁).generationFailures k
  have hfailed₂ := (counted_afterTasks kept₂ covers₂ started₂).generationFailures k
  rw [hend₁] at hfiles₁ hfailed₁
  rw [hend₂] at hfiles₂ hfailed₂
  have hsame := concur.exists_answer_iff (· ≠ .returned (.ok ()))
  exact ⟨hfiles₁.symm.trans hfiles₂, hfailed₁.trans (hsame.trans hfailed₂.symm)⟩

section

variable {c : Collaborators} {other : Digester} {modules : ModuleSet} {revision : Revision}
  {named : Option Path} {regenerate : Bool} {schedule schedule' : Pool.Schedule} {s t t' : Session}
  {b b' : Baseline}
  (run : prepare c modules revision named regenerate schedule s = (.ok b, t))
  (run' : prepare { c with digester := other } modules revision named regenerate schedule' s =
    (.ok b', t'))
include run run'

theorem directory_prepare : b'.directory = b.directory := by
  obtain ⟨u, hopened, -⟩ := prepare_eq_ok.1 run
  obtain ⟨u', hopened', -⟩ := prepare_eq_ok.1 run'
  exact Except.ok.inj (Prod.mk.inj (hopened'.symm.trans hopened)).1

theorem alike_prepare (language : other.language = c.digester.language)
    (agrees : c.digester.AgreesOn other k) (own : c.digester.WritesOwn) (own' : other.WritesOwn)
    (hk : k.isIdentifier = true) (identifiers : ∀ j ∈ modules, j.isIdentifier = true) :
    t.host.Alike b.directory.path k t'.host ∧
      (k ∈ b.dumps.generationFailures ↔ k ∈ b'.dumps.generationFailures) := by
  have hdirectory := directory_prepare run run'
  obtain ⟨u, hopened, hrest⟩ := prepare_eq_ok.1 run
  obtain ⟨u', hopened', hrest'⟩ := prepare_eq_ok.1 run'
  obtain rfl := (Prod.mk.inj (hopened'.symm.trans hopened)).2
  rw [hdirectory] at hrest'
  simp only at hrest hrest'
  split at hrest
  · rename_i hempty
    rw [if_pos hempty] at hrest'
    obtain ⟨hdumps, rfl⟩ := hrest
    obtain ⟨hdumps', rfl⟩ := hrest'
    rw [hdumps, hdumps']
    exact ⟨.refl _ _ _, Iff.rfl⟩
  · rename_i hempty
    rw [if_neg hempty] at hrest'
    obtain ⟨arrival, v, w, harrive, hdumps, rfl⟩ := hrest
    obtain ⟨arrival', v', w', harrive', hdumps', rfl⟩ := hrest'
    -- up to here the digester has had no part in it
    obtain ⟨harrival, rfl⟩ := Prod.mk.inj (harrive'.symm.trans harrive)
    obtain rfl := Except.ok.inj harrival
    rw [language] at hdumps'
    obtain ⟨hfiles, hfailed⟩ := akin_dumpAll agrees own own' hk
      (fun j hj => identifiers j (mem_needed.1 hj).1) hdumps hdumps'
    exact ⟨hfiles.toAlike.removeTree _, hfailed⟩

end

end Baseline

/-! ### Outcomes -/

inductive SameText : String → String → Prop where
  | refl (text : String) : SameText text text
  | crash (task task' : Nat) (words : String) :
    SameText (crashText task words) (crashText task' words)

/-- The outcomes have the same to say of the module. -/
structure Outcome.SameFor (k : ModuleName) (o o' : Outcome) : Prop where
  requested : o'.requested = o.requested
  skipped : o'.skipped.get? k = o.skipped.get? k
  failed : Option.Rel SameText (o.failed.get? k) (o'.failed.get? k)
  result : o'.result? k = o.result? k

structure ModuleEntry.Matches (e e' : ModuleEntry) : Prop where
  module : e'.module = e.module
  status : e'.status = e.status
  skipReason : e'.skipReason = e.skipReason
  error : Option.Rel SameText e.error e'.error
  breakingChanges : e'.breakingChanges = e.breakingChanges

namespace Outcome.SameFor

variable {k : ModuleName} {o o' : Outcome} (same : o.SameFor k o')
include same

theorem block_eq : Report.block o' k = Report.block o k := by
  rw [Report.block, Report.block, same.skipped, same.result]

theorem moduleEvents_eq : Report.moduleEvents o' k = Report.moduleEvents o k := by
  rw [Report.moduleEvents, Report.moduleEvents, same.skipped, same.result]

theorem entry : (ModuleEntry.ofOutcome o k).Matches (ModuleEntry.ofOutcome o' k) := by
  have hfailed := same.failed
  rw [ModuleEntry.ofOutcome, ModuleEntry.ofOutcome, same.skipped, same.result]
  cases o.skipped.get? k with
  | some reason => exact ⟨rfl, rfl, rfl, .none, rfl⟩
  | none =>
    generalize o.failed.get? k = f, o'.failed.get? k = f' at hfailed
    cases hfailed with
    | some htext => exact ⟨rfl, rfl, rfl, .some htext, rfl⟩
    | none => cases o.result? k <;> exact ⟨rfl, rfl, rfl, .none, rfl⟩

end Outcome.SameFor

namespace Comparing

variable {g g' : Digester} {plan : BuildPlan} {directory : Path} {allowlist : Allowlist}
  {generationFailures generationFailures' : ModuleSet} {k : ModuleName}

def ownDuty (g : Digester) (plan : BuildPlan) (directory : Path) (allowlist : Allowlist) :
    Pool.Duty Host ModuleName Answer where
  admits m h := h.exists? (m.digestPath directory)
  refuse _ h := h
  call m h := g.compare (m.digestPath directory) m plan allowlist.source h
  report _ _ h := h
  settle _ _ _ h := h

theorem mirrors (agrees : g.AgreesOn g' k) (own : g.WritesOwn) (hk : k.isIdentifier = true)
    {jobs : List ModuleName} (identifiers : ∀ j ∈ jobs, j.isIdentifier = true) :
    (duty g plan directory allowlist generationFailures).Mirrors
      (ownDuty g' plan directory allowlist) jobs k fun h w =>
        h.Alike directory k w.session.host where
  admits h w alike := alike.exists?_eq hk
  answer h w alike admits := by
    have present := (alike.exists?_eq hk).trans admits
    exact (agrees.compare directory plan _ _ h alike.symm present).1
  own h w deed alike hjob admits := by
    cases deed with
    | answered task a =>
      obtain rfl : task.job = k := hjob
      have present := (alike.exists?_eq hk).trans (admits task a rfl)
      exact (agrees.compare directory plan _ _ h alike.symm present).2.symm
    | reported task a => rcases a with (e | c) | words <;> exact alike
    | joined task a => rcases a with r | words <;> exact alike
    | _ => exact alike
  others h w deed alike hmem hjob := by
    cases deed with
    | answered task a =>
      have hid := identifiers _ hmem
      exact alike.touch hid hjob (own.compare directory task.job plan _ _ hid)
    | reported task a => rcases a with (e | c) | words <;> exact alike
    | joined task a => rcases a with r | words <;> exact alike
    | _ => exact alike
  settle _ _ _ := rfl

section

variable {s s' : Session} {modules : ModuleSet} {ds ds' : History} {w w' : Comparing}
  (kept : Kept directory allowlist generationFailures s ds w) (covers : ds.Covers modules.toList)
  (kept' : Kept directory allowlist generationFailures' s' ds' w')
  (covers' : ds'.Covers modules.toList) (concur : Pool.Concur k ds ds')
include kept covers kept' covers' concur

theorem failed_of_concur {text : String} (h : (w.outcome modules).failed.get? k = some text) :
    ∃ text', (w'.outcome modules).failed.get? k = some text' ∧ SameText text text' := by
  obtain ⟨⟨task, a⟩, hr, hj, hcause⟩ := (failed_outcome kept covers).1 h
  obtain ⟨task', hj', hr'⟩ := (concur.answers a).1 ⟨task, hj, hr⟩
  have hfailed (text' : String) (hcause' : cause? task'.number a = some text') :=
    (failed_outcome kept' covers').2 ⟨_, hr', hj', hcause'⟩
  rcases a with (e | c) | words
  · exact ⟨e.message, hfailed _ rfl, Option.some.inj hcause ▸ .refl _⟩
  · cases hcause
  · exact ⟨_, hfailed _ rfl, Option.some.inj hcause ▸ .crash _ _ _⟩

theorem result_of_concur {c : Comparison} (h : (w.outcome modules).result? k = some c) :
    (w'.outcome modules).result? k = some c := by
  rw [Outcome.result?_eq_some_iff (nodup_modules_results kept covers),
    mem_results_outcome kept covers] at h
  obtain ⟨⟨⟨task, a⟩, hr, hc⟩, hk⟩ := h
  obtain ⟨task', hj', hr'⟩ := (concur.answers a).1 ⟨task, (module_of_result? hc).symm.trans hk, hr⟩
  rw [Outcome.result?_eq_some_iff (nodup_modules_results kept' covers'),
    mem_results_outcome kept' covers']
  refine ⟨⟨_, hr', ?_⟩, hk⟩
  obtain ⟨found, ha, rfl⟩ := result?_eq_some_iff.1 hc
  exact result?_eq_some_iff.2 ⟨found, ha, by rw [hj', ← hk]⟩

theorem sameFor_of_concur (failures : k ∈ generationFailures ↔ k ∈ generationFailures') :
    (w.outcome modules).SameFor k (w'.outcome modules) where
  requested := rfl
  skipped := by
    have hreason : skipReason generationFailures k = skipReason generationFailures' k := by
      rw [skipReason, skipReason]
      simp only [failures]
    ext reason
    rw [skipped_outcome kept covers, skipped_outcome kept' covers', concur.refused, hreason]
  failed := by
    cases hf : (w.outcome modules).failed.get? k with
    | some text =>
      obtain ⟨text', hf', same⟩ := failed_of_concur kept covers kept' covers' concur hf
      rw [hf']
      exact .some same
    | none =>
      cases hf' : (w'.outcome modules).failed.get? k with
      | none => exact .none
      | some text' =>
        obtain ⟨text, ht, -⟩ := failed_of_concur kept' covers' kept covers concur.symm hf'
        rw [hf] at ht
        cases ht
  result := by
    ext c
    exact ⟨result_of_concur kept' covers' kept covers concur.symm,
      result_of_concur kept covers kept' covers' concur⟩

end

theorem alike_compareAll {g₁ g₂ : Digester} (agrees : g₁.AgreesOn g₂ k) (own₁ : g₁.WritesOwn)
    (own₂ : g₂.WritesOwn) (hk : k.isIdentifier = true) {modules : ModuleSet}
    (identifiers : ∀ j ∈ modules, j.isIdentifier = true) {width : Nat}
    {schedule₁ schedule₂ : Pool.Schedule} {s₁ s₂ t₁ t₂ : Session} {o₁ o₂ : Outcome}
    (alike : s₁.host.Alike directory k s₂.host)
    (failures : k ∈ generationFailures ↔ k ∈ generationFailures')
    (run₁ : compareAll g₁ plan directory allowlist generationFailures modules width schedule₁ s₁ =
      (.ok o₁, t₁))
    (run₂ : compareAll g₂ plan directory allowlist generationFailures' modules width schedule₂ s₂ =
      (.ok o₂, t₂)) :
    t₁.host.Alike directory k t₂.host ∧ o₁.SameFor k o₂ := by
  obtain ⟨ds₁, p₁, leads₁, covers₁, rfl, rfl⟩ := leads_compareAll run₁
  obtain ⟨ds₂, p₂, leads₂, covers₂, rfl, rfl⟩ := leads_compareAll run₂
  obtain ⟨concur, v, view₁, view₂⟩ := Pool.concur_of_leads (mirrors agrees own₁ hk identifiers)
    (mirrors agrees.self own₂ hk identifiers) modules.nodup (Host.Alike.refl directory k s₁.host)
    alike leads₁ leads₂ covers₁ covers₂
  exact ⟨view₁.symm.trans view₂, sameFor_of_concur (kept_of_leads g₁ plan leads₁) covers₁
    (kept_of_leads g₂ plan leads₂) covers₂ concur failures⟩

end Comparing

/-! ### A whole run -/

namespace Engine

variable {engine : Engine} {options : RunOptions} {timing : Timing} {s t : Session}

theorem prepare_withDigester {other : Digester}
    (same : other.language = engine.collaborators.digester.language) :
    (engine.withDigester other).prepare options = engine.prepare options := by
  simp only [prepare, selectModules_withDigester same]
  rfl

theorem outcome_run {r : RunReport} (run : engine.run timing options s = (.ok r, t)) :
    ∃ p u v w x, engine.prepare options s = (.ok p, u) ∧
      Baseline.prepare engine.collaborators p.modules p.revision options.baselineDirectory
        options.regenerate timing.dumps u = (.ok r.baseline, v) ∧
      w.host = v.host ∧
      compareAll engine.collaborators.digester p.plan r.baseline.directory.path p.allowlist
        r.baseline.dumps.generationFailures p.modules engine.collaborators.buildSystem.workers
        timing.comparisons w = (.ok r.outcome, x) ∧
      t.host = x.host ∧ r.report = .ofOutcome r.outcome := by
  obtain ⟨p, b, w, hready, hconclude⟩ := run_eq_ok.1 run
  obtain ⟨u, v, hp, hb, hw, -⟩ := ready_eq_ok.1 hready
  have hhost : w.host = v.host := by
    rw [← hw]
    rfl
  cases hconclude
  exact ⟨p, u, v, w, _, hp, hb, hhost, compareAll_of_ready hready, rfl, rfl⟩

end Engine

section

variable (engine : Engine) (options : RunOptions) (s : Session) (other : Digester) (m : ModuleName)

/-- What the digester does with one module is no matter to the others: if it is taken for another one
that agrees with it on all modules but this, then either both runs end in the same fault or both end
well, and of every other module they say the same, in whatever order things happen, and leave the
same digest. -/
theorem run_siblings (language : other.language = engine.collaborators.digester.language)
    (own : engine.collaborators.digester.WritesOwn) (own' : other.WritesOwn)
    (agrees : ∀ k : ModuleName, k ≠ m → k.isIdentifier = true →
      engine.collaborators.digester.AgreesOn other k)
    (identifiers : ∀ p u, engine.prepare options s = (.ok p, u) →
      ∀ k ∈ p.modules, k.isIdentifier = true) (timing timing' : Timing) :
    (∀ e t, (engine.withDigester other).run timing' options s = (.error e, t) ↔
      engine.run timing options s = (.error e, t)) ∧
    ∀ r t r' t', engine.run timing options s = (.ok r, t) →
      (engine.withDigester other).run timing' options s = (.ok r', t') →
        r'.baseline.directory = r.baseline.directory ∧
        r.report = .ofOutcome r.outcome ∧ r'.report = .ofOutcome r'.outcome ∧
        ∀ k : ModuleName, k ≠ m → k.isIdentifier = true →
          r.outcome.SameFor k r'.outcome ∧
          Report.block r'.outcome k = Report.block r.outcome k ∧
          Report.moduleEvents r'.outcome k = Report.moduleEvents r.outcome k ∧
          (ModuleEntry.ofOutcome r.outcome k).Matches (ModuleEntry.ofOutcome r'.outcome k) ∧
          t'.host.digest? r.baseline.directory.path k =
            t.host.digest? r.baseline.directory.path k := by
  refine ⟨fun _ _ => Engine.run_withDigester language, fun r t r' t' run run' => ?_⟩
  obtain ⟨p, u, v, w, x, hp, hb, hw, hcompared, hx, hreport⟩ := Engine.outcome_run run
  obtain ⟨p', u', v', w', x', hp', hb', hw', hcompared', hx', hreport'⟩ := Engine.outcome_run run'
  rw [Engine.prepare_withDigester language] at hp'
  obtain ⟨hprepared, rfl⟩ := Prod.mk.inj (hp'.symm.trans hp)
  obtain rfl := Except.ok.inj hprepared
  have hidentifiers := identifiers _ _ hp
  have hdirectory := Baseline.directory_prepare hb hb'
  refine ⟨hdirectory, hreport, hreport', fun k hkm hk => ?_⟩
  obtain ⟨hready, hfailures⟩ :=
    Baseline.alike_prepare hb hb' language (agrees k hkm hk) own own' hk hidentifiers
  rw [← hw, ← hw'] at hready
  rw [hdirectory] at hcompared'
  obtain ⟨hfiles, same⟩ := Comparing.alike_compareAll (agrees k hkm hk) own own' hk hidentifiers
    hready hfailures hcompared hcompared'
  rw [hx, hx']
  exact ⟨same, same.block_eq, same.moduleEvents_eq, same.entry, hfiles.digest?_eq hk⟩

end

/-- The dump of one of two modules crashes, with the other module as before. -/
theorem run_siblings_crash :
    let script := Rehearsal.ScriptedDigester.plain.addBreaking ⟨"Bar"⟩ ["func gone() has been removed"]
    let crashing := { script with crashingDumps := [⟨"Foo"⟩] }
    let engine : Engine := ⟨⟨"/"⟩, Rehearsal.collaborators script ["Bar", "Foo"] ["Bar", "Foo"]⟩
    let options : RunOptions := ⟨"main", [], [], some ⟨"/"⟩, none, false⟩
    let s := .ofHost (Rehearsal.machine [(["tmp"], .directory)])
    ∃ r t r' t', engine.run .plain options s = (.ok r, t) ∧
      (engine.withDigester crashing.digester).run ⟨fun _ => 1, fun _ => 2⟩ options s = (.ok r', t') ∧
      r.outcome.skipped.get? ⟨"Foo"⟩ = none ∧
      r'.outcome.skipped.get? ⟨"Foo"⟩ = some .generationFailed ∧
      r'.outcome.result? ⟨"Bar"⟩ = r.outcome.result? ⟨"Bar"⟩ ∧
      t'.host.digest? r.baseline.directory.path ⟨"Bar"⟩ =
        t.host.digest? r.baseline.directory.path ⟨"Bar"⟩ := by
  intro script crashing engine options s
  have hidentifiers : ∀ p u, engine.prepare options s = (.ok p, u) →
      ∀ k ∈ p.modules, k.isIdentifier = true := by
    intro p u hp k hk
    have hcheck : ((engine.prepare options s).1.toOption.any fun p =>
      p.modules.toList.all ModuleName.isIdentifier) = true := by decide +kernel
    rw [hp] at hcheck
    exact List.all_eq_true.1 hcheck k (ModuleSet.mem_def.1 hk)
  have hcrashing : ∀ k : ModuleName, k ≠ ⟨"Foo"⟩ →
      (k ∈ crashing.crashingDumps ↔ k ∈ script.crashingDumps) := fun k hk =>
    iff_of_false (mt List.mem_singleton.1 hk) List.not_mem_nil
  have hsiblings := run_siblings engine options s crashing.digester ⟨"Foo"⟩ rfl script.writesOwn
    crashing.writesOwn
    (fun k hk hid => Rehearsal.ScriptedDigester.agreesOn hid rfl Iff.rfl (hcrashing k hk))
    hidentifiers .plain ⟨fun _ => 1, fun _ => 2⟩
  have hcheck : ((engine.run .plain options s).1.toOption.any fun r =>
    decide (r.outcome.skipped.get? ⟨"Foo"⟩ = none)) = true := by decide +kernel
  have hcheck' : (((engine.withDigester crashing.digester).run ⟨fun _ => 1, fun _ => 2⟩ options
    s).1.toOption.any fun r => decide (r.outcome.skipped.get? ⟨"Foo"⟩ = some .generationFailed)) =
      true := by decide +kernel
  rcases hrun : engine.run .plain options s with ⟨e | r, t⟩
  · rw [hrun] at hcheck
    cases hcheck
  rcases hrun' : (engine.withDigester crashing.digester).run ⟨fun _ => 1, fun _ => 2⟩ options s
    with ⟨e | r', t'⟩
  · rw [hrun'] at hcheck'
    cases hcheck'
  rw [hrun] at hcheck
  rw [hrun'] at hcheck'
  have hsibling := (hsiblings.2 r t r' t' hrun hrun').2.2.2 ⟨"Bar"⟩ (by decide) (by decide)
  exact ⟨r, t, r', t', rfl, rfl, of_decide_eq_true hcheck, of_decide_eq_true hcheck',
    hsibling.1.result, hsibling.2.2.2.2⟩

end Breakage
