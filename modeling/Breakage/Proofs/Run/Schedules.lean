import Breakage.Proofs.Outcome
import Breakage.Proofs.Run.Comparing

/-!
Comparing the same modules twice, with other widths and other orders of events. Where the answers of
the digester are the same, so are the calls with their answers, up to their order (`answers_perm`), and
an outcome depends on nothing else (`agrees_of_answers`). Tasks are numbered in the order of the
modules, which makes even the texts of crashes the same. Main statement:
`compareAll_schedule_independent`.
-/

namespace Breakage

namespace Comparing

variable {digester : Digester} {plan : BuildPlan} {directory : Path} {allowlist : Allowlist}
  {generationFailures modules : ModuleSet}

/-- The digester gives these answers, whatever the machine is like when it is called. -/
def Answers (digester : Digester) (plan : BuildPlan) (directory : Path) (allowlist : Allowlist)
    (modules : ModuleSet) (answer : ModuleName → Answer) : Prop :=
  ∀ m ∈ modules, ∀ h,
    (digester.compare (m.digestPath directory) m plan allowlist.source h).1 = answer m

theorem agrees_of_answers {directory' : Path} {s₁ s₂ : Session} {ds₁ ds₂ : History}
    {w₁ w₂ : Comparing} (kept₁ : Kept directory allowlist generationFailures s₁ ds₁ w₁)
    (kept₂ : Kept directory' allowlist generationFailures s₂ ds₂ w₂)
    (covers₁ : ds₁.Covers modules.toList) (covers₂ : ds₂.Covers modules.toList)
    (answers : ds₁.answers.Perm ds₂.answers) (refused : ∀ m, m ∈ ds₁.refused ↔ m ∈ ds₂.refused) :
    (w₁.outcome modules).Agrees (w₂.outcome modules) where
  requested := rfl
  skipped := by
    apply ModuleMap.ext_get?
    intro m reason
    rw [skipped_outcome kept₁ covers₁, skipped_outcome kept₂ covers₂, refused]
  failed := by
    apply ModuleMap.ext_get?
    intro m text
    simp only [failed_outcome kept₁ covers₁, failed_outcome kept₂ covers₂, answers.mem_iff]
  results :=
    (results_outcome kept₁ covers₁).trans
      ((answers.filterMap _).trans (results_outcome kept₂ covers₂).symm)

theorem answers_perm {answer : ModuleName → Answer}
    (fixed : Answers digester plan directory allowlist modules answer) {s : Session} {ds : History}
    {width : Nat} {p : Pool Comparing ModuleName Answer}
    (leads : Pool.Leads (duty digester plan directory allowlist generationFailures)
      (Pool.init (.ofSession s) width modules.toList) ds p)
    (covers : ds.Covers modules.toList) {present : ModuleName → Bool} (sorts : ds.Sorts present) :
    ds.answers.Perm ((Pool.numbered (modules.toList.filter present)).map fun task =>
      (task, answer task.job)) := by
  refine covers.answers_perm sorts fun r hr => ?_
  obtain ⟨host, hanswer⟩ := genuine_of_leads leads r hr
  rw [hanswer, fixed r.1.job (covers.mem_jobs_iff.2 (.inr ⟨r, hr, rfl⟩))]

end Comparing

/-- Neither the width nor the order of events has a part in what comes of comparing modules: the
outcome is the same but for the order of its results, the report and its events, the verdict and the
summary are the same, and the errors shown are the same in some order. -/
theorem compareAll_schedule_independent {digester : Digester} {plan : BuildPlan} {directory : Path}
    {allowlist : Allowlist} {generationFailures modules : ModuleSet}
    {answer : ModuleName → Comparing.Answer} {width₁ width₂ : Nat}
    {schedule₁ schedule₂ : Pool.Schedule} {s₁ s₂ t₁ t₂ : Session} {o₁ o₂ : Outcome}
    (unchanged : digester.KeepsDigests directory)
    (fixed : Comparing.Answers digester plan directory allowlist modules answer)
    (digests : ∀ m ∈ modules,
      s₁.host.exists? (m.digestPath directory) = s₂.host.exists? (m.digestPath directory))
    (run₁ : compareAll digester plan directory allowlist generationFailures modules width₁ schedule₁
      s₁ = (.ok o₁, t₁))
    (run₂ : compareAll digester plan directory allowlist generationFailures modules width₂ schedule₂
      s₂ = (.ok o₂, t₂)) :
    o₁.requested = o₂.requested ∧ o₁.skipped = o₂.skipped ∧ o₁.failed = o₂.failed ∧
      o₁.results.Perm o₂.results ∧
      Report.ofOutcome o₁ = Report.ofOutcome o₂ ∧ Report.events o₁ = Report.events o₂ ∧
      Verdict.ofOutcome o₁ = Verdict.ofOutcome o₂ ∧
      (∀ now treeish revision verdict,
        (Summary.ofOutcome now treeish revision o₁ verdict).modules =
          (Summary.ofOutcome now treeish revision o₂ verdict).modules) ∧
      ∃ errors₁ errors₂, t₁.journal.events = s₁.journal.events ++ errors₁ ∧
        t₂.journal.events = s₂.journal.events ++ errors₂ ∧ errors₁.Perm errors₂ := by
  obtain ⟨ds₁, p₁, leads₁, covers₁, rfl, rfl⟩ := Comparing.leads_compareAll run₁
  obtain ⟨ds₂, p₂, leads₂, covers₂, rfl, rfl⟩ := Comparing.leads_compareAll run₂
  have kept₁ := Comparing.kept_of_leads digester plan leads₁
  have kept₂ := Comparing.kept_of_leads digester plan leads₂
  have sorts₁ := Comparing.sorts_of_leads unchanged leads₁
  have sorts₂ := Comparing.sorts_of_leads unchanged leads₂
  have answers₁ := Comparing.answers_perm fixed leads₁ covers₁ sorts₁
  have answers₂ := Comparing.answers_perm fixed leads₂ covers₂ sorts₂
  -- both runs call the same modules, and so come by the same answers
  have present : modules.toList.filter (fun m => s₁.host.exists? (m.digestPath directory)) =
      modules.toList.filter fun m => s₂.host.exists? (m.digestPath directory) :=
    List.filter_congr digests
  rw [present] at answers₁
  have agrees := Comparing.agrees_of_answers kept₁ kept₂ covers₁ covers₂
    (answers₁.trans answers₂.symm) fun m => by
      rw [covers₁.mem_refused_iff sorts₁, covers₂.mem_refused_iff sorts₂]
      exact and_congr_right fun hm => by rw [digests m hm]
  have nodup := Comparing.nodup_modules_results kept₁ covers₁
  refine ⟨rfl, agrees.skipped, agrees.failed, agrees.results, agrees.report_eq nodup,
    agrees.events_eq nodup, agrees.verdict_eq nodup, agrees.modules_summary_eq nodup, _, _,
    (congrArg Journal.events kept₁.journal).trans (Journal.events_emitAll _ _),
    (congrArg Journal.events kept₂.journal).trans (Journal.events_emitAll _ _), ?_⟩
  refine (Comparing.events_perm kept₁ covers₁).trans ?_
  rw [agrees.failed]
  exact (Comparing.events_perm kept₂ covers₂).symm

/-- Three modules, one at a time and all at once, of which one has no digest and the comparison of
another one crashes. -/
theorem compareAll_schedule_independent_crash :
    let digester := (Rehearsal.ScriptedDigester.plain.setPart ⟨"Bar"⟩ .crash).digester
    let files := [(["Bar.json"], .file (.text "")), (["Foo.json"], .file (.text ""))]
    let compare (width : Nat) (schedule : Pool.Schedule) :=
      compareAll digester ⟨⟨"."⟩, ⟨".build"⟩⟩ ⟨"/"⟩ .empty .empty
        (.ofList [⟨"Foo"⟩, ⟨"Bar"⟩, ⟨"Baz"⟩]) width schedule (.ofHost (Rehearsal.machine files))
    ∃ o₁ o₂ t₁ t₂, compare 1 (fun _ => 0) = (.ok o₁, t₁) ∧ compare 3 (fun n => n) = (.ok o₂, t₂) ∧
      o₁.failed = o₂.failed ∧ o₁.results.Perm o₂.results ∧
      Verdict.ofOutcome o₁ = Verdict.ofOutcome o₂ := by
  intro digester files compare
  have hfixed : Comparing.Answers digester ⟨⟨"."⟩, ⟨".build"⟩⟩ ⟨"/"⟩ .empty
      (.ofList [⟨"Foo"⟩, ⟨"Bar"⟩, ⟨"Baz"⟩])
      (Rehearsal.ScriptedDigester.plain.setPart ⟨"Bar"⟩ .crash).comparison := fun _ _ _ => rfl
  have run₁ : compare 1 (fun _ => 0) = (.ok _, _) := Run.pooled_eq_ok.2 ⟨by decide, rfl⟩
  have run₂ : compare 3 (fun n => n) = (.ok _, _) := Run.pooled_eq_ok.2 ⟨by decide, rfl⟩
  obtain ⟨-, -, hfailed, hresults, -, -, hverdict, -⟩ := compareAll_schedule_independent
    (Rehearsal.ScriptedDigester.keepsDigests _ ⟨"/"⟩) hfixed (fun _ _ => rfl) run₁ run₂
  exact ⟨_, _, _, _, run₁, run₂, hfailed, hresults, hverdict⟩

end Breakage
