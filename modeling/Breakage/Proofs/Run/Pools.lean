import Breakage.Proofs.Pool.Permits
import Breakage.Proofs.Run.Engine

/-!
The pool in which modules are compared and the one in which digests are made, in every state that
they can come to; a run that ends well has gone through such states, with as many permits as the build
tool has workers (`Engine.run_reaches`). Main statements: `pools_allot` (no more calls at a time than
there are permits, and no permit is lost) and `pools_proceed` (neither pool is ever stuck, and when
nothing is left to do every module is accounted for; a pool that is too large is never made).
-/

namespace Breakage

variable (digester : Digester) (plan : BuildPlan) (directory : Path) (allowlist : Allowlist)
  (generationFailures defined modules : ModuleSet) (width : Nat) (s : Session)

def Comparing.Reaches (ds : Comparing.History) (p : Pool Comparing ModuleName Answer) : Prop :=
  Pool.Leads (duty digester plan directory allowlist generationFailures) (start s width modules) ds p

def Baseline.Dumping.Reaches (ds : Dumping.History) (p : Pool Dumping ModuleName Dumped) : Prop :=
  Pool.Leads (duty digester plan directory defined) (start s width modules) ds p

/-- Both pools have as many permits as the width says, one at least. A task has one from its start to
its end, whether it ends with an answer, with an error or in a crash; all others are free, but for
one that the driver may have for the next task. So there are never more calls at a time. What a pool
is for is read off such a state when it is returned. -/
theorem pools_allot :
    (∀ ds p, Comparing.Reaches digester plan directory allowlist generationFailures modules width s
        ds p →
      Pool.Allots (Comparing.duty digester plan directory allowlist generationFailures) width ds p) ∧
    (∀ ds p, Baseline.Dumping.Reaches digester plan directory defined modules width s ds p →
      Pool.Allots (Baseline.duty digester plan directory defined) width ds p) ∧
    (∀ schedule o t, compareAll digester plan directory allowlist generationFailures modules width
        schedule s = (.ok o, t) →
      ∃ ds p, Comparing.Reaches digester plan directory allowlist generationFailures modules width s
        ds p ∧ p.world.outcome modules = o ∧ p.world.session = t) ∧
    (∀ schedule d t, Baseline.dumpAll digester plan directory defined modules width schedule s =
        (.ok d, t) →
      ∃ ds p, Baseline.Dumping.Reaches digester plan directory defined modules width s ds p ∧
        Baseline.afterTasks directory p = ⟨t, d⟩) := by
  refine ⟨fun _ _ => Pool.allots_of_leads, fun _ _ => Pool.allots_of_leads, fun schedule o t run => ?_,
    fun schedule d t run => ?_⟩
  · obtain ⟨ds, p, leads, -, ho, ht⟩ := Comparing.leads_compareAll run
    exact ⟨ds, p, leads, ho, ht⟩
  · obtain ⟨ds, p, leads, -, -, hend⟩ := Baseline.leads_dumpAll run
    exact ⟨ds, p, leads, hend⟩

/-- One comparison at a time; the first has crashed while the driver waits for the permit. -/
theorem pools_allot_crash :
    let digester := (Rehearsal.ScriptedDigester.plain.setPart ⟨"Bar"⟩ .crash).digester
    let files := [(["Bar.json"], .file (.text "")), (["Foo.json"], .file (.text ""))]
    let duty := Comparing.duty digester ⟨⟨"."⟩, ⟨".build"⟩⟩ ⟨"/"⟩ .empty .empty
    let modules := ModuleSet.ofList [⟨"Foo"⟩, ⟨"Bar"⟩]
    let s := Session.ofHost (Rehearsal.machine files)
    let p := Pool.runFrom duty (fun _ => 0) 5 0 (Comparing.start s 0 modules)
    p.driver = .waiting ⟨"Foo"⟩ ∧ p.calling = [] ∧ p.holders = [⟨0, ⟨"Bar"⟩⟩] ∧
      p.free + p.held + p.holders.length = 1 := by
  intro digester files duty modules s p
  have h := (pools_allot digester ⟨⟨"."⟩, ⟨".build"⟩⟩ ⟨"/"⟩ .empty .empty .empty modules 0 s).1 _ p
    (Pool.leads_historyFrom duty (fun _ => 0) 5 0 _)
  exact ⟨by decide +kernel, by decide +kernel, by decide +kernel, h.total⟩

/-- In a run the pools have a permit for each worker of the build tool. -/
theorem Engine.run_reaches {engine : Engine} {timing : Timing} {options : RunOptions} {s t : Session}
    {report : RunReport} (run : engine.run timing options s = (.ok report, t)) :
    let c := engine.collaborators
    let directory := report.baseline.directory.path
    ∃ p u, engine.ready timing options s = (.ok (p, report.baseline), u) ∧
      (∃ ds q, Comparing.Reaches c.digester p.plan directory p.allowlist
        report.baseline.dumps.generationFailures p.modules c.buildSystem.workers u ds q ∧
          q.world.outcome p.modules = report.outcome) ∧
      (report.baseline.dumps = .none ∨ ∃ plan defined needed v ds q,
        Baseline.Dumping.Reaches c.digester plan directory defined needed c.buildSystem.workers v ds q ∧
          (Baseline.afterTasks directory q).dumps = report.baseline.dumps) := by
  intro c directory
  obtain ⟨p, b, u, reached, concluded⟩ := run_eq_ok.1 run
  cases concluded
  obtain ⟨ds, q, leads, -, ho, -⟩ := Comparing.leads_compareAll (compareAll_of_ready reached)
  refine ⟨p, u, reached, ⟨ds, q, leads, ho⟩, ?_⟩
  obtain ⟨_, _, -, hb, -, -⟩ := ready_eq_ok.1 reached
  obtain ⟨w, -, hrest⟩ := Baseline.prepare_eq_ok.1 hb
  simp only at hrest
  split at hrest
  · exact .inl hrest.1
  · obtain ⟨arrival, v, v', -, hdumps, -⟩ := hrest
    obtain ⟨ds, q, leads, -, -, hend⟩ := Baseline.leads_dumpAll hdumps
    exact .inr ⟨_, _, _, v, ds, q, leads, congrArg Baseline.Dumping.dumps hend⟩

/-- While anything is to be done in one of the pools, some step is possible; each step lowers the
measure. When no step is left, all tasks have been joined, and if there can be a pool of this width,
what it was for is returned with each module in one place. Otherwise nothing at all is done. -/
theorem pools_proceed :
    (∀ ds p, Comparing.Reaches digester plan directory allowlist generationFailures modules width s
        ds p →
      let duty := Comparing.duty digester plan directory allowlist generationFailures
      Pool.Proceeds duty modules.toList.length ds p ∧
        (width ≤ Pool.widthLimit → (∀ q, ¬Pool.Step duty p q) → ∃ schedule o,
          compareAll digester plan directory allowlist generationFailures modules width schedule s =
            (.ok o, p.world.session) ∧ o = p.world.outcome modules ∧ o.requested = modules ∧
          ∀ m, (o.skipped.contains m).toNat + (o.failed.contains m).toNat +
            (o.results.map Comparison.module).count m = if m ∈ modules then 1 else 0)) ∧
    (∀ ds p, Baseline.Dumping.Reaches digester plan directory defined modules width s ds p →
      let duty := Baseline.duty digester plan directory defined
      Pool.Proceeds duty modules.toList.length ds p ∧
        (width ≤ Pool.widthLimit → (∀ q, ¬Pool.Step duty p q) → ∃ schedule d t,
          Baseline.dumpAll digester plan directory defined modules width schedule s = (.ok d, t) ∧
          ⟨t, d⟩ = Baseline.afterTasks directory p ∧
          ∀ m, (decide (m ∈ d.dumped)).toNat + (decide (m ∈ d.generationFailures)).toNat +
            (decide (m ∈ d.notInBaseline)).toNat = if m ∈ modules then 1 else 0)) ∧
    (Pool.widthLimit < width → ∀ schedule,
      compareAll digester plan directory allowlist generationFailures modules width schedule s =
        (.error .overload, s) ∧
      Baseline.dumpAll digester plan directory defined modules width schedule s =
        (.error .overload, s)) := by
  refine ⟨?_, ?_, fun beyond schedule => ?_⟩
  · intro ds p leads duty
    refine ⟨Pool.proceeds_of_leads leads, fun within stop => ?_⟩
    have covers := (Pool.books_of_leads leads).covers (Pool.isDone_of_stop leads stop)
    have kept := Comparing.kept_of_leads digester plan leads
    obtain ⟨schedule, hrun⟩ := leads.exists_schedule (Pool.moves_eq_nil_iff.2 stop)
    refine ⟨schedule, _, Run.pooled_eq_ok.2 ⟨within, ?_⟩, rfl, rfl, Comparing.places_outcome kept covers⟩
    simp only [hrun]
  · intro ds p leads duty
    refine ⟨Pool.proceeds_of_leads leads, fun within stop => ?_⟩
    have done := Pool.isDone_of_stop leads stop
    have books := Pool.books_of_leads leads
    have covers := books.covers done
    have kept := Baseline.Dumping.kept_of_leads digester plan defined leads
    have counted := Baseline.counted_afterTasks kept covers (books.started_eq done)
    obtain ⟨schedule, hrun⟩ := leads.exists_schedule (Pool.moves_eq_nil_iff.2 stop)
    let w := Baseline.afterTasks directory p
    refine ⟨schedule, w.dumps, w.session, Run.pooled_eq_ok.2 ⟨within, ?_⟩, rfl, counted.places covers⟩
    simp only [hrun, w]
  · exact ⟨Run.pooled_eq_error.2 ⟨beyond, rfl, rfl⟩, Run.pooled_eq_error.2 ⟨beyond, rfl, rfl⟩⟩

/-- Of two comparisons, one at a time, one crashes; the pool on its way, and at its end. -/
theorem pools_proceed_crash :
    let digester := (Rehearsal.ScriptedDigester.plain.setPart ⟨"Bar"⟩ .crash).digester
    let files := [(["Bar.json"], .file (.text "")), (["Foo.json"], .file (.text ""))]
    let duty := Comparing.duty digester ⟨⟨"."⟩, ⟨".build"⟩⟩ ⟨"/"⟩ .empty .empty
    let modules := ModuleSet.ofList [⟨"Foo"⟩, ⟨"Bar"⟩]
    let s := Session.ofHost (Rehearsal.machine files)
    let p (moves : Nat) := Pool.runFrom duty (fun _ => 0) moves 0 (Comparing.start s 0 modules)
    (p 5).isDone = false ∧ (∃ q, Pool.Step duty (p 5) q) ∧ (∀ q, ¬Pool.Step duty (p 12) q) ∧
      ∃ schedule o t, compareAll digester ⟨⟨"."⟩, ⟨".build"⟩⟩ ⟨"/"⟩ .empty .empty modules 0 schedule s =
        (.ok o, t) ∧ (o.failed.get? ⟨"Bar"⟩).isSome = true := by
  intro digester files duty modules s p
  have proceed (moves : Nat) :=
    (pools_proceed digester ⟨⟨"."⟩, ⟨".build"⟩⟩ ⟨"/"⟩ .empty .empty .empty modules 0 s).1 _ (p moves)
      (Pool.leads_historyFrom duty (fun _ => 0) moves 0 _)
  have hrunning : (p 5).isDone = false := by decide +kernel
  have hstop : ∀ q, ¬Pool.Step duty (p 12) q := Pool.moves_eq_nil_iff.1 (by decide +kernel)
  obtain ⟨schedule, o, hrun, rfl, -⟩ := (proceed 12).2 (by decide) hstop
  exact ⟨hrunning, (proceed 5).1.enabled hrunning, hstop, schedule, _, _, hrun, by decide +kernel⟩

/-- With a permit too many, neither is the one module compared that has its digest, nor is the digest
made of the one that the baseline defines. -/
theorem pools_overloaded :
    let digester := Rehearsal.ScriptedDigester.plain.digester
    let modules := ModuleSet.ofList [⟨"Foo"⟩]
    let s := Session.ofHost (Rehearsal.machine [(["Foo.json"], .file (.text ""))])
    (¬∃ schedule o t, compareAll digester ⟨⟨"."⟩, ⟨".build"⟩⟩ ⟨"/"⟩ .empty .empty modules
      2305843009213693952 schedule s = (.ok o, t)) ∧
    ¬∃ schedule d t, Baseline.dumpAll digester ⟨⟨"."⟩, ⟨".build"⟩⟩ ⟨"/"⟩ modules modules
      2305843009213693952 schedule s = (.ok d, t) := by
  intro digester modules s
  have beyond : ¬2305843009213693952 ≤ Pool.widthLimit := by decide
  refine ⟨?_, ?_⟩
  · rintro ⟨schedule, o, t, run⟩
    exact beyond (Run.pooled_eq_ok.1 run).1
  · rintro ⟨schedule, d, t, run⟩
    exact beyond (Run.pooled_eq_ok.1 run).1

end Breakage
