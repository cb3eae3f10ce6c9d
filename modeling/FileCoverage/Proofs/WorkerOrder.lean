import FileCoverage.Proofs.TargetResult
import Mathlib.Data.List.Perm.Basic

/-!
# The order in which workers finish

As long as no target has ended the run, processes are never refused, so what a worker finds out
about a target is what the target comes to alone.  Every target waits, is with a worker, or is over,
as often as it was asked for; and every action brings the end of the run one action nearer.  So each
schedule leads to the same results.
-/

namespace FileCoverage

namespace Pool

/-- The number of actions until the run is over. -/
def remaining (p : Pool) : Nat := 2 * p.waiting.length + p.running.length

/-- Nothing has ended the run so far, and nothing that is over depends on the schedule. -/
structure Undisturbed (r : Runner) (context : RunContext) (targets : List TestTarget) (p : Pool) :
    Prop where
  accepts : p.refuses = false
  unrefused : ∀ pair ∈ p.running, pair.2 = false
  alone : ∀ pair ∈ p.completed, pair.2 = (r.reopen.runTarget context pair.1).outcome
  perm : (p.waiting ++ p.running.map (·.1) ++ p.completed.map (·.1)).Perm targets

variable {r : Runner} {context : RunContext} {workers : Nat} {targets : List TestTarget}
  {p q : Pool}

theorem undisturbed_start (r : Runner) (context : RunContext) (targets : List TestTarget) :
    (start targets).Undisturbed r context targets where
  accepts := rfl
  unrefused := by simp [start]
  alone := by simp [start]
  perm := by simp [start]

namespace Undisturbed

theorem take {target : TestTarget} {rest : List TestTarget} (h : p.Undisturbed r context targets)
    (waiting : p.waiting = target :: rest) :
    { p with waiting := rest, running := p.running ++ [(target, p.refuses)] }.Undisturbed
      r context targets where
  accepts := h.accepts
  unrefused := by
    intro pair mem
    rcases List.mem_append.1 mem with old | new
    · exact h.unrefused pair old
    · rw [List.mem_singleton.1 new]
      exact h.accepts
  alone := h.alone
  perm := by
    refine List.Perm.trans ?_ h.perm
    rw [waiting, List.map_append, List.map_singleton]
    apply List.Perm.append_right
    rw [← List.append_assoc]
    exact List.perm_append_singleton target _

theorem finish {place : Nat} {target : TestTarget} {refused : Bool}
    (h : p.Undisturbed r context targets) (busy : p.running[place]? = some (target, refused)) :
    { p with
      running := p.running.eraseIdx place
      completed := p.completed ++
        [(target, ({ r with refuses := refused }.runTarget context target).outcome)] }.Undisturbed
      r context targets where
  accepts := h.accepts
  unrefused := fun pair mem => h.unrefused pair (List.mem_of_mem_eraseIdx mem)
  alone := by
    intro pair mem
    rcases List.mem_append.1 mem with old | new
    · exact h.alone pair old
    · obtain rfl : refused = false := h.unrefused _ (List.mem_of_getElem? busy)
      rw [List.mem_singleton.1 new]
      rfl
  perm := by
    refine List.Perm.trans ?_ h.perm
    obtain ⟨lt, at_place⟩ := List.getElem?_eq_some_iff.1 busy
    have moved : (target :: (p.running.eraseIdx place).map (·.1)).Perm (p.running.map (·.1)) := by
      have perm := (List.getElem_cons_eraseIdx_perm lt).map (·.1)
      rw [at_place] at perm
      exact perm
    rw [List.map_append, List.map_singleton, List.append_assoc, List.append_assoc]
    apply List.Perm.append_left
    rw [← List.append_assoc]
    exact (List.perm_append_singleton target _).trans (moved.append_right _)

end Undisturbed

theorem Undisturbed.isOk_of_mem_completed (h : p.Undisturbed r context targets)
    (returns : r.reopen.Returns context targets)
    {pair : TestTarget × Except Abort RunResult} (mem : pair ∈ p.completed) :
    ∃ result, pair.2 = .ok result := by
  have asked : pair.1 ∈ targets :=
    h.perm.mem_iff.1 (List.mem_append_right _ (List.mem_map_of_mem mem))
  rw [h.alone pair mem]
  exact returns pair.1 asked

theorem Undisturbed.step {a : Action} (h : p.Undisturbed r context targets)
    (returns : r.reopen.Returns context targets)
    (possible : p.step? r context workers a = some q) :
    q.Undisturbed r context targets ∧ q.remaining + 1 = p.remaining := by
  cases a with
  | take =>
      rw [step?] at possible
      split at possible
      · next target rest waiting =>
          split at possible
          · obtain rfl := Option.some.inj possible
            refine ⟨h.take waiting, ?_⟩
            simp only [remaining, waiting, List.length_append, List.length_cons, List.length_nil]
            omega
          · cases possible
      · cases possible
  | finish place =>
      rw [step?] at possible
      split at possible
      · next target refused busy =>
          obtain rfl := Option.some.inj possible
          obtain ⟨lt, _⟩ := List.getElem?_eq_some_iff.1 busy
          refine ⟨h.finish busy, ?_⟩
          simp only [remaining, List.length_eraseIdx_of_lt lt]
          omega
      · cases possible
  | cancel =>
      rw [step?] at possible
      split at possible
      · next failed =>
          -- There is nothing to notice: whatever is over has come to a result.
          obtain ⟨pair, mem, error⟩ := List.any_eq_true.1 failed
          obtain ⟨result, ok⟩ := h.isOk_of_mem_completed returns mem
          rw [ok] at error
          cases error
      · cases possible

theorem Undisturbed.after {schedule : List Action} (h : p.Undisturbed r context targets)
    (returns : r.reopen.Returns context targets)
    (possible : p.after? r context workers schedule = some q) :
    q.Undisturbed r context targets ∧ q.remaining + schedule.length = p.remaining := by
  induction schedule generalizing p with
  | nil =>
      obtain rfl := Option.some.inj possible
      exact ⟨h, rfl⟩
  | cons a schedule ih =>
      obtain ⟨next, first, rest⟩ := Option.bind_eq_some_iff.1 possible
      obtain ⟨undisturbed, nearer⟩ := h.step returns first
      obtain ⟨finished, count⟩ := ih undisturbed rest
      refine ⟨finished, ?_⟩
      rw [List.length_cons]
      omega

theorem exists_step_of_not_over {p : Pool} (workers_pos : 1 ≤ workers)
    (h : ¬(p.waiting = [] ∧ p.running = [])) :
    ∃ a next, p.step? r context workers a = some next := by
  cases running : p.running with
  | cons pair rest =>
      have possible : (p.step? r context workers (.finish 0)).isSome := by simp [step?, running]
      obtain ⟨next, eq⟩ := Option.isSome_iff_exists.1 possible
      exact ⟨.finish 0, next, eq⟩
  | nil =>
      cases waiting : p.waiting with
      | nil => exact absurd ⟨waiting, running⟩ h
      | cons target rest =>
          have room : p.running.length < workers := by
            rw [running]
            exact workers_pos
          have possible : (p.step? r context workers .take).isSome := by
            simp [step?, waiting, room]
          obtain ⟨next, eq⟩ := Option.isSome_iff_exists.1 possible
          exact ⟨.take, next, eq⟩

theorem one_le_workers (r : Runner) {targets : List TestTarget} (ne : targets ≠ []) :
    1 ≤ r.workers targets := by
  have room := r.one_le_maxWorkers
  have asked := List.length_pos_iff.2 ne
  rw [Runner.workers]
  omega

/-! ### What the run comes to -/

theorem exists_gather_eq_ok {completed : List (TestTarget × Except Abort RunResult)}
    (alone : ∀ pair ∈ completed, pair.2 = (r.runTarget context pair.1).outcome)
    (returns : ∀ pair ∈ completed, ∃ result, pair.2 = .ok result) :
    ∃ results, gather completed = .ok results ∧
      r.Alone context (completed.map (·.1)) results := by
  induction completed with
  | nil => exact ⟨[], rfl, .nil r context⟩
  | cons pair completed ih =>
      obtain ⟨results, gathered, rest⟩ :=
        ih (fun other mem => alone other (List.mem_cons_of_mem _ mem))
          fun other mem => returns other (List.mem_cons_of_mem _ mem)
      obtain ⟨result, ok⟩ := returns pair List.mem_cons_self
      have first : (r.runTarget context pair.1).outcome = .ok result :=
        (alone pair List.mem_cons_self).symm.trans ok
      obtain ⟨target, outcome⟩ := pair
      obtain rfl : outcome = .ok result := ok
      refine ⟨(target, result) :: results, ?_, Runner.Alone.cons_iff.2 ⟨⟨rfl, first⟩, rest⟩⟩
      rw [gather, gathered]
      rfl

theorem Undisturbed.outcome?_eq (h : p.Undisturbed r context targets)
    (returns : r.reopen.Returns context targets)
    (finished : p.waiting = [] ∧ p.running = []) :
    ∃ results, p.outcome? targets = some (.ok results) ∧
      r.reopen.Alone context targets.eraseDups results := by
  obtain ⟨completed, gathered, alone⟩ :=
    exists_gather_eq_ok h.alone fun pair mem => h.isOk_of_mem_completed returns mem
  have perm : (p.completed.map (·.1)).Perm targets := by
    have perm := h.perm
    rw [finished.1, finished.2] at perm
    exact perm
  refine ⟨_, ?_, alone.arrange fun target => perm.mem_iff.2⟩
  rw [outcome?, if_pos finished, gathered]
  rfl

end Pool

/-! ### Successes and failures -/

theorem successes_map_ok (results : KeyedList TestTarget RunResult) :
    (successes results).map .ok = (results.map (·.2)).filter (·.isOk) := by
  induction results with
  | nil => rfl
  | cons pair results ih =>
      obtain ⟨target, result⟩ := pair
      cases result with
      | ok coverage => exact congrArg (.ok coverage :: ·) ih
      | error failure => exact ih

theorem failures_map_error (results : KeyedList TestTarget RunResult) :
    (failures results).map .error = (results.map (·.2)).filter (!·.isOk) := by
  induction results with
  | nil => rfl
  | cons pair results ih =>
      obtain ⟨target, result⟩ := pair
      cases result with
      | ok coverage => exact ih
      | error failure => exact congrArg (.error failure :: ·) ih

/-! ### Other behaviours -/

namespace Runner

variable {r : Runner} {context : RunContext} {platform : Platform} {target : TestTarget}
  {result result' : RunResult}

/-- Of a platform, a result depends only on how the process behaves. -/
theorem ComesTo.of_plan_eq
    (same : platform.plan target.testPath = context.platform.plan target.testPath)
    (comes : r.ComesTo { context with platform := platform } target result) :
    r.ComesTo context target result := by
  cases comes with
  | unstarted behaves => exact .unstarted (same.symm.trans behaves)
  | ended behaves returned => exact .ended (same.symm.trans behaves) returned
  | timedOut runs told => exact .timedOut (runs.imp same.symm.trans same.symm.trans) told

/-- A process behaves in one way only, so there is one result. -/
theorem ComesTo.unique (comes : r.ComesTo context target result)
    (comes' : r.ComesTo context target result') : result' = result := by
  cases comes with
  | unstarted behaves =>
      cases comes' with
      | unstarted behaves' =>
          cases behaves.symm.trans behaves'
          rfl
      | ended behaves' _ => cases behaves.symm.trans behaves'
      | timedOut runs' _ => simp [RunsOutOfTime, behaves] at runs'
  | ended behaves returned =>
      cases comes' with
      | unstarted behaves' => cases behaves.symm.trans behaves'
      | ended behaves' returned' =>
          cases behaves.symm.trans behaves'
          exact Except.ok.inj (returned'.symm.trans returned)
      | timedOut runs' _ => simp [RunsOutOfTime, behaves] at runs'
  | timedOut runs told =>
      cases comes' with
      | unstarted behaves' => simp [RunsOutOfTime, behaves'] at runs
      | ended behaves' _ => simp [RunsOutOfTime, behaves'] at runs
      | timedOut runs' told' =>
          cases runsOutOfTime_unique runs runs'
          cases told.symm.trans told'
          rfl

/-- How long the platform waits decides only whether there is a result. -/
theorem eq_of_plan_eq
    (same : platform.plan target.testPath = context.platform.plan target.testPath)
    (returned : (r.runTarget context target).outcome = .ok result)
    (returned' : (r.runTarget { context with platform := platform } target).outcome =
      .ok result') : result' = result := by
  cases refuses : r.refuses with
  | true =>
      rw [runTarget, if_pos refuses] at returned returned'
      exact Except.ok.inj (returned'.symm.trans returned)
  | false =>
      exact (ComesTo.of_runTarget refuses returned).unique
        ((ComesTo.of_runTarget refuses returned').of_plan_eq same)

end Runner

theorem Runner.run_isolated {r : Runner} {context : RunContext} {platform : Platform}
    {targets : List TestTarget} {results results' : KeyedList TestTarget RunResult}
    (h : r.Alone context targets results)
    (h' : r.Alone { context with platform := platform } targets results') {target : TestTarget}
    (mem : target ∈ targets)
    (same : platform.plan target.testPath = context.platform.plan target.testPath) :
    KeyedList.get? target results' = KeyedList.get? target results := by
  obtain ⟨result, found, returned⟩ := h.get?_eq_some mem
  obtain ⟨result', found', returned'⟩ := h'.get?_eq_some mem
  rw [found, found', Runner.eq_of_plan_eq same returned returned']

/-! ### Runs -/

/--
If each target comes to a result when it is run alone, then the run comes to these results and no
others: one after the other, in any order of completion, and with any schedule of the workers, which
cannot get stuck or go on for ever.
-/
theorem run_order_independent (r : Runner) (context : RunContext) (targets : List TestTarget)
    (returns : r.reopen.Returns context targets) :
    ∃ results, r.reopen.Alone context targets.eraseDups results ∧
      (r.run context targets).2.outcome = .ok results ∧
      (∀ completion, completion.Perm targets →
        (r.runCompleting context completion targets).2.outcome = .ok results) ∧
      (∀ schedule p,
        (Pool.start targets).after? r context (r.workers targets) schedule = some p →
          schedule.length ≤ 2 * targets.length ∧
          (p.outcome? targets = some (.ok results) ∨
            p.outcome? targets = none ∧
              ∃ a next, p.step? r context (r.workers targets) a = some next)) ∧
      (∀ platform results',
        (r.run { context with platform := platform } targets).2.outcome = .ok results' →
          ∀ target ∈ targets,
            platform.plan target.testPath = context.platform.plan target.testPath →
            KeyedList.get? target results' = KeyedList.get? target results) ∧
      (successes results).map .ok = (results.map (·.2)).filter (·.isOk) ∧
      (failures results).map .error = (results.map (·.2)).filter (!·.isOk) := by
  have distinct : r.reopen.Returns context targets.eraseDups := fun target mem =>
    returns target (List.mem_eraseDups.1 mem)
  obtain ⟨results, alone⟩ := Runner.Alone.exists_of_returns distinct
  refine ⟨results, alone, ?_, ?_, ?_, ?_, successes_map_ok results, failures_map_error results⟩
  · exact (Runner.runCompleting_eq_ok_iff (.refl targets) results).2 alone
  · intro completion perm
    exact (Runner.runCompleting_eq_ok_iff perm results).2 alone
  · intro schedule p possible
    obtain ⟨undisturbed, count⟩ :=
      (Pool.undisturbed_start r context targets).after returns possible
    constructor
    · simp only [Pool.remaining, Pool.start, List.length_nil] at count
      omega
    · by_cases finished : p.waiting = [] ∧ p.running = []
      · obtain ⟨results', outcome, alone'⟩ := undisturbed.outcome?_eq returns finished
        rw [alone.unique alone']
        exact .inl outcome
      · refine .inr ⟨if_neg finished, Pool.exists_step_of_not_over ?_ finished⟩
        refine Pool.one_le_workers r fun empty => finished ?_
        have nothing := undisturbed.perm
        rw [empty, List.perm_nil] at nothing
        simp only [List.append_eq_nil_iff, List.map_eq_nil_iff] at nothing
        exact nothing.1
  · intro platform results' run' target mem same
    have alone' := (Runner.runCompleting_eq_ok_iff (.refl targets) results').1 run'
    exact Runner.run_isolated alone alone' (List.mem_eraseDups.2 mem) same

open Sample in
/-- Two workers share a target that passes, one that fails, and the first one once more. -/
theorem run_order_independent_of_repeated :
    runner.reopen.Returns (context tracefile) [passing, failing, passing] ∧
    ∃ results, KeyedList.keys results = [passing, failing] ∧
      ∀ completion, completion.Perm [passing, failing, passing] →
        (runner.runCompleting (context tracefile) completion
          [passing, failing, passing]).2.outcome = .ok results := by
  have returns : runner.reopen.Returns (context tracefile) [passing, failing, passing] := by
    intro target mem
    rw [List.mem_cons, List.mem_cons, List.mem_singleton] at mem
    rcases mem with rfl | rfl | rfl
    · exact ⟨_, rfl⟩
    · exact ⟨_, rfl⟩
    · exact ⟨_, rfl⟩
  obtain ⟨results, alone, _, any_order, _⟩ := run_order_independent runner _ _ returns
  exact ⟨returns, results, alone.keys, any_order⟩

end FileCoverage
