import FileCoverage.Build.Pool
import FileCoverage.Proofs.Except
import FileCoverage.Proofs.KeyedList
import Mathlib.Data.List.Basic

/-!
# A run comes to what its targets come to alone

The targets of a run share nothing but the files, which nobody writes, and the refusal of processes,
which nobody declares unless something ends the run.  Hence the results are the same in every order
in which the targets are over: one for each target, in the order in which the targets first came.
-/

namespace FileCoverage

namespace Runner

/-- Each of the targets comes to a result when it is run alone. -/
def Returns (r : Runner) (context : RunContext) (targets : List TestTarget) : Prop :=
  ∀ target ∈ targets, ∃ result, (r.runTarget context target).outcome = .ok result

/-- The results of targets are what each of the targets comes to when it is run alone. -/
structure Alone (r : Runner) (context : RunContext) (targets : List TestTarget)
    (results : KeyedList TestTarget RunResult) : Prop where
  keys : KeyedList.keys results = targets
  outcome : ∀ pair ∈ results, (r.runTarget context pair.1).outcome = .ok pair.2

namespace Alone

variable {r : Runner} {context : RunContext} {targets : List TestTarget}
  {results : KeyedList TestTarget RunResult}

theorem nil (r : Runner) (context : RunContext) : r.Alone context [] [] :=
  ⟨rfl, by simp⟩

theorem cons_iff {target : TestTarget} {pair : TestTarget × RunResult} :
    r.Alone context (target :: targets) (pair :: results) ↔
      (pair.1 = target ∧ (r.runTarget context target).outcome = .ok pair.2) ∧
        r.Alone context targets results := by
  constructor
  · intro alone
    rcases alone with ⟨keys, outcome⟩
    obtain ⟨first, rest⟩ := List.cons.inj keys
    refine ⟨⟨first, first ▸ outcome pair (by simp)⟩, rest, fun other mem => ?_⟩
    exact outcome other (List.mem_cons_of_mem _ mem)
  · intro parts
    rcases parts with ⟨⟨rfl, first⟩, keys, outcome⟩
    refine ⟨congrArg (pair.1 :: ·) keys, fun other mem => ?_⟩
    rcases List.mem_cons.1 mem with rfl | mem
    · exact first
    · exact outcome other mem

theorem unique {results' : KeyedList TestTarget RunResult} (h : r.Alone context targets results)
    (h' : r.Alone context targets results') : results = results' := by
  induction targets generalizing results results' with
  | nil => rw [List.map_eq_nil_iff.1 h.keys, List.map_eq_nil_iff.1 h'.keys]
  | cons target targets ih =>
      obtain ⟨pair, results, rfl, _, _⟩ := List.map_eq_cons_iff.1 h.keys
      obtain ⟨pair', results', rfl, _, _⟩ := List.map_eq_cons_iff.1 h'.keys
      obtain ⟨⟨key, value⟩, rest⟩ := cons_iff.1 h
      obtain ⟨⟨key', value'⟩, rest'⟩ := cons_iff.1 h'
      have same : pair.2 = pair'.2 := Except.ok.inj (value.symm.trans value')
      rw [ih rest rest', Prod.ext (key.trans key'.symm) same]

theorem exists_of_returns (h : r.Returns context targets) :
    ∃ results, r.Alone context targets results := by
  induction targets with
  | nil => exact ⟨[], nil r context⟩
  | cons target targets ih =>
      obtain ⟨result, first⟩ := h target (by simp)
      obtain ⟨results, rest⟩ := ih fun other mem => h other (List.mem_cons_of_mem _ mem)
      exact ⟨(target, result) :: results, cons_iff.2 ⟨⟨rfl, first⟩, rest⟩⟩

theorem returns (h : r.Alone context targets results) : r.Returns context targets := by
  intro target mem
  rw [← h.keys] at mem
  obtain ⟨pair, found, rfl⟩ := List.mem_map.1 mem
  exact ⟨pair.2, h.outcome pair found⟩

theorem get?_eq_some (h : r.Alone context targets results) {target : TestTarget}
    (mem : target ∈ targets) :
    ∃ result, KeyedList.get? target results = some result ∧
      (r.runTarget context target).outcome = .ok result := by
  obtain ⟨result, found⟩ := KeyedList.exists_get?_of_mem_keys (h.keys ▸ mem)
  exact ⟨result, found, h.outcome _ (KeyedList.mem_of_get?_eq_some found)⟩

end Alone

/-! ### The order of completion -/

theorem outcome_runEach_cons (r : Runner) (context : RunContext) (flag : Bool)
    (target : TestTarget) (rest : List TestTarget) :
    (r.runEach context flag (target :: rest)).outcome =
      if flag && isBlocking context target then (r.runEach context flag rest).outcome
      else (r.runTarget context target).outcome.bind fun result =>
        (r.runEach context flag rest).outcome.map ((target, result) :: ·) := by
  rw [runEach]
  split
  · rfl
  · cases done : (r.runTarget context target).outcome with
    | error abort => simp only [done, Except.bind]
    | ok result => simp only [done, Except.bind, Activity.outcome_after]

theorem runEach_eq_ok_iff (r : Runner) (context : RunContext) (targets : List TestTarget)
    (completed : List (TestTarget × RunResult)) :
    (r.runEach context false targets).outcome = .ok completed ↔
      r.Alone context targets completed := by
  induction targets generalizing completed with
  | nil =>
      rw [runEach, Activity.outcome_quiet]
      constructor
      · intro h
        obtain rfl := Except.ok.inj h
        exact .nil r context
      · intro h
        rw [List.map_eq_nil_iff.1 h.keys]
  | cons target targets ih =>
      rw [outcome_runEach_cons, Bool.false_and, if_neg (by simp)]
      constructor
      · intro h
        obtain ⟨result, first, h⟩ := bind_eq_ok_iff.1 h
        obtain ⟨more, rest, rfl⟩ := map_eq_ok_iff.1 h
        exact Alone.cons_iff.2 ⟨⟨rfl, first⟩, (ih more).1 rest⟩
      · intro h
        obtain ⟨pair, more, rfl, _, _⟩ := List.map_eq_cons_iff.1 h.keys
        obtain ⟨⟨rfl, first⟩, rest⟩ := Alone.cons_iff.1 h
        rw [first, Except.bind, (ih more).2 rest]
        rfl

theorem outcome_runTarget_of_isInterrupting {r : Runner} {context : RunContext}
    {target : TestTarget} (accepts : r.refuses = false)
    (h : isInterrupting context target = true) :
    (r.runTarget context target).outcome = .error .interrupted := by
  rw [isInterrupting] at h
  split at h
  · next interrupts awaited => simp [runTarget, accepts, interrupts, awaited]
  · cases h

theorem not_isBlocking_of_isInterrupting {context : RunContext} {target : TestTarget}
    (h : isInterrupting context target = true) : isBlocking context target = false := by
  rw [isInterrupting] at h
  split at h
  · next interrupts _ => simp [isBlocking, interrupts]
  · cases h

theorem runEach_ne_ok_of_isInterrupting {r : Runner} {context : RunContext} {flag : Bool}
    {targets : List TestTarget} {target : TestTarget} (accepts : r.refuses = false)
    (mem : target ∈ targets) (h : isInterrupting context target = true)
    (completed : List (TestTarget × RunResult)) :
    (r.runEach context flag targets).outcome ≠ .ok completed := by
  induction targets generalizing completed with
  | nil => cases mem
  | cons first rest ih =>
      intro finished
      rw [outcome_runEach_cons] at finished
      rcases List.mem_cons.1 mem with rfl | later
      · rw [not_isBlocking_of_isInterrupting h, Bool.and_false, if_neg (by simp),
          outcome_runTarget_of_isInterrupting accepts h] at finished
        cases finished
      · split at finished
        · exact ih later completed finished
        · obtain ⟨result, _, finished⟩ := bind_eq_ok_iff.1 finished
          obtain ⟨more, finished, _⟩ := map_eq_ok_iff.1 finished
          exact ih later more finished

/-! ### The order of the results -/

theorem Alone.arrange {r : Runner} {context : RunContext} {completion targets : List TestTarget}
    {completed : List (TestTarget × RunResult)} (h : r.Alone context completion completed)
    (sub : ∀ target ∈ targets, target ∈ completion) :
    r.Alone context targets.eraseDups (arrange (KeyedList.ofPairs completed) targets) := by
  have found : ∀ target ∈ targets,
      ∃ result, KeyedList.get? target (KeyedList.ofPairs completed) = some result := by
    intro target mem
    apply KeyedList.exists_get?_of_mem_keys
    rw [KeyedList.keys_ofPairs, List.mem_eraseDups, ← KeyedList.keys, h.keys]
    exact sub target mem
  constructor
  · have each : ∀ target ∈ targets,
        ((KeyedList.get? target (KeyedList.ofPairs completed)).map
          fun result => (target, result)).map (·.1) = some target := by
      intro target mem
      obtain ⟨result, eq⟩ := found target mem
      rw [eq]
      rfl
    rw [Runner.arrange, KeyedList.keys_ofPairs, List.map_filterMap, List.filterMap_congr each,
      List.filterMap_some]
  · intro pair mem
    obtain ⟨target, _, paired⟩ := List.mem_filterMap.1 (KeyedList.mem_of_mem_ofPairs mem)
    obtain ⟨result, eq, rfl⟩ := Option.map_eq_some_iff.1 paired
    exact h.outcome _ (KeyedList.mem_of_mem_ofPairs (KeyedList.mem_of_get?_eq_some eq))

theorem outcome_runCompleting (r : Runner) (context : RunContext) (completion : List TestTarget)
    {targets : List TestTarget} (ne : targets ≠ []) :
    (r.runCompleting context completion targets).2.outcome =
      (r.reopen.runEach context (targets.any (isInterrupting context)) completion).outcome.map
        fun completed => Runner.arrange (KeyedList.ofPairs completed) targets := by
  rw [runCompleting, if_neg ne]
  cases done :
      (r.reopen.runEach context (targets.any (isInterrupting context)) completion).outcome with
  | error abort => simp only [done, Except.map]
  | ok completed => simp only [done, Except.map]

theorem runCompleting_eq_ok_iff {r : Runner} {context : RunContext}
    {completion targets : List TestTarget} (perm : completion.Perm targets)
    (results : KeyedList TestTarget RunResult) :
    (r.runCompleting context completion targets).2.outcome = .ok results ↔
      r.reopen.Alone context targets.eraseDups results := by
  rcases eq_or_ne targets [] with rfl | ne
  · rw [runCompleting, if_pos rfl, Activity.outcome_quiet]
    constructor
    · intro h
      obtain rfl := Except.ok.inj h
      exact .nil _ context
    · intro h
      rw [List.map_eq_nil_iff.1 h.keys]
  · have accepts : r.reopen.refuses = false := rfl
    rw [outcome_runCompleting r context completion ne, map_eq_ok_iff]
    cases interrupted : targets.any (isInterrupting context) with
    | true =>
        -- Neither side holds: the target that interrupts is among those that complete.
        obtain ⟨target, mem, interrupts⟩ := List.any_eq_true.1 interrupted
        refine iff_of_false ?_ fun h => ?_
        · intro returned
          rcases returned with ⟨completed, finished, _⟩
          have mem := perm.mem_iff.2 mem
          exact runEach_ne_ok_of_isInterrupting accepts mem interrupts completed finished
        · obtain ⟨result, returned⟩ := h.returns target (List.mem_eraseDups.2 mem)
          rw [outcome_runTarget_of_isInterrupting accepts interrupts] at returned
          cases returned
    | false =>
        have sub : ∀ target ∈ targets, target ∈ completion := fun _ => perm.mem_iff.2
        constructor
        · intro returned
          rcases returned with ⟨completed, finished, rfl⟩
          exact ((runEach_eq_ok_iff _ context completion completed).1 finished).arrange sub
        · intro h
          have returns : r.reopen.Returns context completion := fun target mem =>
            h.returns target (List.mem_eraseDups.2 (perm.mem_iff.1 mem))
          obtain ⟨completed, alone⟩ := Alone.exists_of_returns returns
          refine ⟨completed, (runEach_eq_ok_iff _ context completion completed).2 alone, ?_⟩
          exact (alone.arrange sub).unique h

end Runner

end FileCoverage
