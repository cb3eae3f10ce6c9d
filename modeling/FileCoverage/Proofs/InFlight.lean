import FileCoverage.Proofs.InterruptSafety
import FileCoverage.Proofs.RunOrder

/-!
# Processes in flight

Among workers, the processes that are entered are those whose workers wait for them or have the lock
to strike them off, so nothing is entered once every worker is outside.  A target starts at most one
process and comes to its result after the process has ended.  Hence no process is in flight after a
run, whether it comes to results or is ended before.
-/

namespace FileCoverage

/-! ### The processes of workers -/

namespace Interruption

/-- The process that a worker in this phase has started. -/
def Phase.process? : Phase → Option Nat
  | .outside | .entered | .allowed => none
  | .started process | .waiting process | .leaving process => some process

/-- The process that a worker in this phase has entered and not struck off. -/
def Phase.entered? : Phase → Option Nat
  | .outside | .entered | .allowed | .started _ => none
  | .waiting process | .leaving process => some process

theorem Phase.process?_of_entered? {p : Phase} {process : Nat} (h : p.entered? = some process) :
    p.process? = some process := by
  cases p with
  | waiting _ => exact h
  | leaving _ => exact h
  | _ => cases h

namespace State

theorem process?_setPhase (s : State) (i j : Nat) (p : Phase) :
    ((s.setPhase i p).phase j).process? =
      if j = i then p.process? else (s.phase j).process? := by
  rw [setPhase, apply_ite Phase.process?]

theorem entered?_setPhase (s : State) (i j : Nat) (p : Phase) :
    ((s.setPhase i p).phase j).entered? =
      if j = i then p.entered? else (s.phase j).entered? := by
  rw [setPhase, apply_ite Phase.entered?]

/-- No two workers have one process, and what is entered is what workers have entered. -/
structure Owned (s : State) : Prop where
  below : ∀ i process, (s.phase i).process? = some process → process < s.count
  unique : ∀ i j process, (s.phase i).process? = some process →
    (s.phase j).process? = some process → j = i
  nodup : s.inFlight.Nodup
  mem_iff : ∀ process, process ∈ s.inFlight ↔ ∃ i, (s.phase i).entered? = some process

namespace Owned

variable {s t : State} {i : Nat} {p : Phase}

theorem initial : Owned State.initial := by
  constructor
  · intro i process owns
    cases owns
  · intro i j process owns
    cases owns
  · exact List.nodup_nil
  · intro process
    simp [State.initial, Phase.entered?]

theorem of_eq (h : Owned s) (owns : ∀ j, (t.phase j).process? = (s.phase j).process?)
    (entered : ∀ j, (t.phase j).entered? = (s.phase j).entered?)
    (inFlight : t.inFlight = s.inFlight) (count : t.count = s.count) : Owned t := by
  constructor
  · simp only [owns, count]
    exact h.below
  · simp only [owns]
    exact h.unique
  · rw [inFlight]
    exact h.nodup
  · simp only [entered, inFlight]
    exact h.mem_iff

/-- A worker moves on and starts, enters and strikes off nothing. -/
theorem move (h : Owned s) (owns : p.process? = (s.phase i).process?)
    (entered : p.entered? = (s.phase i).entered?) (phase : t.phase = (s.setPhase i p).phase)
    (inFlight : t.inFlight = s.inFlight) (count : t.count = s.count) : Owned t := by
  refine h.of_eq (fun j => ?_) (fun j => ?_) inFlight count
  · rw [phase, process?_setPhase]
    split
    · next same => rw [owns, same]
    · rfl
  · rw [phase, entered?_setPhase]
    split
    · next same => rw [entered, same]
    · rfl

theorem start (h : Owned s) (allowed : s.phase i = .allowed) :
    Owned { s.setPhase i (.started s.count) with count := s.count + 1 } := by
  have fresh : ∀ j, (s.phase j).process? ≠ some s.count := fun j owns =>
    absurd (h.below j _ owns) (Nat.lt_irrefl _)
  have idle : (s.phase i).entered? = none := by rw [allowed]; rfl
  refine ⟨fun j process owns => ?_, fun j k process owns owns' => ?_, h.nodup, fun process => ?_⟩
  · rw [process?_setPhase] at owns
    split at owns
    · cases owns
      exact Nat.lt_succ_self _
    · exact Nat.lt_succ_of_lt (h.below j process owns)
  · rw [process?_setPhase] at owns owns'
    split at owns
    · next same =>
        cases owns
        split at owns'
        · next same' => rw [same, same']
        · exact absurd owns' (fresh k)
    · split at owns'
      · cases owns'
        exact absurd owns (fresh j)
      · exact h.unique j k process owns owns'
  · refine (h.mem_iff process).trans (exists_congr fun j => ?_)
    rw [entered?_setPhase]
    split
    · next same => rw [same, idle]; rfl
    · rfl

theorem record {process : Nat} (h : Owned s) (started : s.phase i = .started process) :
    Owned { s.setPhase i (.waiting process) with
      holder := none, inFlight := s.inFlight ++ [process] } := by
  have mine : (s.phase i).process? = some process := by rw [started]; rfl
  have idle : (s.phase i).entered? = none := by rw [started]; rfl
  have owns : ∀ j, ((s.setPhase i (.waiting process)).phase j).process? = (s.phase j).process? := by
    intro j
    rw [process?_setPhase]
    split
    · next same => rw [same, mine]; rfl
    · rfl
  -- Whoever had entered the process before would be this worker, which has entered none.
  have new : process ∉ s.inFlight := by
    intro mem
    obtain ⟨j, entered⟩ := (h.mem_iff process).1 mem
    have same := h.unique i j process mine (Phase.process?_of_entered? entered)
    rw [same, idle] at entered
    cases entered
  refine ⟨fun j q theirs => ?_, fun j k q theirs theirs' => ?_, ?_, fun q => ?_⟩
  · exact h.below j q ((owns j).symm.trans theirs)
  · exact h.unique j k q ((owns j).symm.trans theirs) ((owns k).symm.trans theirs')
  · refine List.nodup_append.2 ⟨h.nodup, by simp, fun q mem last only => ?_⟩
    rw [List.mem_singleton.1 only]
    rintro rfl
    exact new mem
  · rw [List.mem_append, List.mem_singleton, h.mem_iff]
    constructor
    · intro entered
      rcases entered with ⟨j, entered⟩ | rfl
      · refine ⟨j, ?_⟩
        rw [entered?_setPhase, if_neg, entered]
        rintro rfl
        rw [idle] at entered
        cases entered
      · exact ⟨i, by rw [entered?_setPhase, if_pos rfl]; rfl⟩
    · rintro ⟨j, entered⟩
      rw [entered?_setPhase] at entered
      split at entered
      · exact .inr (Option.some.inj entered).symm
      · exact .inl ⟨j, entered⟩

theorem strike {process : Nat} (h : Owned s) (leaving : s.phase i = .leaving process) :
    Owned { s.setPhase i .outside with
      holder := none
      inFlight := s.inFlight.erase process
      finished := s.finished ++ [process] } := by
  have mine : (s.phase i).process? = some process := by rw [leaving]; rfl
  have owns : ∀ j q, ((s.setPhase i .outside).phase j).process? = some q →
      (s.phase j).process? = some q := by
    intro j q theirs
    rw [process?_setPhase] at theirs
    split at theirs
    · cases theirs
    · exact theirs
  refine ⟨fun j q theirs => h.below j q (owns j q theirs), fun j k q theirs theirs' =>
    h.unique j k q (owns j q theirs) (owns k q theirs'), h.nodup.erase process, fun q => ?_⟩
  rw [h.nodup.mem_erase_iff, h.mem_iff]
  constructor
  · rintro ⟨other, j, entered⟩
    refine ⟨j, ?_⟩
    rw [entered?_setPhase, if_neg, entered]
    rintro rfl
    rw [Phase.process?_of_entered? entered] at mine
    exact other (Option.some.inj mine)
  · rintro ⟨j, entered⟩
    rw [entered?_setPhase] at entered
    split at entered
    · cases entered
    · next elsewhere =>
        refine ⟨?_, j, entered⟩
        rintro rfl
        exact elsewhere (h.unique i j q mine (Phase.process?_of_entered? entered))

theorem step {a : Action} (h : Owned s) (step : Step s a t) : Owned t := by
  cases step with
  | enter _ outside => exact h.move (by rw [outside]; rfl) (by rw [outside]; rfl) rfl rfl rfl
  | lookRefused entered _ =>
      exact h.move (by rw [entered]; rfl) (by rw [entered]; rfl) rfl rfl rfl
  | lookAllowed entered _ =>
      exact h.move (by rw [entered]; rfl) (by rw [entered]; rfl) rfl rfl rfl
  | start allowed => exact h.start allowed
  | fail allowed => exact h.move (by rw [allowed]; rfl) (by rw [allowed]; rfl) rfl rfl rfl
  | record started => exact h.record started
  | leave waiting _ => exact h.move (by rw [waiting]; rfl) (by rw [waiting]; rfl) rfl rfl rfl
  | strike leaving => exact h.strike leaving
  | refuse _ => exact h.of_eq (fun _ => rfl) (fun _ => rfl) rfl rfl
  | seize _ _ => exact h.of_eq (fun _ => rfl) (fun _ => rfl) rfl rfl
  | capture _ => exact h.of_eq (fun _ => rfl) (fun _ => rfl) rfl rfl
  | terminate _ => exact h.of_eq (fun _ => rfl) (fun _ => rfl) rfl rfl
  | reopen => exact h.of_eq (fun _ => rfl) (fun _ => rfl) rfl rfl

end Owned

theorem owned_of_after? {t : State} {actions : List Action}
    (history : State.initial.after? actions = some t) : Owned t :=
  after?_induction (fun _ _ _ _ owned step => owned.step step) history Owned.initial

/-- Once every worker is outside, no process is entered. -/
theorem inFlight_eq_nil_of_after? {t : State} {actions : List Action}
    (history : State.initial.after? actions = some t) (outside : ∀ i, t.phase i = .outside) :
    t.inFlight = [] := by
  rw [List.eq_nil_iff_forall_not_mem]
  intro process mem
  obtain ⟨i, entered⟩ := ((owned_of_after? history).mem_iff process).1 mem
  rw [outside] at entered
  cases entered

end State

end Interruption

/-! ### The steps of a run -/

namespace ProcessStep

theorem inFlight_append {before : List ProcessStep} (none : inFlight before = [])
    (after : List ProcessStep) : inFlight (before ++ after) = inFlight after := by
  rw [inFlight, List.foldl_append, ← inFlight, none, inFlight]

theorem inFlight_started_ended (launch : Launch) :
    inFlight [.started launch, .ended launch] = [] := by
  simp [inFlight, advance]

theorem foldl_advance_map_ended (launches : List Launch) :
    (launches.map ended).foldl advance launches = [] := by
  induction launches with
  | nil => rfl
  | cons launch launches ih =>
      rw [List.map_cons, List.foldl_cons, advance, List.erase_cons_head]
      exact ih

end ProcessStep

namespace Runner

theorem inFlight_endAll (steps : List ProcessStep) : ProcessStep.inFlight (endAll steps) = [] := by
  rw [ProcessStep.inFlight, endAll, List.foldl_append, ← ProcessStep.inFlight]
  exact ProcessStep.foldl_advance_map_ended _

theorem steps_collect (r : Runner) (context : RunContext) (target : TestTarget) (output : Text) :
    (r.collect context target output).steps = [] := by
  rw [collect]
  split
  · rfl
  · split
    · rw [readArtifact]
      split
      · rfl
      · split
        · rfl
        · rfl
    · rfl

theorem steps_ended (r : Runner) (context : RunContext) (target : TestTarget) (code : Int)
    (output : Text) : (r.ended context target code output).steps = [] := by
  rw [ended]
  split
  · exact r.steps_collect context target output
  · rfl

theorem steps_timedOut (r : Runner) (context : RunContext) (target : TestTarget) (hang : Hang) :
    (r.timedOut context target hang).steps = [] := by
  rw [timedOut]
  split
  · rfl
  · dsimp only
    split
    · rfl
    · rfl

/-- A target starts no process unless it may and can, and then one, which is over before it is. -/
theorem steps_runTarget (r : Runner) (context : RunContext) (target : TestTarget) :
    (r.runTarget context target).steps =
      if r.refuses || !canStart context target then []
      else [.started (r.launch target), .ended (r.launch target)] := by
  rw [runTarget, canStart]
  cases r.refuses with
  | true => rfl
  | false =>
      cases context.waitFault? with
      | some fault => cases context.behaviour target <;> rfl
      | none =>
          cases context.behaviour target with
          | cannotStart fault => rfl
          | exits code output => simp [Activity.during, steps_ended]
          | hangs hang => simp [Activity.during, steps_timedOut]
          | blocks hang => simp [Activity.during, steps_timedOut]
          | interrupts => rfl

theorem inFlight_runTarget (r : Runner) (context : RunContext) (target : TestTarget) :
    ProcessStep.inFlight (r.runTarget context target).steps = [] := by
  rw [steps_runTarget]
  split
  · rfl
  · exact ProcessStep.inFlight_started_ended _

theorem inFlight_runEach {r : Runner} {context : RunContext} {targets : List TestTarget}
    {completed : List (TestTarget × RunResult)}
    (h : (r.runEach context false targets).outcome = .ok completed) :
    ProcessStep.inFlight (r.runEach context false targets).steps = [] := by
  induction targets generalizing completed with
  | nil => rfl
  | cons target targets ih =>
      rw [outcome_runEach_cons, Bool.false_and, if_neg (by simp)] at h
      obtain ⟨result, first, h⟩ := bind_eq_ok_iff.1 h
      obtain ⟨more, rest, rfl⟩ := map_eq_ok_iff.1 h
      rw [runEach, Bool.false_and, if_neg (by simp)]
      simp only [first, Activity.after]
      rw [ProcessStep.inFlight_append (r.inFlight_runTarget context target)]
      exact ih rest

/-- Whatever a run comes to, none of its processes is in flight after it. -/
theorem inFlight_runCompleting (r : Runner) (context : RunContext)
    {completion targets : List TestTarget} (perm : completion.Perm targets) :
    ProcessStep.inFlight (r.runCompleting context completion targets).2.steps = [] := by
  rw [runCompleting]
  split
  · rfl
  · cases done :
        (r.reopen.runEach context (targets.any (isInterrupting context)) completion).outcome with
    | error abort =>
        simp only [done]
        exact inFlight_endAll _
    | ok completed =>
        simp only [done]
        cases interrupted : targets.any (isInterrupting context) with
        | true =>
            -- The target that interrupts is among those that complete, and ends the run.
            obtain ⟨target, mem, interrupts⟩ := List.any_eq_true.1 interrupted
            exact absurd done
              (runEach_ne_ok_of_isInterrupting rfl (perm.mem_iff.2 mem) interrupts _)
        | false =>
            rw [interrupted] at done
            exact inFlight_runEach done

end Runner

end FileCoverage
