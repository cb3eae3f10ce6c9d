import FileCoverage.Build.Interruption

/-!
# An interrupt lets no process escape

Whoever starts a process or captures the processes in flight has the lock.  A process that has been
started and is not entered yet keeps its worker in the lock, so the canceller, once it has the lock
itself, finds every living process entered.  A worker that looks after the capture finds processes
refused: the canceller refused them before it asked for the lock.

`Locked` and `Entered` hold in every state that can be reached.  `Closed` holds from the capture on,
until another run begins.
-/

namespace FileCoverage.Interruption

/-- Whether a worker in this phase has the lock. -/
def Phase.hasLock : Phase → Bool
  | .entered | .allowed | .started _ | .leaving _ => true
  | .outside | .waiting _ => false

namespace State

@[simp]
theorem phase_setPhase_self (s : State) (i : Nat) (p : Phase) : (s.setPhase i p).phase i = p := by
  simp [setPhase]

theorem phase_setPhase_of_ne (s : State) {i j : Nat} (p : Phase) (h : j ≠ i) :
    (s.setPhase i p).phase j = s.phase j := by
  simp [setPhase, h]

theorem isAlive_iff (s : State) (process : Nat) :
    s.isAlive process = true ↔ process < s.count ∧ process ∉ s.finished := by
  simp [isAlive]

/-- What each action needs, and what the state is after it. -/
inductive Step (s : State) : Action → State → Prop where
  | enter {i : Nat} (free : s.holder = none) (outside : s.phase i = .outside) :
      Step s (.enter i) { s.setPhase i .entered with holder := some (.worker i) }
  | lookRefused {i : Nat} (entered : s.phase i = .entered) (refuses : s.refuses = true) :
      Step s (.look i) { s.setPhase i .outside with holder := none }
  | lookAllowed {i : Nat} (entered : s.phase i = .entered) (accepts : s.refuses = false) :
      Step s (.look i) (s.setPhase i .allowed)
  | start {i : Nat} (allowed : s.phase i = .allowed) :
      Step s (.start i) { s.setPhase i (.started s.count) with count := s.count + 1 }
  | fail {i : Nat} (allowed : s.phase i = .allowed) :
      Step s (.fail i) { s.setPhase i .outside with holder := none }
  | record {i process : Nat} (started : s.phase i = .started process) :
      Step s (.record i)
        { s.setPhase i (.waiting process) with
          holder := none, inFlight := s.inFlight ++ [process] }
  | leave {i process : Nat} (waiting : s.phase i = .waiting process) (free : s.holder = none) :
      Step s (.leave i) { s.setPhase i (.leaving process) with holder := some (.worker i) }
  | strike {i process : Nat} (leaving : s.phase i = .leaving process) :
      Step s (.strike i)
        { s.setPhase i .outside with
          holder := none
          inFlight := s.inFlight.erase process
          finished := s.finished ++ [process] }
  | refuse (before : s.cancel = .before) :
      Step s .refuse { s with refuses := true, cancel := .refused }
  | seize (free : s.holder = none) (refused : s.cancel = .refused) :
      Step s .seize { s with holder := some .canceller, cancel := .capturing }
  | capture (capturing : s.cancel = .capturing) :
      Step s .capture { s with holder := none, cancel := .captured s.inFlight }
  | terminate {process : Nat} {remaining : List Nat}
      (captured : s.cancel = .captured (process :: remaining)) :
      Step s .terminate
        { s with cancel := .captured remaining, terminated := s.terminated ++ [process] }
  | reopen : Step s .reopen { s with refuses := false }

theorem step_of_step? {s t : State} {a : Action} (h : s.step? a = some t) : Step s a t := by
  cases a with
  | enter i =>
      obtain ⟨⟨free, outside⟩, rfl⟩ := by simpa [step?] using h
      exact .enter free outside
  | look i =>
      obtain ⟨entered, rfl⟩ := by simpa [step?] using h
      cases refuses : s.refuses with
      | true =>
          rw [looked, if_pos refuses]
          exact .lookRefused entered refuses
      | false =>
          rw [looked, if_neg (by simp [refuses])]
          exact .lookAllowed entered refuses
  | start i =>
      obtain ⟨allowed, rfl⟩ := by simpa [step?] using h
      exact .start allowed
  | fail i =>
      obtain ⟨allowed, rfl⟩ := by simpa [step?] using h
      exact .fail allowed
  | record i =>
      cases started : s.phase i with
      | started process =>
          obtain rfl := by simpa [step?, started] using h
          exact .record started
      | _ => simp [step?, started] at h
  | leave i =>
      cases waiting : s.phase i with
      | waiting process =>
          obtain ⟨free, rfl⟩ := by simpa [step?, waiting] using h
          exact .leave waiting free
      | _ => simp [step?, waiting] at h
  | strike i =>
      cases leaving : s.phase i with
      | leaving process =>
          obtain rfl := by simpa [step?, leaving] using h
          exact .strike leaving
      | _ => simp [step?, leaving] at h
  | refuse =>
      obtain ⟨before, rfl⟩ := by simpa [step?] using h
      exact .refuse before
  | seize =>
      obtain ⟨⟨free, refused⟩, rfl⟩ := by simpa [step?] using h
      exact .seize free refused
  | capture =>
      obtain ⟨capturing, rfl⟩ := by simpa [step?] using h
      exact .capture capturing
  | terminate =>
      rcases captured : s.cancel with _ | _ | _ | _ | ⟨process, remaining⟩
      · simp [step?, captured] at h
      · simp [step?, captured] at h
      · simp [step?, captured] at h
      · simp [step?, captured] at h
      · obtain rfl := by simpa [step?, captured] using h
        exact .terminate captured
  | reopen =>
      obtain rfl := by simpa [step?] using h
      exact .reopen

/-- What every step keeps is kept by a history. -/
theorem after?_induction {P : State → Prop} {s t : State} {actions : List Action}
    (step : ∀ a ∈ actions, ∀ u v, P u → Step u a v → P v)
    (h : s.after? actions = some t) (start : P s) : P t := by
  induction actions generalizing s with
  | nil =>
      obtain rfl := by simpa using h
      exact start
  | cons a rest ih =>
      obtain ⟨u, first, h⟩ := Option.bind_eq_some_iff.1 h
      have hu : P u := step a (by simp) s u start (step_of_step? first)
      exact ih (fun b hb => step b (List.mem_cons_of_mem a hb)) h hu

/-! ### The lock -/

/-- Whoever is at work under the lock is its holder. -/
structure Locked (s : State) : Prop where
  worker : ∀ i, (s.phase i).hasLock = true → s.holder = some (.worker i)
  canceller : s.cancel = .capturing → s.holder = some .canceller

namespace Locked

variable {s t : State} {i : Nat} {p : Phase}

theorem initial : Locked State.initial := by
  constructor
  · intro i h
    simp [State.initial, Phase.hasLock] at h
  · intro h
    simp [State.initial] at h

theorem unique (h : Locked s) {j : Nat} (hi : (s.phase i).hasLock = true)
    (hj : (s.phase j).hasLock = true) : j = i := by
  have same := (h.worker j hj).symm.trans (h.worker i hi)
  simpa using same

theorem not_capturing (h : Locked s) (hi : (s.phase i).hasLock = true) :
    s.cancel ≠ .capturing := by
  intro capturing
  have same := (h.worker i hi).symm.trans (h.canceller capturing)
  simp at same

/-- A worker takes the free lock. -/
theorem take (h : Locked s) (free : s.holder = none)
    (phase : t.phase = (s.setPhase i p).phase) (holder : t.holder = some (.worker i))
    (cancel : t.cancel = s.cancel) : Locked t := by
  constructor
  · intro j hj
    by_cases same : j = i
    · rw [same, holder]
    · rw [phase, phase_setPhase_of_ne s p same] at hj
      have taken := h.worker j hj
      rw [free] at taken
      cases taken
  · intro capturing
    have taken := h.canceller (cancel ▸ capturing)
    rw [free] at taken
    cases taken

/-- A worker that has the lock goes on with it. -/
theorem keep (h : Locked s) (inside : (s.phase i).hasLock = true)
    (phase : t.phase = (s.setPhase i p).phase) (holder : t.holder = s.holder)
    (cancel : t.cancel = s.cancel) : Locked t := by
  constructor
  · intro j hj
    by_cases same : j = i
    · rw [same, holder]
      exact h.worker i inside
    · rw [phase, phase_setPhase_of_ne s p same] at hj
      exact absurd (h.unique inside hj) same
  · intro capturing
    exact absurd (cancel ▸ capturing) (h.not_capturing inside)

/-- A worker that has the lock gives it back. -/
theorem giveBack (h : Locked s) (inside : (s.phase i).hasLock = true) (outside : p.hasLock = false)
    (phase : t.phase = (s.setPhase i p).phase) (cancel : t.cancel = s.cancel) : Locked t := by
  constructor
  · intro j hj
    by_cases same : j = i
    · rw [phase, same, phase_setPhase_self, outside] at hj
      cases hj
    · rw [phase, phase_setPhase_of_ne s p same] at hj
      exact absurd (h.unique inside hj) same
  · intro capturing
    exact absurd (cancel ▸ capturing) (h.not_capturing inside)

theorem step {a : Action} (h : Locked s) (step : Step s a t) : Locked t := by
  cases step with
  | enter free _ => exact h.take free rfl rfl rfl
  | leave _ free => exact h.take free rfl rfl rfl
  | lookAllowed entered _ => exact h.keep (by rw [entered]; rfl) rfl rfl rfl
  | start allowed => exact h.keep (by rw [allowed]; rfl) rfl rfl rfl
  | lookRefused entered _ => exact h.giveBack (by rw [entered]; rfl) rfl rfl rfl
  | fail allowed => exact h.giveBack (by rw [allowed]; rfl) rfl rfl rfl
  | record started => exact h.giveBack (by rw [started]; rfl) rfl rfl rfl
  | strike leaving => exact h.giveBack (by rw [leaving]; rfl) rfl rfl rfl
  | refuse before => exact ⟨h.worker, fun capturing => by cases capturing⟩
  | seize free _ =>
      refine ⟨fun i inside => ?_, fun _ => rfl⟩
      have taken := h.worker i inside
      rw [free] at taken
      cases taken
  | capture capturing =>
      refine ⟨fun i inside => ?_, fun again => by cases again⟩
      exact absurd capturing (h.not_capturing inside)
  | terminate captured => exact ⟨h.worker, fun capturing => by cases capturing⟩
  | reopen => exact ⟨h.worker, h.canceller⟩

end Locked

/-! ### The processes in flight -/

/-- A living process is entered, or its worker is about to enter it. -/
def Entered (s : State) : Prop :=
  ∀ process, s.isAlive process = true →
    process ∈ s.inFlight ∨ ∃ i, s.phase i = .started process

namespace Entered

variable {s t : State} {i : Nat} {p : Phase}

theorem initial : Entered State.initial := by
  intro process alive
  simp [isAlive, State.initial] at alive

theorem of_eq (h : Entered s) (phase : t.phase = s.phase) (inFlight : t.inFlight = s.inFlight)
    (count : t.count = s.count) (finished : t.finished = s.finished) : Entered t := by
  intro process alive
  rw [isAlive_iff, count, finished, ← isAlive_iff] at alive
  rw [phase, inFlight]
  exact h process alive

/-- A worker moves on that is not about to enter a process. -/
theorem move (h : Entered s) (idle : ∀ process, s.phase i ≠ .started process)
    (phase : t.phase = (s.setPhase i p).phase) (inFlight : t.inFlight = s.inFlight)
    (count : t.count = s.count) (finished : t.finished = s.finished) : Entered t := by
  intro process alive
  rw [isAlive_iff, count, finished, ← isAlive_iff] at alive
  rw [phase, inFlight]
  rcases h process alive with entered | ⟨j, started⟩
  · exact .inl entered
  · have other : j ≠ i := fun same => idle process (same ▸ started)
    exact .inr ⟨j, (phase_setPhase_of_ne s p other).trans started⟩

theorem start (h : Entered s) (allowed : s.phase i = .allowed) :
    Entered { s.setPhase i (.started s.count) with count := s.count + 1 } := by
  intro process alive
  obtain ⟨begun, unfinished⟩ := (isAlive_iff _ process).1 alive
  have begun : process < s.count + 1 := begun
  by_cases new : process = s.count
  · exact .inr ⟨i, by simp [new]⟩
  · have old : s.isAlive process = true := (isAlive_iff s process).2 ⟨by omega, unfinished⟩
    rcases h process old with entered | ⟨j, started⟩
    · exact .inl entered
    · have other : j ≠ i := by
        rintro rfl
        rw [allowed] at started
        cases started
      exact .inr ⟨j, (phase_setPhase_of_ne s _ other).trans started⟩

theorem record {process : Nat} (h : Entered s) (started : s.phase i = .started process) :
    Entered { s.setPhase i (.waiting process) with
      holder := none, inFlight := s.inFlight ++ [process] } := by
  intro q alive
  rcases h q alive with entered | ⟨j, begun⟩
  · exact .inl (List.mem_append_left _ entered)
  · by_cases same : j = i
    · rw [same, started] at begun
      cases begun
      exact .inl (by simp)
    · exact .inr ⟨j, (phase_setPhase_of_ne s _ same).trans begun⟩

theorem strike {process : Nat} (h : Entered s) (leaving : s.phase i = .leaving process) :
    Entered { s.setPhase i .outside with
      holder := none
      inFlight := s.inFlight.erase process
      finished := s.finished ++ [process] } := by
  intro q alive
  rw [isAlive_iff, List.mem_append, not_or] at alive
  obtain ⟨begun, unfinished, other⟩ := alive
  rcases h q ((isAlive_iff s q).2 ⟨begun, unfinished⟩) with entered | ⟨j, started⟩
  · exact .inl ((List.mem_erase_of_ne (by simpa using other)).2 entered)
  · have ne : j ≠ i := by
      rintro rfl
      rw [leaving] at started
      cases started
    exact .inr ⟨j, (phase_setPhase_of_ne s _ ne).trans started⟩

theorem step {a : Action} (h : Entered s) (step : Step s a t) : Entered t := by
  cases step with
  | enter _ outside => exact h.move (by simp [outside]) rfl rfl rfl rfl
  | lookRefused entered _ => exact h.move (by simp [entered]) rfl rfl rfl rfl
  | lookAllowed entered _ => exact h.move (by simp [entered]) rfl rfl rfl rfl
  | start allowed => exact h.start allowed
  | fail allowed => exact h.move (by simp [allowed]) rfl rfl rfl rfl
  | record started => exact h.record started
  | leave waiting _ => exact h.move (by simp [waiting]) rfl rfl rfl rfl
  | strike leaving => exact h.strike leaving
  | refuse _ => exact h.of_eq rfl rfl rfl rfl
  | seize _ _ => exact h.of_eq rfl rfl rfl rfl
  | capture _ => exact h.of_eq rfl rfl rfl rfl
  | terminate _ => exact h.of_eq rfl rfl rfl rfl
  | reopen => exact h.of_eq rfl rfl rfl rfl

/-- Nobody is about to enter a process while the canceller has the lock. -/
theorem mem_inFlight (h : Entered s) (locked : Locked s) (capturing : s.cancel = .capturing)
    {process : Nat} (alive : s.isAlive process = true) : process ∈ s.inFlight := by
  rcases h process alive with entered | ⟨i, started⟩
  · exact entered
  · have inside : (s.phase i).hasLock = true := by rw [started]; rfl
    exact absurd capturing (locked.not_capturing inside)

end Entered

/-! ### After the capture -/

/-- Processes are refused, and no worker has been allowed to start one. -/
structure Closed (s : State) : Prop where
  refuses : s.refuses = true
  idle : ∀ i, s.phase i ≠ .allowed

theorem refuses_of_step {s t : State} {a : Action} (kept : a ≠ .reopen) (step : Step s a t)
    (refuses : s.refuses = true) : t.refuses = true := by
  cases step with
  | refuse _ => rfl
  | reopen => exact absurd rfl kept
  | _ => exact refuses

namespace Closed

variable {s t : State} {i : Nat} {p : Phase}

/-- While the canceller has the lock, no worker has looked and not gone on. -/
theorem of_capturing (locked : Locked s) (refuses : s.refuses = true)
    (capturing : s.cancel = .capturing) : Closed s := by
  refine ⟨refuses, fun i allowed => ?_⟩
  have inside : (s.phase i).hasLock = true := by rw [allowed]; rfl
  exact locked.not_capturing inside capturing

theorem move (h : Closed s) (other : p ≠ .allowed) (refuses : t.refuses = s.refuses)
    (phase : t.phase = (s.setPhase i p).phase) : Closed t := by
  refine ⟨refuses.trans h.refuses, fun j => ?_⟩
  by_cases same : j = i
  · rw [phase, same, phase_setPhase_self]
    exact other
  · rw [phase, phase_setPhase_of_ne s p same]
    exact h.idle j

theorem step {a : Action} (h : Closed s) (kept : a ≠ .reopen) (step : Step s a t) :
    Closed t ∧ t.count = s.count ∧ ∀ i, a ≠ .start i := by
  have closed : t.refuses = true := refuses_of_step kept step h.refuses
  cases step with
  | enter _ _ => exact ⟨h.move (by simp) rfl rfl, rfl, by simp⟩
  | lookRefused _ _ => exact ⟨h.move (by simp) rfl rfl, rfl, by simp⟩
  | lookAllowed _ accepts =>
      rw [h.refuses] at accepts
      cases accepts
  | start allowed => exact absurd allowed (h.idle _)
  | fail _ => exact ⟨h.move (by simp) rfl rfl, rfl, by simp⟩
  | record _ => exact ⟨h.move (by simp) rfl rfl, rfl, by simp⟩
  | leave _ _ => exact ⟨h.move (by simp) rfl rfl, rfl, by simp⟩
  | strike _ => exact ⟨h.move (by simp) rfl rfl, rfl, by simp⟩
  | refuse _ => exact ⟨⟨closed, h.idle⟩, rfl, by simp⟩
  | seize _ _ => exact ⟨⟨closed, h.idle⟩, rfl, by simp⟩
  | capture _ => exact ⟨⟨closed, h.idle⟩, rfl, by simp⟩
  | terminate _ => exact ⟨⟨closed, h.idle⟩, rfl, by simp⟩
  | reopen => exact absurd rfl kept

/-- Until another run begins, nothing is started. -/
theorem run {actions : List Action} (h : Closed s) (kept : .reopen ∉ actions)
    (history : s.after? actions = some t) : t.count = s.count ∧ ∀ i, .start i ∉ actions := by
  induction actions generalizing s with
  | nil =>
      obtain rfl := by simpa using history
      exact ⟨rfl, by simp⟩
  | cons a rest ih =>
      obtain ⟨u, first, history⟩ := Option.bind_eq_some_iff.1 history
      obtain ⟨ne, kept⟩ := not_or.1 (mt List.mem_cons.2 kept)
      obtain ⟨closed, count, unlike⟩ := h.step (Ne.symm ne) (step_of_step? first)
      obtain ⟨same, none⟩ := ih closed kept history
      refine ⟨same.trans count, fun i mem => ?_⟩
      rcases List.mem_cons.1 mem with started | later
      · exact unlike i started.symm
      · exact none i later

end Closed

/-- The captured processes are those that have been ended since, and those that remain. -/
theorem terminated_of_after? {s t : State} {actions : List Action} {snapshot : List Nat}
    (captured : s.cancel = .captured snapshot) (history : s.after? actions = some t) :
    ∃ ended remaining, snapshot = ended ++ remaining ∧ t.cancel = .captured remaining ∧
      t.terminated = s.terminated ++ ended := by
  refine after?_induction (P := fun u => ∃ ended remaining, snapshot = ended ++ remaining ∧
    u.cancel = .captured remaining ∧ u.terminated = s.terminated ++ ended)
    (fun a _ u v hu step => ?_) history ⟨[], snapshot, rfl, captured, by simp⟩
  obtain ⟨ended, remaining, split, cancel, terminated⟩ := hu
  cases step with
  | refuse before =>
      rw [before] at cancel
      cases cancel
  | seize _ refused =>
      rw [refused] at cancel
      cases cancel
  | capture capturing =>
      rw [capturing] at cancel
      cases cancel
  | @terminate process rest now =>
      rw [now] at cancel
      cases cancel
      exact ⟨ended ++ [process], rest, by simp [split], rfl, by simp [terminated]⟩
  | _ => exact ⟨ended, remaining, split, cancel, terminated⟩

theorem locked_of_after? {t : State} {actions : List Action}
    (history : State.initial.after? actions = some t) : Locked t :=
  after?_induction (fun _ _ _ _ locked step => locked.step step) history Locked.initial

theorem entered_of_after? {t : State} {actions : List Action}
    (history : State.initial.after? actions = some t) : Entered t :=
  after?_induction (fun _ _ _ _ entered step => entered.step step) history Entered.initial

theorem refuses_of_after? {s t : State} {actions : List Action} (kept : .reopen ∉ actions)
    (history : s.after? actions = some t) (refuses : s.refuses = true) : t.refuses = true := by
  refine after?_induction (P := fun u => u.refuses = true) (fun a mem u v hu step => ?_)
    history refuses
  exact refuses_of_step (fun same => kept (same ▸ mem)) step hu

/--
The canceller captures every living process, whatever the workers do while it refuses processes and
waits for the lock.  From then on nothing is started until another run begins, so that no process
escapes: when the canceller is done, each one has been struck off before the capture or ended.
-/
theorem no_process_escapes (before middle after : List Action) (t : State)
    (history : State.initial.after? (before ++ .refuse :: (middle ++ .capture :: after)) = some t) :
    ∃ s u snapshot,
      State.initial.after? (before ++ .refuse :: middle) = some s ∧
      s.step? .capture = some u ∧ u.cancel = .captured snapshot ∧ u.after? after = some t ∧
      (∀ process, s.isAlive process = true → process ∈ snapshot) ∧
      (.reopen ∉ middle → .reopen ∉ after →
        (∀ i, .start i ∉ after) ∧ t.count = s.count ∧
        (t.cancel = .captured [] →
          ∀ process < t.count, process ∈ s.finished ∨ process ∈ t.terminated)) := by
  rw [after?_append] at history
  obtain ⟨r, first, history⟩ := Option.bind_eq_some_iff.1 history
  obtain ⟨r', refused, history⟩ := Option.bind_eq_some_iff.1 history
  rw [after?_append] at history
  obtain ⟨s, waited, history⟩ := Option.bind_eq_some_iff.1 history
  obtain ⟨u, captured, history⟩ := Option.bind_eq_some_iff.1 history
  have reached : State.initial.after? (before ++ .refuse :: middle) = some s := by
    rw [after?_append, first, Option.bind_some, after?, refused, Option.bind_some, waited]
  have locked : Locked s := locked_of_after? reached
  have entered : Entered s := entered_of_after? reached
  cases step_of_step? captured with
  | capture capturing =>
      have complete : ∀ process, s.isAlive process = true → process ∈ s.inFlight :=
        fun process alive => entered.mem_inFlight locked capturing alive
      refine ⟨s, _, s.inFlight, reached, captured, rfl, history, complete, fun kept closed => ?_⟩
      have refuses : s.refuses = true := by
        cases step_of_step? refused with
        | refuse _ => exact refuses_of_after? kept waited rfl
      have shut : Closed { s with holder := none, cancel := .captured s.inFlight } :=
        ⟨refuses, (Closed.of_capturing locked refuses capturing).idle⟩
      obtain ⟨count, none⟩ := shut.run closed history
      refine ⟨none, count, fun done process started => ?_⟩
      obtain ⟨ended, remaining, split, cancel, terminated⟩ := terminated_of_after? rfl history
      rw [done] at cancel
      cases cancel
      by_cases finished : process ∈ s.finished
      · exact .inl finished
      · have alive : s.isAlive process = true :=
          (isAlive_iff s process).2 ⟨count ▸ started, finished⟩
        have mem : process ∈ ended := by
          rw [List.append_nil] at split
          exact split ▸ complete process alive
        exact .inr (terminated ▸ List.mem_append_right _ mem)

/-- The second worker has looked before processes are refused and starts its process afterwards. -/
theorem no_process_escapes_refused_after_look :
    ∃ t, State.initial.after?
        ([.enter 0, .look 0, .start 0, .record 0, .enter 1, .look 1] ++ .refuse ::
          ([.start 1, .record 1, .enter 2, .look 2, .leave 0, .strike 0, .seize] ++ .capture ::
            [.terminate, .enter 3, .look 3, .leave 1, .strike 1])) = some t ∧
      t.cancel = .captured [] ∧ t.count = 2 ∧
      ∀ process < 2, process = 0 ∨ process ∈ t.terminated := by
  have possible : (State.initial.after?
        ([.enter 0, .look 0, .start 0, .record 0, .enter 1, .look 1] ++ .refuse ::
          ([.start 1, .record 1, .enter 2, .look 2, .leave 0, .strike 0, .seize] ++ .capture ::
            [.terminate, .enter 3, .look 3, .leave 1, .strike 1]))).map
      (fun t => (t.cancel, t.count)) = some (.captured [], 2) := by decide +kernel
  obtain ⟨t, history, eq⟩ := Option.map_eq_some_iff.1 possible
  obtain ⟨done, count⟩ := Prod.mk.inj eq
  obtain ⟨s, u, snapshot, reached, _, _, _, _, closed⟩ := no_process_escapes
    [.enter 0, .look 0, .start 0, .record 0, .enter 1, .look 1]
    [.start 1, .record 1, .enter 2, .look 2, .leave 0, .strike 0, .seize]
    [.terminate, .enter 3, .look 3, .leave 1, .strike 1] t history
  obtain ⟨_, _, ended⟩ := closed (by decide) (by decide)
  have struck : (State.initial.after? ([.enter 0, .look 0, .start 0, .record 0, .enter 1, .look 1]
      ++ .refuse :: [.start 1, .record 1, .enter 2, .look 2, .leave 0, .strike 0, .seize])).map
      (·.finished) = some [0] := by decide +kernel
  rw [reached] at struck
  have struck : s.finished = [0] := Option.some.inj struck
  refine ⟨t, history, done, count, fun process started => ?_⟩
  rcases ended done process (count ▸ started) with finished | terminated
  · rw [struck] at finished
    exact .inl (List.mem_singleton.1 finished)
  · exact .inr terminated

end State

end FileCoverage.Interruption
