import CmppProtocol.Library.Focus
import CmppProtocol.Teardown.Shutdown

/-! # What a close leaves behind

One driver at most is ever started and one takeover at most is under way. A close
that returns leaves a closed connection whose workers have ended or are aborted,
and the last handle that goes closes the connection too.
-/

namespace CmppProtocol

open List

/-! ## Stages -/

def CloseStage.drives : CloseStage → Bool
  | .elected | .closing _ => true
  | _ => false

def CloseStage.takesOver : CloseStage → Bool
  | .takingOver => true
  | _ => false

/-- Own steps that are left at most. -/
def ReapStage.rank : ReapStage → ℕ
  | .submitting => 13
  | .terminating | .exhausted => 12
  | .sealing => 11
  | .finishing => 10
  | .forgetting => 9
  | .awaitingClosed => 8
  | .forcing => 7
  | .aborting => 6
  | .awaitingWorkers => 5
  | .collecting => 4
  | .awaitingCleanup => 3
  | .cleaning => 2
  | .completing => 1
  | .releasing | .ended | .lost => 0

def ReapStage.isAlive (stage : ReapStage) : Bool := stage ≠ .ended && stage ≠ .lost

/-- From here on the phase is closed. -/
def ReapStage.isClosed (stage : ReapStage) : Bool := stage.rank ≤ 6 && stage ≠ .lost

/-- From here on the workers are aborted. -/
def ReapStage.hasAborted (stage : ReapStage) : Bool := stage.rank ≤ 5 && stage ≠ .lost

def ReapStage.hasCompleted (stage : ReapStage) : Bool := stage.rank = 0 && stage ≠ .lost

/-- The takeover holds the guard. -/
def CloseTask.guards (task : CloseTask) : Bool := task.takeover && task.stage.isAlive

def BackgroundTask.isStopped (worker : BackgroundTask) : Bool :=
  worker.aborted || worker.stage = .ended

namespace Shutdown

variable {s s' t : Shutdown} {index : ℕ}

/-! ## What the step of a driver or a takeover does -/

/-- From a stage to a stage; the state is the one before the stage is stored. -/
inductive TaskMove (s : Shutdown) (takeover : Bool) : ReapStage → ReapStage → Shutdown → Prop
  | wait {stage stage' : ReapStage} (hlower : stage'.rank < stage.rank)
    (hopen : stage'.isClosed = false) (halive : stage'.isAlive = true) :
    TaskMove s takeover stage stage' s
  | finish {stage stage' : ReapStage} (hlower : stage'.rank < stage.rank)
    (haborted : stage'.hasAborted = false) (halive : stage'.isAlive = true) :
    TaskMove s takeover stage stage' s.finish
  | closed (hclosed : s.phase = .closed) : TaskMove s takeover .awaitingClosed .aborting s
  | abort : TaskMove s takeover .aborting .awaitingWorkers s.abortWorkers
  | workers (hcomplete : s.workersComplete = true) :
    TaskMove s takeover .awaitingWorkers .collecting s
  | reap {stage stage' : ReapStage} (hlower : stage'.rank < stage.rank)
    (haborted : stage.hasAborted = true) (hstage : stage' = .awaitingCleanup ∨ stage' = .cleaning ∨
      stage' = .completing) : TaskMove s takeover stage stage' s
  | collect : TaskMove s takeover .collecting .awaitingCleanup { s with backgroundTasks := [] }
  | clean : TaskMove s takeover .cleaning .completing { s with cleanupComplete := true }
  | complete : TaskMove s takeover .completing (if takeover then .releasing else .ended)
    { s with closeComplete := true }
  | release : TaskMove s takeover .releasing .ended (s.dropGuard takeover)
  | lose {stage : ReapStage} (halive : stage.isAlive = true) :
    TaskMove s takeover stage .lost (s.dropGuard takeover)

theorem ReapStage.isAlive_of_rank {stage stage' : ReapStage} (hlower : stage'.rank < stage.rank) :
    stage.isAlive = true := by
  cases stage with
  | ended | lost => exact absurd hlower (Nat.not_lt_zero _)
  | _ => rfl

theorem taskNext_move {event : TaskEvent} (hnext : s.taskNext index event = some s') :
    ∃ takeover stage stage' t, s.tasks[index]? = some ⟨takeover, stage⟩ ∧
      TaskMove s takeover stage stage' t ∧ s' = t.setTask index ⟨takeover, stage'⟩ := by
  unfold taskNext at hnext
  split at hnext
  · next takeover stage htask =>
    refine ⟨takeover, stage, ?_⟩
    cases event with
    | lose =>
      cases stage with
      | ended | lost => cases hnext
      | _ =>
        cases hnext
        exact ⟨_, _, htask, .lose rfl, rfl⟩
    | sequenceExhausted =>
      cases stage with
      | submitting =>
        cases hnext
        exact ⟨_, _, htask, .wait (by decide) rfl rfl, rfl⟩
      | _ => cases hnext
    | timeout =>
      cases stage with
      | awaitingClosed =>
        cases hnext
        exact ⟨_, _, htask, .wait (by decide) rfl rfl, rfl⟩
      | awaitingWorkers =>
        cases hnext
        exact ⟨_, _, htask, .reap (by decide) rfl (Or.inl rfl), rfl⟩
      | awaitingCleanup =>
        cases hnext
        exact ⟨_, _, htask, .reap (by decide) rfl (Or.inr (Or.inl rfl)), rfl⟩
      | cleaning =>
        cases hnext
        exact ⟨_, _, htask, .reap (by decide) rfl (Or.inr (Or.inr rfl)), rfl⟩
      | _ => cases hnext
    | advance =>
      cases stage with
      | submitting | terminating | sealing | forgetting =>
        cases hnext
        exact ⟨_, _, htask, .wait (by decide) rfl rfl, rfl⟩
      | exhausted | forcing =>
        cases hnext
        exact ⟨_, _, htask, .finish (by decide) rfl rfl, rfl⟩
      | finishing =>
        cases hnext
        cases takeover
        · exact ⟨_, _, htask, .finish (by decide) rfl rfl, rfl⟩
        · exact ⟨_, _, htask, .finish (by decide) rfl rfl, rfl⟩
      | awaitingClosed =>
        dsimp only at hnext
        split_ifs at hnext with hclosed
        cases hnext
        exact ⟨_, _, htask, .closed hclosed, rfl⟩
      | aborting =>
        cases hnext
        exact ⟨_, _, htask, .abort, rfl⟩
      | awaitingWorkers =>
        dsimp only at hnext
        split_ifs at hnext with hcomplete
        cases hnext
        exact ⟨_, _, htask, .workers hcomplete, rfl⟩
      | collecting =>
        cases hnext
        exact ⟨_, _, htask, .collect, rfl⟩
      | awaitingCleanup =>
        dsimp only at hnext
        split_ifs at hnext with hcleanup
        cases hnext
        exact ⟨_, _, htask, .reap (by decide) rfl (Or.inr (Or.inr rfl)), rfl⟩
      | cleaning =>
        cases hnext
        exact ⟨_, _, htask, .clean, rfl⟩
      | completing =>
        cases hnext
        exact ⟨_, _, htask, .complete, rfl⟩
      | releasing =>
        cases hnext
        exact ⟨_, _, htask, .release, rfl⟩
      | ended | lost => cases hnext
  · cases hnext

/-! ## Elections -/

/-- One election for each flag: who has won it and has not spawned its task yet, or the task. -/
structure Elected (s : Shutdown) : Prop where
  driver : s.calls.countP CloseStage.drives + s.tasks.countP (fun task => !task.takeover) =
    s.closeDriverStarted.toNat
  takeover : s.calls.countP CloseStage.takesOver + s.tasks.countP CloseTask.guards =
    s.takeoverStarted.toNat

theorem Elected.setCall (h : s.Elected) {stage stage' : CloseStage}
    (hcall : s.calls[index]? = some stage) (hdrives : stage'.drives = stage.drives)
    (htakes : stage'.takesOver = stage.takesOver) : (s.setCall index stage').Elected := by
  have hdriver := countP_set_add hcall CloseStage.drives stage'
  have htakeover := countP_set_add hcall CloseStage.takesOver stage'
  rw [hdrives] at hdriver
  rw [htakes] at htakeover
  constructor
  · have heq := h.driver
    change (s.calls.set index _).countP _ + s.tasks.countP _ = s.closeDriverStarted.toNat
    omega
  · have heq := h.takeover
    change (s.calls.set index _).countP _ + s.tasks.countP _ = s.takeoverStarted.toNat
    omega

theorem Elected.callNext (h : s.Elected) (hnext : s.callNext index = some s') : s'.Elected := by
  have hdriver := h.driver
  have htakeover := h.takeover
  unfold Shutdown.callNext at hnext
  split at hnext
  · next hcall =>
    cases hnext
    split_ifs with hstarted
    · exact h.setCall hcall rfl rfl
    · have hdrives := countP_set_add hcall CloseStage.drives .elected
      have htakes := countP_set_add hcall CloseStage.takesOver .elected
      rw [Bool.eq_false_of_not_eq_true hstarted] at hdriver
      simp only [CloseStage.drives, CloseStage.takesOver, Bool.toNat_false, Bool.toNat_true] at *
      constructor
      · change (s.calls.set index _).countP _ + s.tasks.countP _ = 1
        omega
      · change (s.calls.set index _).countP _ + s.tasks.countP _ = s.takeoverStarted.toNat
        omega
  · next hcall =>
    cases hnext
    split_ifs
    · have hclosing : Elected (s.setCall index (.closing true)) := h.setCall hcall rfl rfl
      exact ⟨hclosing.driver, hclosing.takeover⟩
    · exact h.setCall hcall rfl rfl
  · next graceful hcall =>
    cases hnext
    have hdrives := countP_set_add hcall CloseStage.drives .waiting
    have htakes := countP_set_add hcall CloseStage.takesOver .waiting
    simp only [CloseStage.drives, CloseStage.takesOver, Bool.toNat_false, Bool.toNat_true] at *
    constructor
    · change (s.calls.set index _).countP _ + (s.tasks ++ [_]).countP _ = s.closeDriverStarted.toNat
      rw [countP_append, countP_singleton, Bool.not_false, if_pos rfl]
      omega
    · change (s.calls.set index _).countP _ + (s.tasks ++ [_]).countP _ = s.takeoverStarted.toNat
      have hguards : CloseTask.guards ⟨false, if graceful then .submitting else .awaitingClosed⟩ =
        false := rfl
      rw [countP_append, countP_singleton, hguards, if_neg Bool.false_ne_true]
      omega
  · next hcall =>
    split_ifs at hnext
    cases hnext
    exact h.setCall hcall rfl rfl
  · next hcall =>
    split_ifs at hnext
    cases hnext
    exact h.setCall hcall rfl rfl
  · next hcall =>
    cases hnext
    split_ifs
    · exact h.setCall hcall rfl rfl
    · exact h.setCall hcall rfl rfl
  · next hcall =>
    cases hnext
    split_ifs with hstarted
    · exact h.setCall hcall rfl rfl
    · have hdrives := countP_set_add hcall CloseStage.drives .takingOver
      have htakes := countP_set_add hcall CloseStage.takesOver .takingOver
      rw [Bool.eq_false_of_not_eq_true hstarted] at htakeover
      simp only [CloseStage.drives, CloseStage.takesOver, Bool.toNat_false, Bool.toNat_true] at *
      constructor
      · change (s.calls.set index _).countP _ + s.tasks.countP _ = s.closeDriverStarted.toNat
        omega
      · change (s.calls.set index _).countP _ + s.tasks.countP _ = 1
        omega
  · next hcall =>
    cases hnext
    have hdrives := countP_set_add hcall CloseStage.drives .waitingAgain
    have htakes := countP_set_add hcall CloseStage.takesOver .waitingAgain
    simp only [CloseStage.drives, CloseStage.takesOver, Bool.toNat_false, Bool.toNat_true] at *
    constructor
    · change (s.calls.set index _).countP _ + (s.tasks ++ [_]).countP _ = s.closeDriverStarted.toNat
      rw [countP_append, countP_singleton, Bool.not_true, if_neg Bool.false_ne_true]
      omega
    · change (s.calls.set index _).countP _ + (s.tasks ++ [_]).countP _ = s.takeoverStarted.toNat
      have hguards : CloseTask.guards ⟨true, .sealing⟩ = true := rfl
      rw [countP_append, countP_singleton, if_pos hguards]
      omega
  · cases hnext

theorem Elected.setTask (h : s.Elected) {takeover : Bool} {stage stage' : ReapStage}
    (htask : s.tasks[index]? = some ⟨takeover, stage⟩)
    (halive : takeover = true → stage.isAlive = stage'.isAlive) :
    (s.setTask index ⟨takeover, stage'⟩).Elected := by
  have hdrives : (s.tasks.set index ⟨takeover, stage'⟩).countP (fun task => !task.takeover) +
      (!takeover).toNat = s.tasks.countP (fun task => !task.takeover) + (!takeover).toNat :=
    countP_set_add htask (fun task => !task.takeover) ⟨takeover, stage'⟩
  have hholds := countP_set_add htask CloseTask.guards ⟨takeover, stage'⟩
  have hguards : CloseTask.guards ⟨takeover, stage'⟩ = CloseTask.guards ⟨takeover, stage⟩ := by
    cases takeover with
    | false => rfl
    | true => rw [CloseTask.guards, CloseTask.guards, halive rfl]
  rw [hguards] at hholds
  constructor
  · have heq := h.driver
    change s.calls.countP _ + (s.tasks.set index _).countP _ = s.closeDriverStarted.toNat
    omega
  · have heq := h.takeover
    change s.calls.countP _ + (s.tasks.set index _).countP _ = s.takeoverStarted.toNat
    omega

/-- The guard is dropped with the task that holds it. -/
theorem Elected.dropGuard (h : s.Elected) {takeover : Bool} {stage stage' : ReapStage}
    (htask : s.tasks[index]? = some ⟨takeover, stage⟩) (halive : stage.isAlive = true)
    (hover : stage'.isAlive = false) :
    ((s.dropGuard takeover).setTask index ⟨takeover, stage'⟩).Elected := by
  have hdrives : (s.tasks.set index ⟨takeover, stage'⟩).countP (fun task => !task.takeover) +
      (!takeover).toNat = s.tasks.countP (fun task => !task.takeover) + (!takeover).toNat :=
    countP_set_add htask (fun task => !task.takeover) ⟨takeover, stage'⟩
  have hholds := countP_set_add htask CloseTask.guards ⟨takeover, stage'⟩
  have hle := Bool.toNat_le s.takeoverStarted
  constructor
  · have heq := h.driver
    change s.calls.countP _ + (s.tasks.set index _).countP _ = s.closeDriverStarted.toNat
    omega
  · have heq := h.takeover
    change s.calls.countP _ + (s.tasks.set index _).countP _ =
      (s.takeoverStarted && !takeover).toNat
    simp only [CloseTask.guards, halive, hover, Bool.and_true, Bool.and_false, Bool.toNat_false]
      at hholds
    cases takeover with
    | false =>
      rw [Bool.not_false, Bool.and_true]
      rw [Bool.toNat_false] at hholds
      omega
    | true =>
      rw [Bool.not_true, Bool.and_false, Bool.toNat_false]
      rw [Bool.toNat_true] at hholds
      omega

theorem Elected.taskNext (h : s.Elected) {event : TaskEvent}
    (hnext : s.taskNext index event = some s') : s'.Elected := by
  obtain ⟨takeover, stage, stage', t, htask, hmove, rfl⟩ := taskNext_move hnext
  cases hmove with
  | wait hlower hopen halive =>
    exact h.setTask htask fun _ => (ReapStage.isAlive_of_rank hlower).trans halive.symm
  | finish hlower haborted halive =>
    have hfinish : s.finish.Elected := ⟨h.driver, h.takeover⟩
    exact hfinish.setTask htask fun _ => (ReapStage.isAlive_of_rank hlower).trans halive.symm
  | closed hclosed => exact h.setTask htask fun _ => rfl
  | abort =>
    have habort : s.abortWorkers.Elected := ⟨h.driver, h.takeover⟩
    exact habort.setTask htask fun _ => rfl
  | workers hcomplete => exact h.setTask htask fun _ => rfl
  | reap hlower haborted hstage =>
    refine h.setTask htask fun _ => (ReapStage.isAlive_of_rank hlower).trans ?_
    rcases hstage with rfl | rfl | rfl
    · rfl
    · rfl
    · rfl
  | collect =>
    have hcollect : ({ s with backgroundTasks := [] } : Shutdown).Elected := ⟨h.driver, h.takeover⟩
    exact hcollect.setTask htask fun _ => rfl
  | clean =>
    have hclean : ({ s with cleanupComplete := true } : Shutdown).Elected := ⟨h.driver, h.takeover⟩
    exact hclean.setTask htask fun _ => rfl
  | complete =>
    have hdone : ({ s with closeComplete := true } : Shutdown).Elected := ⟨h.driver, h.takeover⟩
    refine hdone.setTask htask fun htakeover => ?_
    rw [if_pos htakeover]
    rfl
  | release => exact h.dropGuard htask rfl rfl
  | lose halive => exact h.dropGuard htask halive rfl

/-! ## Handles -/

/-- A connection without a handle is closed, or the last drop is about to close it. -/
structure Manned (s : Shutdown) : Prop where
  handles : s.externalHandles = s.handles
  last : 0 < s.lastDrops → s.handles = 0
  gone : s.handles = 0 → 0 < s.lastDrops ∨ s.phase = .closed

/-- A step that leaves the handles alone does not leave the closed phase. -/
theorem Manned.carry (h : s.Manned) (hhandles : s'.handles = s.handles)
    (hexternal : s'.externalHandles = s.externalHandles) (hlast : s'.lastDrops = s.lastDrops)
    (hphase : s.phase = .closed → s'.phase = .closed) : s'.Manned := by
  constructor
  · rw [hexternal, hhandles, h.handles]
  · rw [hlast, hhandles]
    exact h.last
  · rw [hlast, hhandles]
    exact fun hgone => (h.gone hgone).imp_right hphase

theorem Manned.clone (h : s.Manned) (hhandles : 0 < s.handles) :
    Manned { s with handles := s.handles + 1, externalHandles := s.externalHandles + 1 } := by
  constructor
  · exact congrArg (· + 1) h.handles
  · intro hlast
    have hzero := h.last hlast
    omega
  · exact fun hzero => absurd hzero (Nat.succ_ne_zero _)

theorem Manned.drop (h : s.Manned) (hhandles : 0 < s.handles) : s.drop.Manned := by
  have hexternal := h.handles
  have hnone : s.lastDrops = 0 := by
    have hlast := h.last
    omega
  constructor
  · exact congrArg (· - 1) h.handles
  · intro hlast
    dsimp only [Shutdown.drop] at hlast ⊢
    split_ifs at hlast
    · omega
    · omega
  · intro hzero
    dsimp only [Shutdown.drop] at hzero ⊢
    rw [if_pos (by omega)]
    exact Or.inl (Nat.succ_pos _)

theorem Manned.finishDrop (h : s.Manned) (hlast : 0 < s.lastDrops) :
    Manned { s.finish with lastDrops := s.lastDrops - 1 } := by
  constructor
  · exact h.handles
  · exact fun _ => h.last hlast
  · exact fun _ => Or.inr rfl

/-! ## Workers -/

def stages (s : Shutdown) : List WorkerStage := s.workers.map BackgroundTask.stage

/-- The count is exact, and the last worker alone reports that all have ended. -/
structure Staffed (s : Shutdown) : Prop where
  remaining : s.workersRemaining = s.stages.count .running
  last : s.stages.count .signalling + s.workersComplete.toNat =
    if s.workersRemaining = 0 then 1 else 0
  kept : ∀ index stage, s.stages[index]? = some stage → index ∈ s.backgroundTasks ∨ stage = .ended

theorem Staffed.initial : initial.Staffed := by
  constructor
  · rfl
  · rfl
  · intro index stage hstage
    have hlt : index < 4 := (List.getElem?_eq_some_iff.mp hstage).1
    exact Or.inl (List.mem_range.mpr hlt)

theorem Staffed.carry (h : s.Staffed) (hstages : s'.stages = s.stages)
    (hremaining : s'.workersRemaining = s.workersRemaining)
    (hcomplete : s'.workersComplete = s.workersComplete)
    (htasks : s'.backgroundTasks = s.backgroundTasks) : s'.Staffed := by
  constructor
  · rw [hremaining, hstages, h.remaining]
  · rw [hremaining, hstages, hcomplete, h.last]
  · rw [hstages, htasks]
    exact h.kept

theorem stages_abortWorkers (s : Shutdown) : s.abortWorkers.stages = s.stages := by
  ext index : 1
  unfold stages abortWorkers
  rw [getElem?_map, getElem?_map, getElem?_mapIdx, Option.map_map]
  rfl

/-- All workers have ended when the last one has said so. -/
theorem Staffed.ended (h : s.Staffed) (hcomplete : s.workersComplete = true) :
    ∀ stage ∈ s.stages, stage = .ended := by
  have hlast := h.last
  have hremaining := h.remaining
  rw [hcomplete, Bool.toNat_true] at hlast
  have hzero : s.workersRemaining = 0 := by
    by_contra hne
    rw [if_neg hne] at hlast
    omega
  rw [if_pos hzero] at hlast
  have hrunning : s.stages.count .running = 0 := by omega
  have hsignalling : s.stages.count .signalling = 0 := by omega
  intro stage hstage
  cases stage with
  | running => exact absurd hstage (count_eq_zero.mp hrunning)
  | signalling => exact absurd hstage (count_eq_zero.mp hsignalling)
  | ended => rfl

/-- And the last one does say so. -/
theorem Staffed.complete (h : s.Staffed) (hended : ∀ stage ∈ s.stages, stage = .ended) :
    s.workersComplete = true := by
  have hnone (stage : WorkerStage) (hne : stage ≠ .ended) : s.stages.count stage = 0 :=
    count_eq_zero.mpr fun hmem => hne (hended stage hmem)
  have hlast := h.last
  rw [hnone .signalling (by decide),
    if_pos (h.remaining.trans (hnone .running (by decide)))] at hlast
  cases hcomplete : s.workersComplete with
  | true => rfl
  | false =>
    rw [hcomplete, Bool.toNat_false] at hlast
    omega

theorem Staffed.collect (h : s.Staffed) (hcomplete : s.workersComplete = true) :
    Staffed { s with backgroundTasks := [] } := by
  constructor
  · exact h.remaining
  · exact h.last
  · intro index stage hstage
    exact Or.inr (h.ended hcomplete stage (mem_of_getElem? hstage))

theorem stages_setWorker (s : Shutdown) (index : ℕ) (worker : BackgroundTask) :
    (s.setWorker index worker).stages = s.stages.set index worker.stage := map_set

theorem count_setWorker {stage : WorkerStage} (hstage : s.stages[index]? = some stage)
    (worker : BackgroundTask) (x : WorkerStage) :
    (s.setWorker index worker).stages.count x + (if stage = x then 1 else 0) =
      s.stages.count x + if worker.stage = x then 1 else 0 := by
  rw [stages_setWorker]
  have hcount := countP_set_add hstage (· == x) worker.stage
  simpa only [count, ← ite_toNat, beq_iff_eq] using hcount

theorem Staffed.kept_set (h : s.Staffed) {stage stage' : WorkerStage}
    (hstage : s.stages[index]? = some stage) (hne : stage ≠ .ended) :
    ∀ i x, (s.stages.set index stage')[i]? = some x → i ∈ s.backgroundTasks ∨ x = .ended := by
  intro i x hx
  rw [getElem?_set] at hx
  split_ifs at hx with heq
  · subst heq
    exact (h.kept _ _ hstage).imp_right fun hended => absurd hended hne
  · exact h.kept i x hx

theorem Staffed.workerNext (h : s.Staffed) (hnext : s.workerNext index = some s') : s'.Staffed := by
  have hremaining := h.remaining
  have hlast := h.last
  unfold Shutdown.workerNext at hnext
  split at hnext
  · next aborted hworker =>
    have hstage : s.stages[index]? = some .running := by
      rw [stages, getElem?_map, hworker, Option.map_some]
    have hpos : 0 < s.stages.count .running := count_pos_iff.mpr (mem_of_getElem? hstage)
    cases hnext
    by_cases hone : s.workersRemaining = 1
    · have hrunning := count_setWorker hstage ⟨.signalling, aborted⟩ .running
      have hsignalling := count_setWorker hstage ⟨.signalling, aborted⟩ .signalling
      simp only [reduceCtorEq, if_true, if_false] at hrunning hsignalling
      rw [if_pos hone]
      refine ⟨?_, ?_, ?_⟩
      · change s.workersRemaining - 1 = (s.setWorker index _).stages.count .running
        omega
      · change (s.setWorker index _).stages.count .signalling + s.workersComplete.toNat =
          if s.workersRemaining - 1 = 0 then 1 else 0
        rw [hone, if_pos rfl]
        rw [if_neg (by omega)] at hlast
        omega
      · change ∀ i x, (s.setWorker index _).stages[i]? = some x → i ∈ s.backgroundTasks ∨ x = .ended
        rw [stages_setWorker]
        exact h.kept_set hstage (by decide)
    · have hrunning := count_setWorker hstage ⟨.ended, aborted⟩ .running
      have hsignalling := count_setWorker hstage ⟨.ended, aborted⟩ .signalling
      simp only [reduceCtorEq, if_true, if_false] at hrunning hsignalling
      rw [if_neg hone]
      refine ⟨?_, ?_, ?_⟩
      · change s.workersRemaining - 1 = (s.setWorker index _).stages.count .running
        omega
      · change (s.setWorker index _).stages.count .signalling + s.workersComplete.toNat =
          if s.workersRemaining - 1 = 0 then 1 else 0
        rw [if_neg (by omega)]
        rw [if_neg (by omega)] at hlast
        omega
      · change ∀ i x, (s.setWorker index _).stages[i]? = some x → i ∈ s.backgroundTasks ∨ x = .ended
        rw [stages_setWorker]
        exact h.kept_set hstage (by decide)
  · next aborted hworker =>
    have hstage : s.stages[index]? = some .signalling := by
      rw [stages, getElem?_map, hworker, Option.map_some]
    have hpos : 0 < s.stages.count .signalling := count_pos_iff.mpr (mem_of_getElem? hstage)
    have hrunning := count_setWorker hstage ⟨.ended, aborted⟩ .running
    have hsignalling := count_setWorker hstage ⟨.ended, aborted⟩ .signalling
    simp only [reduceCtorEq, if_true, if_false] at hrunning hsignalling
    cases hnext
    have hzero : s.workersRemaining = 0 := by
      by_contra hne
      rw [if_neg hne] at hlast
      omega
    rw [if_pos hzero] at hlast
    refine ⟨?_, ?_, ?_⟩
    · change s.workersRemaining = (s.setWorker index _).stages.count .running
      omega
    · change (s.setWorker index _).stages.count .signalling + 1 =
        if s.workersRemaining = 0 then 1 else 0
      rw [if_pos hzero]
      omega
    · change ∀ i x, (s.setWorker index _).stages[i]? = some x → i ∈ s.backgroundTasks ∨ x = .ended
      rw [stages_setWorker]
      exact h.kept_set hstage (by decide)
  · cases hnext

/-! ## What a task has behind it -/

def Stopped (s : Shutdown) : Prop := ∀ worker ∈ s.workers, worker.isStopped = true

structure Backed (s : Shutdown) (stage : ReapStage) : Prop where
  closed : stage.isClosed = true → s.phase = .closed
  aborted : stage.hasAborted = true → s.Stopped
  collecting : stage = .collecting → s.workersComplete = true
  completed : stage.hasCompleted = true → s.closeComplete = true

structure Reaped (s : Shutdown) : Prop where
  tasks : ∀ task ∈ s.tasks, s.Backed task.stage
  complete : s.closeComplete = true → s.phase = .closed ∧ s.Stopped
  returned : .returned ∈ s.calls → s.closeComplete = true

/-- What no step takes back. -/
structure Grows (s s' : Shutdown) : Prop where
  phase : s.phase = .closed → s'.phase = .closed
  stopped : s.Stopped → s'.Stopped
  workers : s.workersComplete = true → s'.workersComplete = true
  complete : s.closeComplete = true → s'.closeComplete = true

theorem Backed.grow {stage : ReapStage} (h : s.Backed stage) (hgrows : s.Grows s') :
    s'.Backed stage := by
  constructor
  · exact fun hstage => hgrows.phase (h.closed hstage)
  · exact fun hstage => hgrows.stopped (h.aborted hstage)
  · exact fun hstage => hgrows.workers (h.collecting hstage)
  · exact fun hstage => hgrows.complete (h.completed hstage)

theorem Reaped.grow (h : s.Reaped) (hgrows : s.Grows s') (htasks : s'.tasks = s.tasks)
    (hcalls : s'.calls = s.calls) (hcomplete : s'.closeComplete = s.closeComplete) : s'.Reaped := by
  constructor
  · rw [htasks]
    exact fun task htask => (h.tasks task htask).grow hgrows
  · intro hdone
    rw [hcomplete] at hdone
    exact (h.complete hdone).imp hgrows.phase hgrows.stopped
  · rw [hcalls, hcomplete]
    exact h.returned

theorem Backed.of_open {stage : ReapStage} (hopen : stage.isClosed = false) : s.Backed stage := by
  have haborted : stage.hasAborted = false := by
    cases stage <;> first | rfl | cases hopen
  have hcompleted : stage.hasCompleted = false := by
    cases stage <;> first | rfl | cases hopen
  constructor
  · rw [hopen]
    exact fun h => absurd h Bool.false_ne_true
  · rw [haborted]
    exact fun h => absurd h Bool.false_ne_true
  · rintro rfl
    cases hopen
  · rw [hcompleted]
    exact fun h => absurd h Bool.false_ne_true

theorem Backed.of_stopped {stage : ReapStage} (hclosed : s.phase = .closed) (hstopped : s.Stopped)
    (hne : stage ≠ .collecting) (hcompleted : stage.hasCompleted = false) : s.Backed stage := by
  constructor
  · exact fun _ => hclosed
  · exact fun _ => hstopped
  · exact fun heq => absurd heq hne
  · rw [hcompleted]
    exact fun h => absurd h Bool.false_ne_true

theorem Backed.of_closed {stage : ReapStage} (hclosed : s.phase = .closed)
    (haborted : stage.hasAborted = false) : s.Backed stage := by
  have hcompleted : stage.hasCompleted = false := by
    cases stage <;> first | rfl | cases haborted
  constructor
  · exact fun _ => hclosed
  · rw [haborted]
    exact fun h => absurd h Bool.false_ne_true
  · rintro rfl
    cases haborted
  · rw [hcompleted]
    exact fun h => absurd h Bool.false_ne_true

theorem Reaped.setCall (h : s.Reaped) {stage : CloseStage}
    (hreturned : stage = .returned → s.closeComplete = true) : (s.setCall index stage).Reaped := by
  constructor
  · exact fun task htask => (h.tasks task htask).grow ⟨id, id, id, id⟩
  · exact h.complete
  · intro hmem
    rcases mem_or_eq_of_mem_set hmem with hmem | heq
    · exact h.returned hmem
    · exact hreturned heq.symm

theorem Reaped.setTask (h : s.Reaped) {takeover : Bool} {stage : ReapStage}
    (hbacked : s.Backed stage) : (s.setTask index ⟨takeover, stage⟩).Reaped := by
  refine ⟨fun other hother => ?_, h.complete, h.returned⟩
  rcases mem_or_eq_of_mem_set hother with hother | rfl
  · exact (h.tasks other hother).grow ⟨id, id, id, id⟩
  · exact hbacked.grow ⟨id, id, id, id⟩

theorem Reaped.spawn (h : s.Reaped) {task : CloseTask} (hopen : task.stage.isClosed = false) :
    Reaped { s with tasks := s.tasks ++ [task] } := by
  refine ⟨fun other hother => ?_, h.complete, h.returned⟩
  rcases mem_append.mp hother with hother | hother
  · exact (h.tasks other hother).grow ⟨id, id, id, id⟩
  · rw [mem_singleton.mp hother]
    exact .of_open hopen

theorem grows_finish (s : Shutdown) : s.Grows s.finish := ⟨fun _ => rfl, id, id, id⟩

theorem grows_abortWorkers (s : Shutdown) : s.Grows s.abortWorkers := by
  refine ⟨id, fun hstopped worker hworker => ?_, id, id⟩
  obtain ⟨index, hindex, rfl⟩ := mem_mapIdx.mp hworker
  have hold := hstopped _ (getElem_mem hindex)
  simp only [BackgroundTask.isStopped, Bool.or_eq_true] at hold ⊢
  exact hold.imp_left Or.inl

/-- Behind the abort every worker has ended or is aborted. -/
theorem Staffed.abort (h : s.Staffed) : s.abortWorkers.Stopped := by
  intro worker hworker
  obtain ⟨index, hindex, rfl⟩ := mem_mapIdx.mp hworker
  have hstage : s.stages[index]? = some (s.workers[index]).stage := by
    rw [stages, getElem?_map, getElem?_eq_getElem hindex, Option.map_some]
  simp only [BackgroundTask.isStopped, Bool.or_eq_true, contains_iff_mem, decide_eq_true_eq]
  rcases h.kept index _ hstage with hkept | hended
  · exact Or.inl (Or.inr hkept)
  · exact Or.inr hended

theorem Reaped.callNext (h : s.Reaped) (hnext : s.callNext index = some s') : s'.Reaped := by
  unfold Shutdown.callNext at hnext
  split at hnext
  · cases hnext
    split_ifs
    · exact h.setCall fun heq => by cases heq
    · have helected : Reaped (s.setCall index .elected) := h.setCall fun heq => by cases heq
      exact helected.grow ⟨id, id, id, id⟩ rfl rfl rfl
  · cases hnext
    split_ifs with hopened
    · have hclosing : Reaped (s.setCall index (.closing true)) :=
        h.setCall fun heq => by cases heq
      refine hclosing.grow ⟨fun hclosed => ?_, id, id, id⟩ rfl rfl rfl
      exact absurd (hopened.symm.trans hclosed) (by decide)
    · exact h.setCall fun heq => by cases heq
  · next graceful _ =>
    cases hnext
    have hwaiting : Reaped (s.setCall index .waiting) := h.setCall fun heq => by cases heq
    apply hwaiting.spawn
    cases graceful
    · rfl
    · rfl
  · split_ifs at hnext with hcomplete
    cases hnext
    exact h.setCall fun _ => hcomplete
  · split_ifs at hnext with hcomplete
    cases hnext
    exact h.setCall fun _ => hcomplete
  · cases hnext
    split_ifs with hcomplete
    · exact h.setCall fun _ => hcomplete
    · exact h.setCall fun heq => by cases heq
  · cases hnext
    split_ifs
    · exact h.setCall fun heq => by cases heq
    · have htaking : Reaped (s.setCall index .takingOver) := h.setCall fun heq => by cases heq
      exact htaking.grow ⟨id, id, id, id⟩ rfl rfl rfl
  · cases hnext
    have hwaiting : Reaped (s.setCall index .waitingAgain) := h.setCall fun heq => by cases heq
    exact hwaiting.spawn rfl
  · cases hnext

theorem Reaped.taskNext (h : s.Reaped) (hstaffed : s.Staffed) {event : TaskEvent}
    (hnext : s.taskNext index event = some s') : s'.Reaped := by
  obtain ⟨takeover, stage, stage', t, htask, hmove, rfl⟩ := taskNext_move hnext
  have hbacked := h.tasks _ (mem_of_getElem? htask)
  cases hmove with
  | wait hlower hopen halive => exact h.setTask (.of_open hopen)
  | finish hlower haborted halive =>
    have hfinish : s.finish.Reaped := h.grow s.grows_finish rfl rfl rfl
    exact hfinish.setTask (.of_closed rfl haborted)
  | closed hclosed => exact h.setTask (.of_closed hclosed rfl)
  | abort =>
    have habort : s.abortWorkers.Reaped := h.grow s.grows_abortWorkers rfl rfl rfl
    exact habort.setTask (.of_stopped (hbacked.closed rfl) hstaffed.abort (by decide) rfl)
  | workers hcomplete =>
    refine h.setTask ⟨fun _ => hbacked.closed rfl, fun _ => hbacked.aborted rfl,
      fun _ => hcomplete, ?_⟩
    exact fun hstage => absurd hstage (by decide)
  | reap hlower haborted hstage =>
    have hclosed : stage.isClosed = true := by
      cases stage <;> first | rfl | cases haborted
    have hphase := hbacked.closed hclosed
    have hstopped := hbacked.aborted haborted
    rcases hstage with rfl | rfl | rfl
    · exact h.setTask (.of_stopped hphase hstopped (by decide) rfl)
    · exact h.setTask (.of_stopped hphase hstopped (by decide) rfl)
    · exact h.setTask (.of_stopped hphase hstopped (by decide) rfl)
  | collect =>
    have hcollect : Reaped { s with backgroundTasks := [] } := h.grow ⟨id, id, id, id⟩ rfl rfl rfl
    exact hcollect.setTask (.of_stopped (hbacked.closed rfl) (hbacked.aborted rfl) (by decide) rfl)
  | clean =>
    have hclean : Reaped { s with cleanupComplete := true } := h.grow ⟨id, id, id, id⟩ rfl rfl rfl
    exact hclean.setTask (.of_stopped (hbacked.closed rfl) (hbacked.aborted rfl) (by decide) rfl)
  | complete =>
    have hclosed := hbacked.closed rfl
    have haborted := hbacked.aborted rfl
    have hdone : Reaped { s with closeComplete := true } := by
      constructor
      · exact fun task htask => (h.tasks task htask).grow ⟨id, id, id, fun _ => rfl⟩
      · exact fun _ => ⟨hclosed, haborted⟩
      · exact fun _ => rfl
    refine hdone.setTask ⟨fun _ => hclosed, fun _ => haborted, ?_, fun _ => rfl⟩
    intro hstage
    cases takeover
    · cases hstage
    · cases hstage
  | release =>
    have hrelease : (s.dropGuard takeover).Reaped := h.grow ⟨id, id, id, id⟩ rfl rfl rfl
    exact hrelease.setTask ⟨fun _ => hbacked.closed rfl, fun _ => hbacked.aborted rfl,
      fun hstage => absurd hstage (by decide), fun _ => hbacked.completed rfl⟩
  | lose halive =>
    have hlose : (s.dropGuard takeover).Reaped := h.grow ⟨id, id, id, id⟩ rfl rfl rfl
    exact hlose.setTask (.of_open rfl)

theorem grows_workerNext (hnext : s.workerNext index = some s') : s.Grows s' := by
  have hset (worker worker' : BackgroundTask) (hworker : s.workers[index]? = some worker)
      (hstop : worker.isStopped = true → worker'.isStopped = true) (hstopped : s.Stopped) :
      (s.setWorker index worker').Stopped := by
    intro other hother
    rcases mem_or_eq_of_mem_set hother with hother | rfl
    · exact hstopped other hother
    · exact hstop (hstopped worker (mem_of_getElem? hworker))
  unfold Shutdown.workerNext at hnext
  split at hnext
  · next aborted hworker =>
    cases hnext
    refine ⟨id, fun hstopped => hset _ _ hworker (fun hstop => ?_) hstopped, id, id⟩
    cases aborted with
    | false => cases hstop
    | true => rfl
  · next aborted hworker =>
    cases hnext
    refine ⟨id, fun hstopped => hset _ _ hworker (fun _ => ?_) hstopped, fun _ => rfl, id⟩
    exact Bool.or_true _
  · cases hnext

/-! ## Whole runs -/

structure Inv (s : Shutdown) : Prop where
  elected : s.Elected
  manned : s.Manned
  staffed : s.Staffed
  reaped : s.Reaped

theorem Inv.initial : initial.Inv := by
  refine ⟨⟨rfl, rfl⟩, ⟨rfl, ?_, ?_⟩, .initial, ⟨?_, ?_, ?_⟩⟩
  · exact fun hlast => absurd hlast (Nat.lt_irrefl 0)
  · exact fun hzero => absurd hzero Nat.one_ne_zero
  · exact fun task htask => absurd htask not_mem_nil
  · exact fun hcomplete => absurd hcomplete Bool.false_ne_true
  · exact fun hmem => absurd hmem not_mem_nil

/-- A step that touches neither handles nor workers. -/
theorem Inv.carry (h : s.Inv) (helected : s'.Elected) (hreaped : s'.Reaped)
    (hhandles : s'.handles = s.handles) (hexternal : s'.externalHandles = s.externalHandles)
    (hlast : s'.lastDrops = s.lastDrops) (hphase : s.phase = .closed → s'.phase = .closed)
    (hworkers : s'.workers = s.workers) (hremaining : s'.workersRemaining = s.workersRemaining)
    (hcomplete : s'.workersComplete = s.workersComplete)
    (htasks : s'.backgroundTasks = s.backgroundTasks) : s'.Inv := by
  refine ⟨helected, h.manned.carry hhandles hexternal hlast hphase, ?_, hreaped⟩
  exact h.staffed.carry (congrArg (List.map BackgroundTask.stage) hworkers) hremaining hcomplete
    htasks

theorem Inv.callNext (h : s.Inv) (hnext : s.callNext index = some s') : s'.Inv := by
  have helected := h.elected.callNext hnext
  have hreaped := h.reaped.callNext hnext
  unfold Shutdown.callNext at hnext
  split at hnext
  · cases hnext
    split_ifs at helected hreaped ⊢
    · exact h.carry helected hreaped rfl rfl rfl id rfl rfl rfl rfl
    · exact h.carry helected hreaped rfl rfl rfl id rfl rfl rfl rfl
  · cases hnext
    split_ifs at helected hreaped ⊢ with hopened
    · refine h.carry helected hreaped rfl rfl rfl (fun hclosed => ?_) rfl rfl rfl rfl
      exact absurd (hopened.symm.trans hclosed) (by decide)
    · exact h.carry helected hreaped rfl rfl rfl id rfl rfl rfl rfl
  · cases hnext
    exact h.carry helected hreaped rfl rfl rfl id rfl rfl rfl rfl
  · split_ifs at hnext
    cases hnext
    exact h.carry helected hreaped rfl rfl rfl id rfl rfl rfl rfl
  · split_ifs at hnext
    cases hnext
    exact h.carry helected hreaped rfl rfl rfl id rfl rfl rfl rfl
  · cases hnext
    exact h.carry helected hreaped rfl rfl rfl id rfl rfl rfl rfl
  · cases hnext
    split_ifs at helected hreaped ⊢
    · exact h.carry helected hreaped rfl rfl rfl id rfl rfl rfl rfl
    · exact h.carry helected hreaped rfl rfl rfl id rfl rfl rfl rfl
  · cases hnext
    exact h.carry helected hreaped rfl rfl rfl id rfl rfl rfl rfl
  · cases hnext

theorem Inv.taskNext (h : s.Inv) {event : TaskEvent} (hnext : s.taskNext index event = some s') :
    s'.Inv := by
  have helected := h.elected.taskNext hnext
  have hreaped := h.reaped.taskNext h.staffed hnext
  obtain ⟨takeover, stage, stage', t, htask, hmove, rfl⟩ := taskNext_move hnext
  cases hmove with
  | finish hlower haborted halive =>
    exact h.carry helected hreaped rfl rfl rfl (fun _ => rfl) rfl rfl rfl rfl
  | abort =>
    refine ⟨helected, h.manned.carry rfl rfl rfl id, ?_, hreaped⟩
    exact h.staffed.carry s.stages_abortWorkers rfl rfl rfl
  | collect =>
    refine ⟨helected, h.manned.carry rfl rfl rfl id, ?_, hreaped⟩
    have hcomplete := (h.reaped.tasks _ (mem_of_getElem? htask)).collecting rfl
    exact (h.staffed.collect hcomplete).carry rfl rfl rfl rfl
  | _ => exact h.carry helected hreaped rfl rfl rfl id rfl rfl rfl rfl

theorem Inv.setCall (h : s.Inv) {stage stage' : CloseStage} (hcall : s.calls[index]? = some stage)
    (hdrives : stage'.drives = stage.drives) (htakes : stage'.takesOver = stage.takesOver)
    (hne : stage' ≠ .returned) : (s.setCall index stage').Inv :=
  h.carry (h.elected.setCall hcall hdrives htakes) (h.reaped.setCall fun heq => absurd heq hne)
    rfl rfl rfl id rfl rfl rfl rfl

theorem Inv.next (h : s.Inv) {event : ShutdownEvent} (hnext : s.next event = some s') : s'.Inv := by
  cases event with
  | clone =>
    dsimp only [Shutdown.next] at hnext
    split_ifs at hnext with hhandles
    cases hnext
    exact ⟨⟨h.elected.driver, h.elected.takeover⟩, h.manned.clone hhandles,
      h.staffed.carry rfl rfl rfl rfl, h.reaped.grow ⟨id, id, id, id⟩ rfl rfl rfl⟩
  | drop =>
    dsimp only [Shutdown.next] at hnext
    split_ifs at hnext with hhandles
    cases hnext
    exact ⟨⟨h.elected.driver, h.elected.takeover⟩, h.manned.drop hhandles,
      h.staffed.carry rfl rfl rfl rfl, h.reaped.grow ⟨id, id, id, id⟩ rfl rfl rfl⟩
  | finishDrop =>
    dsimp only [Shutdown.next] at hnext
    split_ifs at hnext with hlast
    cases hnext
    exact ⟨⟨h.elected.driver, h.elected.takeover⟩, h.manned.finishDrop hlast,
      h.staffed.carry rfl rfl rfl rfl, h.reaped.grow ⟨fun _ => rfl, id, id, id⟩ rfl rfl rfl⟩
  | finish =>
    cases hnext
    exact h.carry ⟨h.elected.driver, h.elected.takeover⟩ (h.reaped.grow s.grows_finish rfl rfl rfl)
      rfl rfl rfl (fun _ => rfl) rfl rfl rfl rfl
  | beginClosing =>
    cases hnext
    split_ifs with hopened
    · have hphase : s.phase ≠ .closed := by
        rw [hopened]
        decide
      exact h.carry ⟨h.elected.driver, h.elected.takeover⟩
        (h.reaped.grow ⟨fun hclosed => absurd hclosed hphase, id, id, id⟩ rfl rfl rfl)
        rfl rfl rfl (fun hclosed => absurd hclosed hphase) rfl rfl rfl rfl
    · exact h
  | worker index =>
    have hstaffed := h.staffed.workerNext hnext
    have hgrows := grows_workerNext hnext
    dsimp only [Shutdown.next, Shutdown.workerNext] at hnext
    split at hnext
    · cases hnext
      exact ⟨⟨h.elected.driver, h.elected.takeover⟩, h.manned.carry rfl rfl rfl id, hstaffed,
        h.reaped.grow hgrows rfl rfl rfl⟩
    · cases hnext
      exact ⟨⟨h.elected.driver, h.elected.takeover⟩, h.manned.carry rfl rfl rfl id, hstaffed,
        h.reaped.grow hgrows rfl rfl rfl⟩
    · cases hnext
  | spawnCleanup | cleanup | loseCleanup =>
    dsimp only [Shutdown.next] at hnext
    split_ifs at hnext
    cases hnext
    exact h.carry ⟨h.elected.driver, h.elected.takeover⟩
      (h.reaped.grow ⟨id, id, id, id⟩ rfl rfl rfl) rfl rfl rfl id rfl rfl rfl rfl
  | close =>
    dsimp only [Shutdown.next] at hnext
    split_ifs at hnext
    cases hnext
    refine h.carry ⟨?_, ?_⟩ ⟨?_, h.reaped.complete, ?_⟩ rfl rfl rfl id rfl rfl rfl rfl
    · have hdriver := h.elected.driver
      change (s.calls ++ [_]).countP _ + _ = _
      rwa [countP_append, countP_singleton, if_neg (by decide), Nat.add_zero]
    · have htakeover := h.elected.takeover
      change (s.calls ++ [_]).countP _ + _ = _
      rwa [countP_append, countP_singleton, if_neg (by decide), Nat.add_zero]
    · exact fun task htask => (h.reaped.tasks task htask).grow ⟨id, id, id, id⟩
    · intro hmem
      rcases mem_append.mp hmem with hmem | hmem
      · exact h.reaped.returned hmem
      · cases mem_singleton.mp hmem
  | call index => exact h.callNext hnext
  | callTimeout index =>
    dsimp only [Shutdown.next, Shutdown.callTimeout] at hnext
    split at hnext
    · next hcall =>
      cases hnext
      exact h.setCall hcall rfl rfl (by decide)
    · next hcall =>
      cases hnext
      exact h.setCall hcall rfl rfl (by decide)
    · cases hnext
  | cancel index =>
    dsimp only [Shutdown.next, Shutdown.cancel] at hnext
    split at hnext
    · next hcall =>
      cases hnext
      exact h.setCall hcall rfl rfl (by decide)
    · next hcall =>
      cases hnext
      exact h.setCall hcall rfl rfl (by decide)
    · cases hnext
  | task index event => exact h.taskNext hnext

theorem inv_run {events : List ShutdownEvent} (hrun : machine.Run events s) : s.Inv :=
  hrun.invariant (I := fun _ => Inv) (fun _ hinit => hinit ▸ .initial) fun _ _ _ _ h hstep =>
    h.next hstep

/-- However the calls, the tasks and the drops interleave and whichever tasks are lost: there is
one driver at most and one takeover at a time at most; a close that has returned leaves a closed
connection whose workers have ended or are aborted; the last worker alone reports the end of all
of them; and a connection that nobody holds is closed as soon as the last drop is over. -/
theorem close_settles {events : List ShutdownEvent} (hrun : machine.Run events s) :
    s.tasks.countP (fun task => !task.takeover) ≤ 1 ∧ s.tasks.countP CloseTask.guards ≤ 1 ∧
    (.returned ∈ s.calls → s.phase = .closed ∧ s.Stopped) ∧
    (s.workersComplete = true ↔ ∀ worker ∈ s.workers, worker.stage = .ended) ∧
    s.externalHandles = s.handles ∧ (s.handles = 0 → s.lastDrops = 0 → s.phase = .closed) := by
  have h := inv_run hrun
  refine ⟨?_, ?_, fun hmem => h.reaped.complete (h.reaped.returned hmem), ?_, h.manned.handles, ?_⟩
  · have hdriver := h.elected.driver
    have hle := Bool.toNat_le s.closeDriverStarted
    omega
  · have htakeover := h.elected.takeover
    have hle := Bool.toNat_le s.takeoverStarted
    omega
  · constructor
    · intro hcomplete worker hworker
      exact h.staffed.ended hcomplete _ (mem_map_of_mem hworker)
    · intro hended
      refine h.staffed.complete fun stage hstage => ?_
      obtain ⟨worker, hworker, rfl⟩ := mem_map.mp hstage
      exact hended worker hworker
  · intro hzero hlast
    rcases h.manned.gone hzero with hpos | hclosed
    · exact absurd hlast hpos.ne'
    · exact hclosed

/-- The driver is lost with its runtime, a second call takes over, and the last handle goes. -/
theorem close_settles_lost : ∃ s, machine.Run [.close, .call 0, .call 0, .call 0, .task 0 .lose,
    .callTimeout 0, .call 0, .call 0, .call 0, .task 1 .advance, .task 1 .advance, .task 1 .advance,
    .task 1 .advance, .task 1 .timeout, .task 1 .timeout, .task 1 .advance, .task 1 .advance,
    .call 0, .drop, .finishDrop] s ∧ s.phase = .closed ∧ s.Stopped := by
  have hexec : (Machine.exec next initial [.close, .call 0, .call 0, .call 0, .task 0 .lose,
      .callTimeout 0, .call 0, .call 0, .call 0, .task 1 .advance, .task 1 .advance,
      .task 1 .advance, .task 1 .advance, .task 1 .timeout, .task 1 .timeout, .task 1 .advance,
      .task 1 .advance, .call 0, .drop, .finishDrop]).map calls = some [.returned] := by decide
  obtain ⟨s, hrun, hcalls⟩ := Machine.exists_run_of_exec calls hexec
  have hreturned : .returned ∈ s.calls := hcalls ▸ mem_cons_self
  exact ⟨s, hrun, (close_settles hrun).2.2.1 hreturned⟩

end Shutdown

end CmppProtocol
