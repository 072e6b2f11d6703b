import CmppProtocol.Teardown.Settling

/-! # Every close returns

A driver or a takeover never waits without a time limit, and whoever has won the
flag of the takeover spawns it. So no call of `close` waits for a task that
cannot come, whichever tasks have been lost before.
-/

namespace CmppProtocol

open List

/-- Own steps that a call needs at most before its exchange of the flag of the takeover. -/
def CloseStage.rank : CloseStage → ℕ
  | .entered => 5
  | .elected | .takingOver => 4
  | .closing _ => 3
  | .waiting | .waitingAgain => 2
  | .checking => 1
  | .electing | .returned | .cancelled => 0

/-- A step of a call or of a task that is not lost. -/
def ShutdownEvent.isOwn : ShutdownEvent → Bool
  | .call _ | .callTimeout _ | .task _ .advance | .task _ .timeout => true
  | _ => false

namespace Shutdown

variable {s s' : Shutdown} {index : ℕ}

/-- The calls and the tasks alone. -/
def ownMachine : Machine Shutdown ShutdownEvent :=
  machine.restrict fun _ event => event.isOwn = true

theorem Inv.reaches (h : s.Inv) {event : ShutdownEvent} (hown : event.isOwn = true)
    (hnext : s.next event = some s') : ownMachine.Reaches s s' ∧ s'.Inv :=
  ⟨.step ⟨hnext, hown⟩, h.next hnext⟩

theorem setTask_getElem? {task : CloseTask} (htask : s.tasks[index]? = some task)
    (task' : CloseTask) :
    (s.setTask index task').tasks[index]? = some task' :=
  getElem?_set_self (List.getElem?_eq_some_iff.mp htask).1

theorem setCall_getElem? {stage : CloseStage} (hcall : s.calls[index]? = some stage)
    (stage' : CloseStage) :
    (s.setCall index stage').calls[index]? = some stage' :=
  getElem?_set_self (List.getElem?_eq_some_iff.mp hcall).1

/-- A task that is alive need not wait: either what it waits for or its time limit lets it go on. -/
theorem task_goes_on {takeover : Bool} {stage : ReapStage}
    (htask : s.tasks[index]? = some ⟨takeover, stage⟩) (hrank : 0 < stage.rank) :
    ∃ event s' stage', event.isOwn = true ∧ s.next event = some s' ∧ s'.calls = s.calls ∧
      s'.tasks[index]? = some ⟨takeover, stage'⟩ ∧ stage'.rank < stage.rank ∧
      (0 < stage'.rank ∨ s'.closeComplete = true) := by
  have go (event : TaskEvent) (t : Shutdown) (stage' : ReapStage)
      (hown : (ShutdownEvent.task index event).isOwn = true)
      (hnext : s.taskNext index event = some (t.setTask index ⟨takeover, stage'⟩))
      (htasks : t.tasks = s.tasks) (hcalls : t.calls = s.calls) (hlower : stage'.rank < stage.rank)
      (hgoal : 0 < stage'.rank ∨ t.closeComplete = true) :
      ∃ event s' stage', event.isOwn = true ∧ s.next event = some s' ∧ s'.calls = s.calls ∧
        s'.tasks[index]? = some ⟨takeover, stage'⟩ ∧ stage'.rank < stage.rank ∧
        (0 < stage'.rank ∨ s'.closeComplete = true) := by
    refine ⟨.task index event, _, stage', hown, hnext, hcalls, ?_, hlower, hgoal⟩
    have htask' : t.tasks[index]? = some ⟨takeover, stage⟩ := by rw [htasks, htask]
    exact setTask_getElem? htask' ⟨takeover, stage'⟩
  cases stage with
  | submitting =>
    exact go .advance s .terminating rfl (by simp only [taskNext, htask]) rfl rfl (by decide)
      (Or.inl (by decide))
  | terminating =>
    exact go .advance s .sealing rfl (by simp only [taskNext, htask]) rfl rfl (by decide)
      (Or.inl (by decide))
  | exhausted =>
    exact go .advance s.finish .awaitingClosed rfl (by simp only [taskNext, htask]) rfl rfl
      (by decide) (Or.inl (by decide))
  | sealing =>
    exact go .advance s .finishing rfl (by simp only [taskNext, htask]) rfl rfl (by decide)
      (Or.inl (by decide))
  | finishing =>
    refine go .advance s.finish (if takeover then .awaitingClosed else .forgetting) rfl
      (by simp only [taskNext, htask]) rfl rfl ?_ (Or.inl ?_)
    · cases takeover <;> decide
    · cases takeover <;> decide
  | forgetting =>
    exact go .advance s .awaitingClosed rfl (by simp only [taskNext, htask]) rfl rfl (by decide)
      (Or.inl (by decide))
  | awaitingClosed =>
    exact go .timeout s .forcing rfl (by simp only [taskNext, htask]) rfl rfl (by decide)
      (Or.inl (by decide))
  | forcing =>
    exact go .advance s.finish .aborting rfl (by simp only [taskNext, htask]) rfl rfl (by decide)
      (Or.inl (by decide))
  | aborting =>
    exact go .advance s.abortWorkers .awaitingWorkers rfl (by simp only [taskNext, htask]) rfl rfl
      (by decide) (Or.inl (by decide))
  | awaitingWorkers =>
    exact go .timeout s .awaitingCleanup rfl (by simp only [taskNext, htask]) rfl rfl (by decide)
      (Or.inl (by decide))
  | collecting =>
    exact go .advance { s with backgroundTasks := [] } .awaitingCleanup rfl
      (by simp only [taskNext, htask]) rfl rfl (by decide) (Or.inl (by decide))
  | awaitingCleanup =>
    exact go .timeout s .cleaning rfl (by simp only [taskNext, htask]) rfl rfl (by decide)
      (Or.inl (by decide))
  | cleaning =>
    exact go .timeout s .completing rfl (by simp only [taskNext, htask]) rfl rfl (by decide)
      (Or.inl (by decide))
  | completing =>
    refine go .advance { s with closeComplete := true }
      (if takeover then .releasing else .ended) rfl
      (by simp only [taskNext, htask]) rfl rfl ?_ (Or.inr rfl)
    cases takeover <;> decide
  | releasing | ended | lost => exact absurd hrank (Nat.lt_irrefl 0)

/-- A task that is alive comes to its end, and every call stays where it is. -/
theorem Inv.task_completes (h : s.Inv) {task : CloseTask} (htask : s.tasks[index]? = some task)
    (halive : task.stage.isAlive = true) :
    ∃ s', ownMachine.Reaches s s' ∧ s'.Inv ∧ s'.calls = s.calls ∧ s'.closeComplete = true := by
  obtain ⟨takeover, stage⟩ := task
  by_cases hrank : 0 < stage.rank
  · refine Machine.reaches_of_descent
      (I := fun t => t.Inv ∧ t.calls = s.calls ∧
        ∃ stage, t.tasks[index]? = some ⟨takeover, stage⟩ ∧ 0 < stage.rank)
      (fun t => (t.tasks[index]?.map fun task => task.stage.rank).getD 0) ?_
      ⟨h, rfl, stage, htask, hrank⟩
    rintro t ⟨ht, hcalls, stage, htask, hrank⟩
    obtain ⟨event, t', stage', hown, hnext, hcalls', htask', hlower, hgoal⟩ :=
      task_goes_on htask hrank
    obtain ⟨hreaches, ht'⟩ := ht.reaches hown hnext
    refine ⟨t', hreaches, ?_⟩
    rcases hgoal with hpos | hcomplete
    · refine Or.inr ⟨⟨ht', hcalls'.trans hcalls, stage', htask', hpos⟩, ?_⟩
      rw [htask, htask']
      exact hlower
    · exact Or.inl ⟨ht', hcalls'.trans hcalls, hcomplete⟩
  · refine ⟨s, .refl s, h, rfl, (h.reaped.tasks _ (mem_of_getElem? htask)).completed ?_⟩
    cases stage <;> first | rfl | exact absurd (by decide) hrank | cases halive

/-- A call that has not come to its end comes to the flag of the takeover, or it returns. -/
theorem Inv.call_elects (h : s.Inv) {stage : CloseStage} (hcall : s.calls[index]? = some stage)
    (hopen : stage ≠ .cancelled) : ∃ s', ownMachine.Reaches s s' ∧ s'.Inv ∧
      (s'.calls[index]? = some .electing ∨ s'.calls[index]? = some .returned) := by
  refine Machine.reaches_of_descent
    (I := fun t => t.Inv ∧ ∃ stage, t.calls[index]? = some stage ∧ stage ≠ .cancelled)
    (fun t => (t.calls[index]?.map CloseStage.rank).getD 0) ?_ ⟨h, stage, hcall, hopen⟩
  rintro t ⟨ht, stage, hcall, hopen⟩
  have go (event : ShutdownEvent) (t' : Shutdown) (stage' : CloseStage) (hown : event.isOwn = true)
      (hnext : t.next event = some t') (hcall' : t'.calls[index]? = some stage')
      (hopen' : stage' ≠ .cancelled) (hlower : stage'.rank < stage.rank) :
      ∃ t', ownMachine.Reaches t t' ∧ ((t'.Inv ∧
        (t'.calls[index]? = some .electing ∨ t'.calls[index]? = some .returned)) ∨
        (t'.Inv ∧ ∃ stage, t'.calls[index]? = some stage ∧ stage ≠ .cancelled) ∧
        (t'.calls[index]?.map CloseStage.rank).getD 0 <
          (t.calls[index]?.map CloseStage.rank).getD 0) := by
    obtain ⟨hreaches, ht'⟩ := ht.reaches hown hnext
    refine ⟨t', hreaches, Or.inr ⟨⟨ht', stage', hcall', hopen'⟩, ?_⟩⟩
    rw [hcall, hcall']
    exact hlower
  have hnext : t.next (.call index) = t.callNext index := rfl
  cases stage with
  | entered =>
    by_cases hstarted : t.closeDriverStarted = true
    · refine go (.call index) _ .waiting rfl ?_ (setCall_getElem? hcall _) (by decide) (by decide)
      simp only [hnext, Shutdown.callNext, hcall, hstarted, if_true]
    · refine go (.call index) { t.setCall index .elected with closeDriverStarted := true } .elected
        rfl ?_ (setCall_getElem? hcall _) (by decide) (by decide)
      simp only [hnext, Shutdown.callNext, hcall, hstarted, if_false, Bool.false_eq_true]
  | elected =>
    by_cases hopened : t.phase = .opened
    · refine go (.call index) { t.setCall index (.closing true) with phase := .closing }
        (.closing true) rfl ?_ (setCall_getElem? hcall _) (by decide) (by decide)
      simp only [hnext, Shutdown.callNext, hcall, hopened, if_true]
    · refine go (.call index) _ (.closing false) rfl ?_ (setCall_getElem? hcall _) (by decide)
        (by decide)
      simp only [hnext, Shutdown.callNext, hcall, hopened, if_false]
  | closing graceful =>
    refine go (.call index) { t.setCall index .waiting with
        tasks := t.tasks ++ [⟨false, if graceful then .submitting else .awaitingClosed⟩] } .waiting
      rfl ?_ (setCall_getElem? hcall _) (by decide) (Nat.lt_succ_self 2)
    simp only [hnext, Shutdown.callNext, hcall]
  | takingOver =>
    refine go (.call index) { t.setCall index .waitingAgain with
        tasks := t.tasks ++ [⟨true, .sealing⟩] } .waitingAgain
      rfl ?_ (setCall_getElem? hcall _) (by decide) (by decide)
    simp only [hnext, Shutdown.callNext, hcall]
  | waiting | waitingAgain =>
    refine go (.callTimeout index) _ .checking rfl ?_ (setCall_getElem? hcall _)
      (by decide) (by decide)
    simp only [Shutdown.next, Shutdown.callTimeout, hcall]
  | checking =>
    have hchecked : t.next (.call index) =
        some (t.setCall index (if t.closeComplete then .returned else .electing)) := by
      simp only [hnext, Shutdown.callNext, hcall]
    obtain ⟨hreaches, ht'⟩ := ht.reaches rfl hchecked
    refine ⟨_, hreaches, Or.inl ⟨ht', ?_⟩⟩
    rw [setCall_getElem? hcall]
    split_ifs
    · exact Or.inr rfl
    · exact Or.inl rfl
  | electing => exact ⟨t, .refl t, Or.inl ⟨ht, Or.inl hcall⟩⟩
  | returned => exact ⟨t, .refl t, Or.inl ⟨ht, Or.inr hcall⟩⟩
  | cancelled => exact absurd rfl hopen

/-- Whoever holds the flag of the takeover spawns it. -/
theorem Inv.takes_over (h : s.Inv) {i : ℕ} (hcall : s.calls[i]? = some .takingOver) :
    ∃ s', ownMachine.Reaches s s' ∧ s'.Inv ∧ s'.calls = s.calls.set i .waitingAgain ∧
      ∃ (k : ℕ) (task : CloseTask), s'.tasks[k]? = some task ∧ task.stage.isAlive = true := by
  have hnext : s.next (.call i) = some { s.setCall i .waitingAgain with
      tasks := s.tasks ++ [⟨true, .sealing⟩] } := by
    simp only [Shutdown.next, Shutdown.callNext, hcall]
  obtain ⟨hreaches, hinv⟩ := h.reaches rfl hnext
  exact ⟨_, hreaches, hinv, rfl, s.tasks.length, _, getElem?_concat_length, rfl⟩

/-- Behind its exchange of the flag a call waits for a task that is alive. -/
theorem Inv.finds_task (h : s.Inv) (hcall : s.calls[index]? = some .electing) :
    ∃ s', ownMachine.Reaches s s' ∧ s'.Inv ∧ s'.calls[index]? = some .waitingAgain ∧
      ∃ (k : ℕ) (task : CloseTask), s'.tasks[k]? = some task ∧ task.stage.isAlive = true := by
  by_cases hstarted : s.takeoverStarted = true
  · have hnext : s.next (.call index) = some (s.setCall index .waitingAgain) := by
      simp only [Shutdown.next, Shutdown.callNext, hcall, hstarted, if_true]
    obtain ⟨hreaches, hinv⟩ := h.reaches rfl hnext
    have hcall' := setCall_getElem? hcall .waitingAgain
    have htakeover := hinv.elected.takeover
    change (s.calls.set index .waitingAgain).countP CloseStage.takesOver +
      s.tasks.countP CloseTask.guards = s.takeoverStarted.toNat at htakeover
    rw [hstarted, Bool.toNat_true] at htakeover
    by_cases hguards : 0 < s.tasks.countP CloseTask.guards
    · obtain ⟨task, hmem, hguard⟩ := countP_pos_iff.mp hguards
      obtain ⟨k, hk⟩ := getElem?_of_mem hmem
      exact ⟨_, hreaches, hinv, hcall', k, task, hk, (Bool.and_eq_true_iff.mp hguard).2⟩
    · -- Another call is between its exchange and its spawn.
      have hpos : 0 < (s.calls.set index .waitingAgain).countP CloseStage.takesOver := by omega
      obtain ⟨other, hmem, htakes⟩ := countP_pos_iff.mp hpos
      obtain ⟨j, hj⟩ := getElem?_of_mem hmem
      obtain rfl : other = .takingOver := by
        cases other <;> first | rfl | cases htakes
      have hne : j ≠ index := by
        rintro rfl
        cases hj.symm.trans hcall'
      obtain ⟨s', hreaches', hinv', hcalls, htask⟩ := hinv.takes_over hj
      refine ⟨s', hreaches.trans hreaches', hinv', ?_, htask⟩
      rw [hcalls, getElem?_set_ne hne]
      exact hcall'
  · have hnext : s.next (.call index) =
        some { s.setCall index .takingOver with takeoverStarted := true } := by
      simp only [Shutdown.next, Shutdown.callNext, hcall, hstarted, if_false, Bool.false_eq_true]
    obtain ⟨hreaches, hinv⟩ := h.reaches rfl hnext
    have hcall' := setCall_getElem? hcall .takingOver
    obtain ⟨s', hreaches', hinv', hcalls, htask⟩ := hinv.takes_over hcall'
    refine ⟨s', hreaches.trans hreaches', hinv', ?_, htask⟩
    rw [hcalls]
    exact getElem?_set_self (List.getElem?_eq_some_iff.mp hcall').1

/-- No call of `close` waits in vain. Whatever has happened so far, and whichever tasks have been
lost, the calls and the tasks alone bring every call that is not dropped to its return. -/
theorem close_returns {events : List ShutdownEvent} (hrun : machine.Run events s)
    {stage : CloseStage} (hcall : s.calls[index]? = some stage) (hopen : stage ≠ .cancelled) :
    ∃ s', (machine.restrict fun _ event => event.isOwn = true).Reaches s s' ∧
      s'.calls[index]? = some .returned := by
  obtain ⟨s₁, hfirst, hinv, helecting | hreturned⟩ := (inv_run hrun).call_elects hcall hopen
  · obtain ⟨s₂, hsecond, hinv₂, hwaiting, k, task, htask, halive⟩ := hinv.finds_task helecting
    obtain ⟨s₃, hthird, hinv₃, hcalls, hcomplete⟩ := hinv₂.task_completes htask halive
    have hcall₃ : s₃.calls[index]? = some .waitingAgain := by rw [hcalls, hwaiting]
    have hnext : s₃.next (.call index) = some (s₃.setCall index .returned) := by
      simp only [next, callNext, hcall₃, hcomplete, if_true]
    obtain ⟨hlast, _⟩ := hinv₃.reaches rfl hnext
    exact ⟨_, hfirst.trans (hsecond.trans (hthird.trans hlast)), setCall_getElem? hcall₃ _⟩
  · exact ⟨s₁, hfirst, hreturned⟩

/-- The driver is lost, and the takeover after it. -/
theorem close_returns_abandoned : ∃ s, machine.Run [.close, .call 0, .call 0, .call 0,
    .task 0 .lose, .callTimeout 0, .call 0, .call 0, .call 0, .task 1 .lose] s ∧
    ∃ s', (machine.restrict fun _ event => event.isOwn = true).Reaches s s' ∧
      s'.calls[0]? = some .returned := by
  have hexec : (Machine.exec next initial [.close, .call 0, .call 0, .call 0, .task 0 .lose,
      .callTimeout 0, .call 0, .call 0, .call 0, .task 1 .lose]).map calls =
      some [.waitingAgain] := by decide
  obtain ⟨s, hrun, hcalls⟩ := Machine.exists_run_of_exec calls hexec
  have hcall : s.calls[0]? = some .waitingAgain := by rw [hcalls]; rfl
  exact ⟨s, hrun, close_returns hrun hcall (by decide)⟩

end Shutdown

end CmppProtocol
