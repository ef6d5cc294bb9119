import Posthaste.Supervisor.StatusKept

open TransitionSystem

namespace posthaste.supervisor.AccountStatuses

variable {state after : AccountStatuses} {id : Nat}

theorem cycle_of_dropped {phase expired : TaskPhase} (hdropped : dropped phase = some expired) :
    expired.cycle = phase.cycle ∧ ∀ cycle progress, expired ≠ .connecting cycle (some progress) := by
  cases phase <;> cases hdropped <;> exact ⟨rfl, fun _ _ hsame => nomatch hsame⟩

theorem cycle_of_ended {faults : Bool} {phase ended : TaskPhase} (hended : endedAs faults phase = some ended) :
    ended.cycle = phase.cycle ∧ ∀ cycle progress, ended ≠ .connecting cycle (some progress) := by
  cases faults <;> cases phase <;> cases hended <;> exact ⟨rfl, fun _ _ hsame => nomatch hsame⟩

namespace StatusInvariant

/-- A task moves on within its cycle, and nothing else changes. -/
theorem moveTask {old next : RuntimeTask} (hinv : state.StatusInvariant) (hold : state.tasks[id]? = some old)
    (hcycle : next.phase.cycle = old.phase.cycle)
    (hsound : TaskSound state.runtime_generation state.standing next) : (state.setTask id next).StatusInvariant :=
  hinv.move hold hcycle hsound fun hsyncing => hsyncing

/-- A task moves on within its cycle, with an update that makes no account syncing. -/
theorem moveWriting {old : RuntimeTask} {phase : TaskPhase} {generation : Option Nat} {write : StatusWrite}
    (hinv : state.StatusInvariant) (hold : state.tasks[id]? = some old) (hcycle : phase.cycle = old.phase.cycle)
    (hphase : ∀ cycle progress, phase ≠ .connecting cycle (some progress)) (hcalm : Calm write) :
    ((state.update_runtime_overview generation write).setTask id ⟨old.generation, phase⟩).StatusInvariant := by
  have hstatus := @status_update_of_calm state generation write hcalm
  obtain ⟨overview, hupdate⟩ := update_runtime_overview_eq state generation write
  rw [hupdate] at hstatus ⊢
  exact hinv.move hold hcycle (hinv.soundOf hold rfl hphase) hstatus

theorem writeCalm {generation : Option Nat} {write : StatusWrite} (hinv : state.StatusInvariant)
    (hcalm : Calm write) : (state.update_runtime_overview generation write).StatusInvariant := by
  have hstatus := @status_update_of_calm state generation write hcalm
  obtain ⟨overview, hupdate⟩ := update_runtime_overview_eq state generation write
  rw [hupdate] at hstatus ⊢
  exact hinv.write hstatus

theorem next_runtime_generation {generation : Option Nat} (hinv : state.StatusInvariant)
    (hold : state.tasks[id]? = some ⟨generation, .spawned⟩) (hunlocked : state.unlocked = true)
    (hlive : state.standing = .live) (hcounter : state.runtime_generation.getD 0 < U64_MAX) :
    ({ state.setTask id ⟨some (advanced state.runtime_generation), .starting⟩ with
      runtime_generation := some (advanced state.runtime_generation) } : AccountStatuses).StatusInvariant := by
  have hcycles := cycleOf_setTask_same ⟨some (advanced state.runtime_generation), .starting⟩ hold rfl
  refine ⟨(hinv.minted.advance hcounter (unlocked_tasks hunlocked) (unlocked_forwarders hunlocked)).set ?_,
    hcycles ▸ hinv.cycles, fun hsyncing => ?_⟩
  · refine ⟨fun minted hminted => ?_, fun _ _ hphase => nomatch hphase⟩
    cases hminted
    exact ⟨⟨_, rfl, Nat.le_refl _⟩, fun hstanding => absurd hlive hstanding⟩
  · exact hcycles ▸ hinv.truthful hsyncing

theorem next_sync_cycle {generation : Nat} (hinv : state.StatusInvariant)
    (hold : state.tasks[id]? = some ⟨some generation, .waiting⟩) (hcounter : state.sync_cycle.getD 0 < U64_MAX) :
    ({ state.setTask id ⟨some generation, .connecting (advanced state.sync_cycle) none⟩ with
      sync_cycle := some (advanced state.sync_cycle) } : AccountStatuses).StatusInvariant := by
  have hcycles := cycleOf_setTask ⟨some generation, .connecting (advanced state.sync_cycle) none⟩ hold
  have hidle : state.cycleOf id = none := cycleOf_eq_of_some hold
  refine ⟨hinv.minted.set (hinv.soundOf hold rfl fun _ _ hphase => nomatch hphase), ?_, fun hsyncing => ?_⟩
  · rw [Option.getD_some, advanced_of_lt hcounter]
    refine hinv.cycles.begin id fun task => ?_
    rw [← advanced_of_lt hcounter]
    exact hcycles task
  · obtain ⟨task, cycle, htask, hnewest⟩ := hinv.truthful hsyncing
    refine ⟨task, cycle, ?_, hnewest⟩
    have hne : task ≠ id := by
      rintro rfl
      rw [hidle] at htask
      cases htask
    exact (hcycles task).trans ((if_neg hne).trans htask)

/-- The connecting progress of the current cycle, which is newer than all that settled. -/
theorem set_connecting {generation : Nat} {cycle : Nat} {progress : SyncProgress} (hinv : state.StatusInvariant)
    (hold : state.tasks[id]? = some ⟨some generation, .connecting cycle (some progress)⟩)
    (hcurrent : state.cycleOf id = state.sync_cycle) :
    ((state.commit (.set_sync_progress progress)).setTask id ⟨some generation, .running cycle false⟩).StatusInvariant := by
  obtain ⟨overview, hcommit⟩ := commit_eq state (.set_sync_progress progress)
  rw [hcommit]
  have hcycles := cycleOf_setTask_same ⟨some generation, .running cycle false⟩ hold rfl
  have hnewest : Newest state.settled state.cycleOf := by
    refine hinv.cycles.newest_of_current id ?_
    rw [← hcurrent, cycleOf_eq_of_some hold]
    rfl
  exact ⟨hinv.minted.set (hinv.soundOf hold rfl fun _ _ hphase => nomatch hphase), hcycles ▸ hinv.cycles,
    fun _ => hcycles ▸ hnewest⟩

theorem end_account (hinv : state.StatusInvariant) (standing : Standing) (ending : List Standing)
    (hunlocked : state.unlocked = true) (hcounter : state.runtime_generation.getD 0 < U64_MAX) :
    ({ state with runtime_generation := some (advanced state.runtime_generation), standing, ending } :
      AccountStatuses).StatusInvariant :=
  ⟨hinv.minted.advance hcounter (unlocked_tasks hunlocked) (unlocked_forwarders hunlocked), hinv.cycles, hinv.truthful⟩

theorem step {action : StatusStep} (hinv : state.StatusInvariant) (hguard : state.Undisturbed action)
    (hstep : state.step action = some after) : after.StatusInvariant := by
  cases action with
  | start_account =>
    cases hstep
    exact hinv.spawn .live (.inr rfl)
  | respawn id =>
    simp only [AccountStatuses.step] at hstep
    split at hstep
    · rename_i generation cycle hold
      cases hstep
      have hended : (state.setTask id ⟨generation, .ended cycle⟩).StatusInvariant :=
        hinv.moveTask hold rfl (hinv.soundOf hold rfl fun _ _ hphase => nomatch hphase)
      exact hended.spawn state.standing (.inl rfl)
    · cases hstep
  | next_runtime_generation id =>
    simp only [AccountStatuses.step] at hstep
    split at hstep
    · rename_i hold
      split_ifs at hstep with hunlocked
      cases hstep
      exact hinv.next_runtime_generation hold hunlocked hguard.1 hguard.2
    · cases hstep
  | initialise id =>
    simp only [AccountStatuses.step] at hstep
    split at hstep
    · rename_i hold
      cases hstep
      exact hinv.moveWriting hold rfl (fun _ _ hphase => nomatch hphase)
        (settles_overview (show AccountStatus.offline ≠ .syncing from fun hsame => nomatch hsame)).calm
    · cases hstep
  | next_sync_cycle id =>
    simp only [AccountStatuses.step] at hstep
    split at hstep
    · rename_i hold
      cases hstep
      exact hinv.next_sync_cycle hold hguard
    · cases hstep
  | check_connecting id sync_id trigger started_at =>
    simp only [AccountStatuses.step] at hstep
    split at hstep
    · rename_i generation cycle hold
      split_ifs at hstep with hguards
      · cases hstep
        exact hinv.moveTask hold rfl ⟨(hinv.sound hold).known, fun _ _ _ => (generation_of_guards hguards).symm⟩
      · cases hstep
        exact hinv.moveTask hold rfl (hinv.soundOf hold rfl fun _ _ hphase => nomatch hphase)
    · cases hstep
  | set_connecting id =>
    simp only [AccountStatuses.step] at hstep
    split at hstep
    · rename_i hold
      cases hstep
      exact hinv.set_connecting hold hguard
    · cases hstep
  | sync_progress_reporter id =>
    simp only [AccountStatuses.step] at hstep
    split at hstep
    · rename_i generation cycle hold
      cases hstep
      have hmoved : (state.setTask id ⟨some generation, .running cycle true⟩).StatusInvariant :=
        hinv.moveTask hold rfl (hinv.soundOf hold rfl fun _ _ hphase => nomatch hphase)
      have hsound : ForwarderSound state.runtime_generation state.standing ⟨id, generation, cycle, [], none⟩ :=
        ⟨(hinv.sound hold).known generation rfl, fun _ hchecked => nomatch hchecked⟩
      exact ⟨hmoved.minted.appendForwarder hsound, hmoved.cycles, hmoved.truthful⟩
    · cases hstep
  | report id progress =>
    simp only [AccountStatuses.step] at hstep
    split at hstep
    · rename_i forwarder hforwarder
      split_ifs at hstep
      cases hstep
      exact hinv.forward ⟨(hinv.forwarderSound hforwarder).known, (hinv.forwarderSound hforwarder).checked⟩
    · cases hstep
  | check_progress id =>
    simp only [AccountStatuses.step] at hstep
    split at hstep
    · rename_i task generation cycle progress rest hforwarder
      cases hstep
      refine hinv.forward ⟨(hinv.forwarderSound hforwarder).known, fun checked hchecked => ?_⟩
      dsimp only at hchecked
      split_ifs at hchecked with hguards
      exact generation_of_guards hguards
    · cases hstep
  | set_progress id =>
    simp only [AccountStatuses.step] at hstep
    split at hstep
    · rename_i task generation cycle queue progress hforwarder
      cases hstep
      have hwritten : (state.commit (.set_sync_progress progress)).StatusInvariant := by
        have hstatus := @status_commit_of_calm state _ (calm_progress progress)
        obtain ⟨overview, hcommit⟩ := commit_eq state (.set_sync_progress progress)
        rw [hcommit] at hstatus ⊢
        exact hinv.write hstatus
      obtain ⟨overview, hcommit⟩ := commit_eq state (.set_sync_progress progress)
      rw [hcommit] at hwritten ⊢
      exact hwritten.forward ⟨(hinv.forwarderSound hforwarder).known, fun _ hchecked => nomatch hchecked⟩
    · cases hstep
  | mark_sync_success id now =>
    simp only [AccountStatuses.step] at hstep
    split at hstep
    · rename_i hold
      cases hstep
      exact hinv.settle hold (settles_success now) hguard
    · cases hstep
  | mark_sync_failure id fault message code =>
    simp only [AccountStatuses.step] at hstep
    split at hstep
    · rename_i hold
      cases hstep
      exact hinv.settle hold (settles_failure fault message code) hguard
    · cases hstep
  | set_push_status id push =>
    simp only [AccountStatuses.step] at hstep
    split at hstep
    · split_ifs at hstep
      cases hstep
      exact hinv.writeCalm (calm_push push)
    · cases hstep
  | mark_push_terminal id transport reason poll_secs =>
    simp only [AccountStatuses.step] at hstep
    split at hstep
    · split_ifs at hstep
      cases hstep
      exact hinv.writeCalm (calm_push_terminal transport reason poll_secs)
    · cases hstep
  | timeout id =>
    simp only [AccountStatuses.step] at hstep
    split at hstep
    · rename_i hold
      obtain ⟨expired, hdropped, rfl⟩ := Option.map_eq_some_iff.1 hstep
      obtain ⟨hcycle, hphase⟩ := cycle_of_dropped hdropped
      exact hinv.moveTask hold hcycle (hinv.soundOf hold rfl hphase)
    · cases hstep
  | invalidate_sync_cycle id =>
    simp only [AccountStatuses.step] at hstep
    split at hstep
    · rename_i generation cycle hold
      cases hstep
      have hmoved : (state.setTask id ⟨generation, .invalidated cycle⟩).StatusInvariant :=
        hinv.moveTask hold rfl (hinv.soundOf hold rfl fun _ _ hphase => nomatch hphase)
      refine ⟨hmoved.minted, hmoved.cycles.mono ?_, hmoved.truthful⟩
      rw [Option.getD_some, advanced_of_lt hguard]
      exact Nat.le_succ _
    · cases hstep
  | mark_arm_timeout id arm budget =>
    simp only [AccountStatuses.step] at hstep
    split at hstep
    · rename_i hold
      cases hstep
      exact hinv.settle hold (settles_arm_timeout arm budget) hguard
    · cases hstep
  | ended id faults =>
    simp only [AccountStatuses.step] at hstep
    split at hstep
    · rename_i hold
      obtain ⟨ended, hended, rfl⟩ := Option.map_eq_some_iff.1 hstep
      obtain ⟨hcycle, hphase⟩ := cycle_of_ended hended
      exact hinv.moveTask hold hcycle (hinv.soundOf hold rfl hphase)
    · cases hstep
  | mark_account_faulted id attempt reason =>
    simp only [AccountStatuses.step] at hstep
    split at hstep
    · rename_i hold
      cases hstep
      exact hinv.moveWriting hold rfl (fun _ _ hphase => nomatch hphase) (settles_faulted attempt reason).calm
    · cases hstep
  | mark_account_halted id reason =>
    simp only [AccountStatuses.step] at hstep
    split at hstep
    · rename_i hold
      cases hstep
      exact hinv.moveWriting hold rfl (fun _ _ hphase => nomatch hphase) (settles_halted reason).calm
    · cases hstep
  | disable =>
    simp only [AccountStatuses.step] at hstep
    split_ifs at hstep with hunlocked
    cases hstep
    exact hinv.end_account .disabled _ hunlocked hguard
  | set_disabled =>
    simp only [AccountStatuses.step] at hstep
    split_ifs at hstep
    cases hstep
    have hdisabled : AccountStatus.disabled ≠ .syncing := fun hsame => nomatch hsame
    have hwritten := @writeCalm state none _ hinv (@settles_overview .disabled .disabled hdisabled).calm
    exact ⟨hwritten.minted, hwritten.cycles, hwritten.truthful⟩
  | remove =>
    simp only [AccountStatuses.step] at hstep
    split_ifs at hstep with hunlocked
    cases hstep
    exact hinv.end_account .removed _ hunlocked hguard
  | remove_overview =>
    simp only [AccountStatuses.step] at hstep
    split_ifs at hstep
    cases hstep
    exact ⟨hinv.minted, hinv.cycles, fun hsyncing => nomatch hsyncing⟩

end StatusInvariant

theorem invariant_of_reachable (hreach : statuses.Reachable Undisturbed state) : state.StatusInvariant :=
  @Reachable.invariant _ _ statuses Undisturbed StatusInvariant (fun _ hstart => hstart ▸ statusInvariant_new)
    (fun _ _ _ hinv hguard hstep => hinv.step hguard hstep) _ hreach

section MayWrite

theorem StatusInvariant.current {generation : Nat} {phase : TaskPhase} (hinv : state.StatusInvariant)
    (hold : state.tasks[id]? = some ⟨some generation, phase⟩) (hcurrent : state.runtime_generation = some generation) :
    state.Current id := by
  refine ⟨?_, _, generation, hold, rfl, hcurrent⟩
  by_contra hstanding
  exact ((hinv.sound hold).known generation rfl).2 hstanding hcurrent

/-- A guarded update that changes the overview is of the current incarnation. -/
theorem StatusInvariant.current_of_changed {generation : Nat} {phase : TaskPhase} {write : StatusWrite}
    (hinv : state.StatusInvariant) (hold : state.tasks[id]? = some ⟨some generation, phase⟩)
    (hchanged : (state.update_runtime_overview (some generation) write).overview ≠ state.overview) :
    state.Current id := by
  by_cases hcurrent : state.runtime_generation = some generation
  · exact hinv.current hold hcurrent
  · rw [update_runtime_overview, if_neg hcurrent] at hchanged
    exact absurd rfl hchanged

/-- A gateway's progress changes only the overview of an account that is syncing. -/
theorem syncing_of_changed {progress : GatewayProgress}
    (hchanged : (state.commit (.set_sync_progress progress)).overview ≠ state.overview) :
    state.status = some .syncing := by
  cases hupdate : (StatusWrite.set_sync_progress progress).update (state.overview.getD (.new .offline .disabled)) with
  | none =>
    rw [commit, hupdate] at hchanged
    exact absurd rfl hchanged
  | some overview =>
    refine status_commit_of_calm (calm_progress progress) ?_
    rw [commit, hupdate]
    simp only [StatusWrite.update] at hupdate
    split_ifs at hupdate
    cases hupdate
    rfl

theorem StatusInvariant.mayWrite {action : StatusStep} (hinv : state.StatusInvariant)
    (hguard : state.Undisturbed action) (hstep : state.step action = some after)
    (hchanged : after.overview ≠ state.overview) : state.MayWrite action := by
  cases action with
  | initialise id =>
    simp only [AccountStatuses.step] at hstep
    split at hstep
    · rename_i hold
      cases hstep
      exact hinv.current_of_changed hold hchanged
    · cases hstep
  | set_connecting id =>
    simp only [AccountStatuses.step] at hstep
    split at hstep
    · rename_i generation cycle progress hold
      have hcycle : state.cycleOf id = some cycle := cycleOf_eq_of_some hold
      have hcurrent := (hinv.sound hold).checked cycle progress rfl
      exact ⟨hinv.current hold hcurrent.symm, cycle, hcycle, hguard.symm.trans hcycle⟩
    · cases hstep
  | set_progress id =>
    simp only [AccountStatuses.step] at hstep
    split at hstep
    · rename_i task generation cycle queue progress hforwarder
      cases hstep
      have hcurrent := (hinv.forwarderSound hforwarder).checked progress rfl
      refine ⟨?_, _, hforwarder, hcurrent, hguard (syncing_of_changed hchanged) _ hforwarder⟩
      by_contra hstanding
      exact (hinv.forwarderSound hforwarder).known.2 hstanding hcurrent
    · cases hstep
  | mark_sync_success id now =>
    simp only [AccountStatuses.step] at hstep
    split at hstep
    · rename_i hold
      cases hstep
      exact hinv.current_of_changed hold hchanged
    · cases hstep
  | mark_sync_failure id fault message code =>
    simp only [AccountStatuses.step] at hstep
    split at hstep
    · rename_i hold
      cases hstep
      exact hinv.current_of_changed hold hchanged
    · cases hstep
  | set_push_status id push =>
    simp only [AccountStatuses.step] at hstep
    split at hstep
    · rename_i hold
      split_ifs at hstep
      cases hstep
      exact hinv.current_of_changed hold hchanged
    · cases hstep
  | mark_push_terminal id transport reason poll_secs =>
    simp only [AccountStatuses.step] at hstep
    split at hstep
    · rename_i hold
      split_ifs at hstep
      cases hstep
      exact hinv.current_of_changed hold hchanged
    · cases hstep
  | mark_arm_timeout id arm budget =>
    simp only [AccountStatuses.step] at hstep
    split at hstep
    · rename_i hold
      cases hstep
      exact hinv.current_of_changed hold hchanged
    · cases hstep
  | mark_account_faulted id attempt reason => exact hguard
  | mark_account_halted id reason => exact hguard
  | set_disabled => exact trivial
  | remove_overview => exact trivial
  | start_account =>
    cases hstep
    exact absurd rfl hchanged
  | respawn id | next_sync_cycle id | sync_progress_reporter id | check_progress id | invalidate_sync_cycle id =>
    simp only [AccountStatuses.step] at hstep
    split at hstep
    · cases hstep
      exact absurd rfl hchanged
    · cases hstep
  | next_runtime_generation id | report id progress =>
    simp only [AccountStatuses.step] at hstep
    split at hstep
    · split_ifs at hstep
      cases hstep
      exact absurd rfl hchanged
    · cases hstep
  | check_connecting id sync_id trigger started_at =>
    simp only [AccountStatuses.step] at hstep
    split at hstep
    · split_ifs at hstep
      · cases hstep
        exact absurd rfl hchanged
      · cases hstep
        exact absurd rfl hchanged
    · cases hstep
  | timeout id | ended id faults =>
    simp only [AccountStatuses.step] at hstep
    split at hstep
    · obtain ⟨phase, -, rfl⟩ := Option.map_eq_some_iff.1 hstep
      exact absurd rfl hchanged
    · cases hstep
  | disable | remove =>
    simp only [AccountStatuses.step] at hstep
    split_ifs at hstep
    cases hstep
    exact absurd rfl hchanged

end MayWrite

/-- While no cycle is superseded between its guards and its update and no ended
    account's incarnations come back, a settled cycle leaves no account syncing, and
    only the current cycle of the current incarnation writes. -/
theorem status_never_latches (hreach : statuses.Reachable Undisturbed state) :
    state.Truthful ∧ ∀ action after, state.Undisturbed action → state.step action = some after →
      after.overview ≠ state.overview → state.MayWrite action :=
  ⟨(invariant_of_reachable hreach).truthful, fun _ _ hguard hstep hchanged =>
    (invariant_of_reachable hreach).mayWrite hguard hstep hchanged⟩

theorem finished_cycle_is_ready : ∃ state : AccountStatuses, state.status = some .ready ∧ state.settled = [1] ∧
    state.Truthful := by
  have hfree : 0 < U64_MAX := Nat.zero_lt_succ _
  have hstarted := @Reachable.next _ _ statuses Undisturbed _ _ .start_account (.start rfl) trivial rfl
  have hminted := @Reachable.next _ _ statuses Undisturbed _ _ (.next_runtime_generation 0) hstarted ⟨rfl, hfree⟩ rfl
  have hwaiting := @Reachable.next _ _ statuses Undisturbed _ _ (.initialise 0) hminted trivial rfl
  have hcycle := @Reachable.next _ _ statuses Undisturbed _ _ (.next_sync_cycle 0) hwaiting hfree rfl
  have hchecked := @Reachable.next _ _ statuses Undisturbed _ _ (.check_connecting 0 "sync" .startup "now") hcycle
    trivial rfl
  have hconnected := @Reachable.next _ _ statuses Undisturbed _ _ (.set_connecting 0) hchecked rfl rfl
  have hsettled := @Reachable.next _ _ statuses Undisturbed _ _ (.mark_sync_success 0 none) hconnected
    (fun _ _ hstale => absurd ⟨rfl, _, _, rfl, rfl, rfl⟩ hstale) rfl
  exact ⟨_, rfl, rfl, (status_never_latches hsettled).1⟩

/-- A forwarder has passed its guards when its cycle's arm times out; its update
    comes after the connecting progress of the next cycle. -/
theorem abandoned_cycle_writes : ¬ ∀ state, statuses.Reachable unguarded state →
    state.Truthful ∧ ∀ action after, state.step action = some after → after.overview ≠ state.overview →
      state.MayWrite action := by
  intro hkept
  let fetching : GatewayProgress :=
    ⟨⟨"first", .poll, "now", .fetching, "Fetching mailbox", none, none, none, none, none⟩, fun hsame => nomatch hsame⟩
  obtain ⟨state, after, hrun, hstep, hbefore, hafter, hcycle, hforwarder⟩ : ∃ state after,
      runActions step (fun _ _ => true) new [.start_account, .next_runtime_generation 0, .initialise 0,
        .next_sync_cycle 0, .check_connecting 0 "first" .poll "now", .set_connecting 0, .sync_progress_reporter 0,
        .report 0 fetching, .check_progress 0, .timeout 0, .invalidate_sync_cycle 0,
        .mark_arm_timeout 0 "poll_sync" "120s", .next_sync_cycle 0, .check_connecting 0 "second" .poll "now",
        .set_connecting 0] = some state ∧ state.step (.set_progress 0) = some after ∧
      (state.overview.bind (·.sync_progress)).map (·.sync_id) = some "second" ∧
      (after.overview.bind (·.sync_progress)).map (·.sync_id) = some "first" ∧ state.sync_cycle = some 3 ∧
      state.forwarders[0]? = some ⟨0, 1, 1, [], some fetching⟩ := ⟨_, _, rfl, rfl, rfl, rfl, rfl, rfl⟩
  have hreach : statuses.Reachable unguarded state := reachable_of_runActions (fun _ _ _ => trivial) (.start rfl) hrun
  have hchanged : after.overview ≠ state.overview := by
    intro hsame
    rw [hsame, hbefore] at hafter
    exact absurd (Option.some.inj hafter) (by decide)
  obtain ⟨-, forwarder, hfound, -, hcurrent⟩ := (hkept state hreach).2 _ after hstep hchanged
  rw [hforwarder] at hfound
  cases hfound
  rw [hcycle] at hcurrent
  cases hcurrent

end posthaste.supervisor.AccountStatuses
