import Posthaste.Supervisor.Status

open TransitionSystem

namespace posthaste.supervisor

/-- A generation that was minted, and is past once the account was disabled or removed. -/
def Known (generation : Option Nat) (standing : Standing) (known : Nat) : Prop :=
  (∃ current, generation = some current ∧ known ≤ current) ∧ (standing ≠ .live → generation ≠ some known)

/-- An update that holds the generations was checked against the one that is current. -/
structure TaskSound (generation : Option Nat) (standing : Standing) (task : RuntimeTask) : Prop where
  known : ∀ minted, task.generation = some minted → Known generation standing minted
  checked : ∀ cycle progress, task.phase = .connecting cycle (some progress) → task.generation = generation

structure ForwarderSound (generation : Option Nat) (standing : Standing) (forwarder : Forwarder) : Prop where
  known : Known generation standing forwarder.generation
  checked : ∀ progress, forwarder.checked = some progress → generation = some forwarder.generation

structure Minted (generation : Option Nat) (standing : Standing) (tasks : List RuntimeTask)
    (forwarders : List Forwarder) : Prop where
  tasks : ∀ task ∈ tasks, TaskSound generation standing task
  forwarders : ∀ forwarder ∈ forwarders, ForwarderSound generation standing forwarder

/-- Every unsettled cycle has its own token, which no settled one had. -/
structure Cycles (counter : Nat) (settled : List Nat) (cycleOf : Nat → Option Nat) : Prop where
  token : ∀ task cycle, cycleOf task = some cycle → cycle ≤ counter ∧ cycle ∉ settled
  settled : ∀ cycle ∈ settled, cycle ≤ counter
  distinct : ∀ first second cycle, cycleOf first = some cycle → cycleOf second = some cycle → first = second

/-- A cycle has started after every one that has settled. -/
def Newest (settled : List Nat) (cycleOf : Nat → Option Nat) : Prop :=
  ∃ task cycle, cycleOf task = some cycle ∧ ∀ other ∈ settled, other < cycle

section Parts

variable {generation : Option Nat} {standing : Standing} {tasks : List RuntimeTask} {forwarders : List Forwarder}
  {counter : Nat} {settled : List Nat} {cycleOf : Nat → Option Nat}

theorem Minted.set {id : Nat} {next : RuntimeTask} (hminted : Minted generation standing tasks forwarders)
    (hnext : TaskSound generation standing next) : Minted generation standing (tasks.set id next) forwarders where
  tasks task hmem := by
    obtain hin | rfl := List.mem_or_eq_of_mem_set hmem
    · exact hminted.tasks task hin
    · exact hnext
  forwarders := hminted.forwarders

theorem Minted.setForwarder {id : Nat} {next : Forwarder} (hminted : Minted generation standing tasks forwarders)
    (hnext : ForwarderSound generation standing next) :
    Minted generation standing tasks (forwarders.set id next) where
  tasks := hminted.tasks
  forwarders forwarder hmem := by
    obtain hin | rfl := List.mem_or_eq_of_mem_set hmem
    · exact hminted.forwarders forwarder hin
    · exact hnext

theorem Minted.append {next : RuntimeTask} (hminted : Minted generation standing tasks forwarders)
    (hnext : TaskSound generation standing next) : Minted generation standing (tasks ++ [next]) forwarders where
  tasks task hmem := by
    obtain hin | hin := List.mem_append.1 hmem
    · exact hminted.tasks task hin
    · rw [List.mem_singleton.1 hin]
      exact hnext
  forwarders := hminted.forwarders

theorem Minted.appendForwarder {next : Forwarder} (hminted : Minted generation standing tasks forwarders)
    (hnext : ForwarderSound generation standing next) :
    Minted generation standing tasks (forwarders ++ [next]) where
  tasks := hminted.tasks
  forwarders forwarder hmem := by
    obtain hin | hin := List.mem_append.1 hmem
    · exact hminted.forwarders forwarder hin
    · rw [List.mem_singleton.1 hin]
      exact hnext

theorem taskSound_spawned : TaskSound generation standing ⟨none, .spawned⟩ where
  known _ hminted := nomatch hminted
  checked _ _ hphase := nomatch hphase

theorem Known.start {known : Nat} (hknown : Known generation standing known) : Known generation .live known :=
  ⟨hknown.1, fun hne => absurd rfl hne⟩

/-- The account is started: what was past may be current again. -/
theorem Minted.start (hminted : Minted generation standing tasks forwarders) :
    Minted generation .live tasks forwarders where
  tasks task hmem := ⟨fun minted hgeneration => ((hminted.tasks task hmem).known minted hgeneration).start,
    (hminted.tasks task hmem).checked⟩
  forwarders forwarder hmem := ⟨(hminted.forwarders forwarder hmem).known.start,
    (hminted.forwarders forwarder hmem).checked⟩

theorem advanced_of_lt {counter : Option Nat} (hcounter : counter.getD 0 < U64_MAX) :
    AccountStatuses.advanced counter = counter.getD 0 + 1 := by
  unfold AccountStatuses.advanced
  omega

theorem Known.advance {known : Nat} {next : Standing} (hknown : Known generation standing known)
    (hcounter : generation.getD 0 < U64_MAX) : Known (some (AccountStatuses.advanced generation)) next known := by
  obtain ⟨⟨current, rfl, hle⟩, -⟩ := hknown
  rw [advanced_of_lt hcounter, Option.getD_some]
  refine ⟨⟨current + 1, rfl, by omega⟩, fun _ hsame => ?_⟩
  have heq : current + 1 = known := Option.some.inj hsame
  omega

/-- A new generation is minted while no update holds the old one. -/
theorem Minted.advance {next : Standing} (hminted : Minted generation standing tasks forwarders)
    (hcounter : generation.getD 0 < U64_MAX)
    (htasks : ∀ task ∈ tasks, ∀ cycle progress, task.phase ≠ .connecting cycle (some progress))
    (hforwarders : ∀ forwarder ∈ forwarders, forwarder.checked = none) :
    Minted (some (AccountStatuses.advanced generation)) next tasks forwarders where
  tasks task hmem := ⟨fun minted hgeneration => ((hminted.tasks task hmem).known minted hgeneration).advance hcounter,
    fun cycle progress hphase => absurd hphase (htasks task hmem cycle progress)⟩
  forwarders forwarder hmem := ⟨(hminted.forwarders forwarder hmem).known.advance hcounter, fun progress hchecked => by
    rw [hforwarders forwarder hmem] at hchecked
    cases hchecked⟩

theorem Cycles.mono {larger : Nat} (hcycles : Cycles counter settled cycleOf) (hle : counter ≤ larger) :
    Cycles larger settled cycleOf where
  token task cycle htoken := ⟨Nat.le_trans (hcycles.token task cycle htoken).1 hle, (hcycles.token task cycle htoken).2⟩
  settled cycle hmem := Nat.le_trans (hcycles.settled cycle hmem) hle
  distinct := hcycles.distinct

/-- A cycle begins with the next token. -/
theorem Cycles.begin (id : Nat) {after : Nat → Option Nat} (hcycles : Cycles counter settled cycleOf)
    (hafter : ∀ task, after task = if task = id then some (counter + 1) else cycleOf task) :
    Cycles (counter + 1) settled after where
  token task cycle htoken := by
    rw [hafter] at htoken
    split_ifs at htoken with htask
    · cases htoken
      refine ⟨Nat.le_refl _, fun hmem => ?_⟩
      have hle := hcycles.settled _ hmem
      omega
    · obtain ⟨hle, hfresh⟩ := hcycles.token task cycle htoken
      exact ⟨by omega, hfresh⟩
  settled cycle hmem := Nat.le_succ_of_le (hcycles.settled cycle hmem)
  distinct first second cycle hfirst hsecond := by
    rw [hafter] at hfirst hsecond
    split_ifs at hfirst hsecond with hone htwo
    · rw [hone, htwo]
    · cases hfirst
      have hle := (hcycles.token second _ hsecond).1
      omega
    · cases hsecond
      have hle := (hcycles.token first _ hfirst).1
      omega
    · exact hcycles.distinct first second cycle hfirst hsecond

/-- A task's cycle settles, if it had one. -/
theorem Cycles.settle {id : Nat} {after : Nat → Option Nat} (hcycles : Cycles counter settled cycleOf)
    (hafter : ∀ task, after task = if task = id then none else cycleOf task) :
    Cycles counter ((cycleOf id).toList ++ settled) after where
  token task cycle htoken := by
    rw [hafter] at htoken
    split_ifs at htoken with htask
    obtain ⟨hle, hfresh⟩ := hcycles.token task cycle htoken
    refine ⟨hle, fun hmem => ?_⟩
    obtain hin | hin := List.mem_append.1 hmem
    · exact htask (hcycles.distinct task id cycle htoken (Option.mem_toList.1 hin))
    · exact hfresh hin
  settled cycle hmem := by
    obtain hin | hin := List.mem_append.1 hmem
    · exact (hcycles.token id cycle (Option.mem_toList.1 hin)).1
    · exact hcycles.settled cycle hin
  distinct first second cycle hfirst hsecond := by
    rw [hafter] at hfirst hsecond
    split_ifs at hfirst hsecond
    exact hcycles.distinct first second cycle hfirst hsecond

/-- The current cycle is newer than all that have settled. -/
theorem Cycles.newest_of_current (task : Nat) (hcycles : Cycles counter settled cycleOf)
    (hcurrent : cycleOf task = some counter) : Newest settled cycleOf := by
  refine ⟨task, counter, hcurrent, fun other hmem => ?_⟩
  have hne : other ≠ counter := by
    rintro rfl
    exact (hcycles.token task other hcurrent).2 hmem
  have hle := hcycles.settled other hmem
  omega

end Parts

namespace AccountStatuses

variable {state after : AccountStatuses} {id : Nat}

/-- Once a cycle has settled, the account is syncing for a newer one alone. -/
def Truthful (state : AccountStatuses) : Prop := state.status = some .syncing → Newest state.settled state.cycleOf

/-- The task was started for the current generation, of an account that is live. -/
def Current (state : AccountStatuses) (id : Nat) : Prop :=
  state.standing = .live ∧ ∃ task generation, state.tasks[id]? = some task ∧ task.generation = some generation ∧
    state.runtime_generation = some generation

/-- Who may change the overview: the current incarnation of a live account, its
    progress within the current cycle, its watchdog, and the account's own calls. -/
def MayWrite (state : AccountStatuses) : StatusStep → Prop
  | .initialise id | .mark_sync_success id _ | .mark_sync_failure id _ _ _ | .set_push_status id _
  | .mark_push_terminal id _ _ _ | .mark_arm_timeout id _ _ | .mark_account_faulted id _ _
  | .mark_account_halted id _ => state.Current id
  | .set_connecting id => state.Current id ∧ ∃ cycle, state.cycleOf id = some cycle ∧ state.sync_cycle = some cycle
  | .set_progress id => state.standing = .live ∧ ∃ forwarder, state.forwarders[id]? = some forwarder ∧
    state.runtime_generation = some forwarder.generation ∧ state.sync_cycle = some forwarder.cycle
  | .set_disabled | .remove_overview => True
  | _ => False

/-- A cycle that settles for a superseded incarnation is not the one the account still shows. -/
def Superseded (state : AccountStatuses) (id : Nat) : Prop :=
  ∀ cycle, state.cycleOf id = some cycle → ¬ state.Current id → state.status = some .syncing →
    ∃ other newer, state.cycleOf other = some newer ∧ cycle < newer

/-- No cycle is superseded between the guards of its progress and the update, no
    incarnation begins after its account was ended, no watchdog reports a superseded
    one, and no counter has run out. -/
def Undisturbed (state : AccountStatuses) : StatusStep → Prop
  | .next_runtime_generation _ => state.standing = .live ∧ state.runtime_generation.getD 0 < U64_MAX
  | .disable | .remove => state.runtime_generation.getD 0 < U64_MAX
  | .next_sync_cycle _ | .invalidate_sync_cycle _ => state.sync_cycle.getD 0 < U64_MAX
  | .set_connecting id => state.cycleOf id = state.sync_cycle
  | .set_progress id => state.status = some .syncing → ∀ forwarder, state.forwarders[id]? = some forwarder →
    state.sync_cycle = some forwarder.cycle
  | .mark_sync_success id _ | .mark_sync_failure id _ _ _ | .mark_arm_timeout id _ _ => state.Superseded id
  | .mark_account_faulted id _ _ | .mark_account_halted id _ => state.Current id
  | _ => True

structure StatusInvariant (state : AccountStatuses) : Prop where
  minted : Minted state.runtime_generation state.standing state.tasks state.forwarders
  cycles : Cycles (state.sync_cycle.getD 0) state.settled state.cycleOf
  truthful : state.Truthful

theorem cycleOf_eq_of_some {task : RuntimeTask} (htask : state.tasks[id]? = some task) :
    state.cycleOf id = task.phase.cycle := by
  rw [cycleOf, htask]
  rfl

theorem cycleOf_setTask {old : RuntimeTask} (next : RuntimeTask) (hold : state.tasks[id]? = some old) (task : Nat) :
    (state.setTask id next).cycleOf task = if task = id then next.phase.cycle else state.cycleOf task := by
  have hbound : id < state.tasks.length := (List.getElem?_eq_some_iff.1 hold).1
  unfold cycleOf setTask
  rw [List.getElem?_set]
  by_cases htask : task = id
  · rw [if_pos htask, if_pos htask.symm, if_pos (by omega)]
    rfl
  · rw [if_neg htask, if_neg (Ne.symm htask)]

theorem cycleOf_setTask_same {old : RuntimeTask} (next : RuntimeTask) (hold : state.tasks[id]? = some old)
    (hcycle : next.phase.cycle = old.phase.cycle) : (state.setTask id next).cycleOf = state.cycleOf := by
  funext task
  rw [cycleOf_setTask next hold, hcycle]
  split_ifs with htask
  · rw [htask, cycleOf_eq_of_some hold]
  · rfl

theorem cycleOf_append (tasks : List RuntimeTask) (hafter : after.tasks = tasks ++ [⟨none, .spawned⟩])
    (htasks : state.tasks = tasks) : after.cycleOf = state.cycleOf := by
  funext task
  unfold cycleOf
  rw [hafter, htasks, List.getElem?_append]
  split_ifs with hbound
  · rfl
  · rw [List.getElem?_eq_none (Nat.le_of_not_lt hbound)]
    cases task - tasks.length with
    | zero => rfl
    | succ _ => rfl

/-- An update is the overview it leaves. -/
theorem commit_eq (state : AccountStatuses) (write : StatusWrite) : ∃ overview, state.commit write = { state with overview } := by
  unfold commit
  split
  · exact ⟨_, rfl⟩
  · exact ⟨state.overview, rfl⟩

theorem update_runtime_overview_eq (state : AccountStatuses) (generation : Option Nat) (write : StatusWrite) :
    ∃ overview, state.update_runtime_overview generation write = { state with overview } := by
  unfold update_runtime_overview
  split
  · exact commit_eq state write
  · split_ifs
    · exact commit_eq state write
    · exact ⟨state.overview, rfl⟩

/-- The update leaves the account in some status other than syncing. -/
def Settles (write : StatusWrite) : Prop :=
  ∀ current, ∃ overview, write.update current = some overview ∧ overview.status ≠ .syncing

/-- The update makes no account syncing. -/
def Calm (write : StatusWrite) : Prop :=
  ∀ current overview, write.update current = some overview → overview.status = .syncing → current.status = .syncing

theorem Settles.calm {write : StatusWrite} (hsettles : Settles write) : Calm write := by
  intro current overview hupdate hsyncing
  obtain ⟨settled, hsettled, hne⟩ := hsettles current
  rw [hupdate] at hsettled
  cases hsettled
  exact absurd hsyncing hne

theorem status_commit_of_settles {write : StatusWrite} (hsettles : Settles write) :
    (state.commit write).status ≠ some .syncing := by
  obtain ⟨overview, hupdate, hne⟩ := hsettles (state.overview.getD (.new .offline .disabled))
  rw [commit, hupdate]
  exact fun hsame => hne (Option.some.inj hsame)

theorem status_commit_of_calm {write : StatusWrite} (hcalm : Calm write)
    (hsyncing : (state.commit write).status = some .syncing) : state.status = some .syncing := by
  unfold commit at hsyncing
  split at hsyncing
  · rename_i overview hupdate
    have hcurrent := hcalm _ overview hupdate (Option.some.inj hsyncing)
    cases hoverview : state.overview with
    | none =>
      rw [hoverview] at hcurrent
      cases hcurrent
    | some current =>
      rw [hoverview, Option.getD_some] at hcurrent
      rw [status, hoverview, Option.map_some, hcurrent]
  · exact hsyncing

theorem status_update_of_calm (generation : Option Nat) {write : StatusWrite} (hcalm : Calm write)
    (hsyncing : (state.update_runtime_overview generation write).status = some .syncing) :
    state.status = some .syncing := by
  unfold update_runtime_overview at hsyncing
  split at hsyncing
  · exact status_commit_of_calm hcalm hsyncing
  · split_ifs at hsyncing
    · exact status_commit_of_calm hcalm hsyncing
    · exact hsyncing

theorem settles_overview {status : AccountStatus} {push : PushStatus} (hstatus : status ≠ .syncing) :
    Settles (.set_runtime_overview (.new status push)) := fun _ => ⟨_, rfl, hstatus⟩

theorem settles_success (now : Option String) : Settles (.mark_sync_success now) :=
  fun _ => ⟨_, rfl, fun hsame => nomatch hsame⟩

theorem settles_failure (fault : SyncFault) (message code : String) :
    Settles (.mark_sync_failure fault message code) := by
  intro current
  refine ⟨_, rfl, ?_⟩
  cases fault <;> exact fun hsame => nomatch hsame

theorem settles_arm_timeout (arm budget : String) : Settles (.mark_arm_timeout arm budget) :=
  fun _ => ⟨_, rfl, fun hsame => nomatch hsame⟩

theorem settles_faulted (attempt : Nat) (reason : String) : Settles (.mark_account_faulted attempt reason) :=
  fun _ => ⟨_, rfl, fun hsame => nomatch hsame⟩

theorem settles_halted (reason : String) : Settles (.mark_account_halted reason) :=
  fun _ => ⟨_, rfl, fun hsame => nomatch hsame⟩

theorem calm_push (push : PushStatus) : Calm (.set_push_status push) := by
  intro current overview hupdate hsyncing
  simp only [StatusWrite.update] at hupdate
  split_ifs at hupdate
  cases hupdate
  exact hsyncing

theorem calm_push_terminal (transport reason : String) (poll_secs : Nat) :
    Calm (.mark_push_terminal transport reason poll_secs) := by
  intro current overview hupdate hsyncing
  simp only [StatusWrite.update] at hupdate
  split_ifs at hupdate
  cases hupdate
  exact hsyncing

/-- What a gateway reports changes only an account that is syncing. -/
theorem calm_progress (progress : GatewayProgress) : Calm (.set_sync_progress progress) := by
  intro current overview hupdate _
  simp only [StatusWrite.update] at hupdate
  split_ifs at hupdate with hdeclined
  by_contra hstatus
  exact hdeclined ⟨progress.2, hstatus⟩

theorem unlocked_tasks (hunlocked : state.unlocked = true) :
    ∀ task ∈ state.tasks, ∀ cycle progress, task.phase ≠ .connecting cycle (some progress) := by
  intro task hmem cycle progress hphase
  have htask := List.all_eq_true.1 (Bool.and_eq_true_iff.1 hunlocked).1 task hmem
  rw [hphase] at htask
  cases htask

theorem unlocked_forwarders (hunlocked : state.unlocked = true) :
    ∀ forwarder ∈ state.forwarders, forwarder.checked = none := fun forwarder hmem =>
  Option.isNone_iff_eq_none.1 (List.all_eq_true.1 (Bool.and_eq_true_iff.1 hunlocked).2 forwarder hmem)

theorem generation_of_guards {generation cycle : Nat} (hguards : state.guards generation cycle = true) :
    state.runtime_generation = some generation :=
  of_decide_eq_true (Bool.and_eq_true_iff.1 hguards).1

theorem statusInvariant_new : new.StatusInvariant where
  minted := ⟨fun _ hmem => absurd hmem List.not_mem_nil, fun _ hmem => absurd hmem List.not_mem_nil⟩
  cycles := ⟨fun _ _ htoken => (nomatch htoken), fun _ hmem => absurd hmem List.not_mem_nil,
    fun _ _ _ hfirst => (nomatch hfirst)⟩
  truthful hsyncing := nomatch hsyncing

namespace StatusInvariant

variable {old next : RuntimeTask}

theorem sound (hinv : state.StatusInvariant) (hold : state.tasks[id]? = some old) :
    TaskSound state.runtime_generation state.standing old := hinv.minted.tasks old (List.mem_of_getElem? hold)

theorem forwarderSound (hinv : state.StatusInvariant) {forwarder : Forwarder}
    (hforwarder : state.forwarders[id]? = some forwarder) :
    ForwarderSound state.runtime_generation state.standing forwarder :=
  hinv.minted.forwarders forwarder (List.mem_of_getElem? hforwarder)

/-- A task moves on within its cycle, and the overview with it. -/
theorem move (hinv : state.StatusInvariant) (hold : state.tasks[id]? = some old)
    (hcycle : next.phase.cycle = old.phase.cycle)
    (hsound : TaskSound state.runtime_generation state.standing next) {overview : Option AccountRuntimeOverview}
    (hstatus : ({ state with overview } : AccountStatuses).status = some .syncing → state.status = some .syncing) :
    ({ state.setTask id next with overview } : AccountStatuses).StatusInvariant := by
  have hcycles : ({ state.setTask id next with overview } : AccountStatuses).cycleOf = state.cycleOf :=
    cycleOf_setTask_same next hold hcycle
  refine ⟨hinv.minted.set hsound, ?_, fun hsyncing => ?_⟩
  · rw [hcycles]
    exact hinv.cycles
  · rw [hcycles]
    exact hinv.truthful (hstatus hsyncing)

/-- A task that keeps its generation and holds no update stays sound. -/
theorem soundOf (hinv : state.StatusInvariant) {generation : Option Nat} {phase : TaskPhase}
    (hold : state.tasks[id]? = some old) (hgeneration : generation = old.generation)
    (hphase : ∀ cycle progress, phase ≠ .connecting cycle (some progress)) :
    TaskSound state.runtime_generation state.standing ⟨generation, phase⟩ where
  known := hgeneration ▸ (hinv.sound hold).known
  checked cycle progress hsame := absurd hsame (hphase cycle progress)

/-- A further incarnation is spawned, by a start of the account or by its watchdog. -/
theorem spawn (hinv : state.StatusInvariant) (standing : Standing) (hstanding : standing = state.standing ∨ standing = .live) :
    ({ state with tasks := state.tasks ++ [⟨none, .spawned⟩], standing } : AccountStatuses).StatusInvariant := by
  have hcycles : ({ state with tasks := state.tasks ++ [⟨none, .spawned⟩], standing } : AccountStatuses).cycleOf =
      state.cycleOf := cycleOf_append state.tasks rfl rfl
  refine ⟨Minted.append ?_ taskSound_spawned, ?_, fun hsyncing => ?_⟩
  · obtain rfl | rfl := hstanding
    · exact hinv.minted
    · exact hinv.minted.start
  · rw [hcycles]
    exact hinv.cycles
  · rw [hcycles]
    exact hinv.truthful hsyncing

/-- The overview alone is updated. -/
theorem write (hinv : state.StatusInvariant) {overview : Option AccountRuntimeOverview}
    (hstatus : ({ state with overview } : AccountStatuses).status = some .syncing → state.status = some .syncing) :
    ({ state with overview } : AccountStatuses).StatusInvariant :=
  ⟨hinv.minted, hinv.cycles, fun hsyncing => hinv.truthful (hstatus hsyncing)⟩

theorem forward (hinv : state.StatusInvariant) {forwarder : Forwarder}
    (hsound : ForwarderSound state.runtime_generation state.standing forwarder) :
    (state.setForwarder id forwarder).StatusInvariant :=
  ⟨hinv.minted.setForwarder hsound, hinv.cycles, hinv.truthful⟩

/-- Besides the superseded task, one has a cycle newer than all that will have settled. -/
theorem newer_of_superseded (hinv : state.StatusInvariant) (hsuperseded : state.Superseded id)
    (hstale : ¬ state.Current id) (hstatus : state.status = some .syncing) :
    ∃ other cycle, state.cycleOf other = some cycle ∧ other ≠ id ∧
      ∀ settled ∈ (state.cycleOf id).toList ++ state.settled, settled < cycle := by
  obtain ⟨task, newest, htask, hnewest⟩ := hinv.truthful hstatus
  cases hid : state.cycleOf id with
  | none =>
    refine ⟨task, newest, htask, ?_, hnewest⟩
    rintro rfl
    rw [hid] at htask
    cases htask
  | some cycle =>
    obtain ⟨other, newer, hother, hlt⟩ := hsuperseded cycle hid hstale hstatus
    have hne : ∀ found later, state.cycleOf found = some later → cycle < later → found ≠ id := by
      rintro found later hfound hlater rfl
      rw [hid] at hfound
      cases hfound
      omega
    have hsettled : ∀ later, cycle < later → newest ≤ later → ∀ settled ∈ [cycle] ++ state.settled, settled < later := by
      intro later hlater hle settled hmem
      obtain rfl | hin := List.mem_cons.1 hmem
      · exact hlater
      · have hbelow := hnewest settled hin
        omega
    by_cases hlater : cycle < newest
    · exact ⟨task, newest, htask, hne task newest htask hlater, hsettled newest hlater (Nat.le_refl _)⟩
    · exact ⟨other, newer, hother, hne other newer hother hlt, hsettled newer hlt (by omega)⟩

theorem settle {generation : Nat} {phase : TaskPhase} {write : StatusWrite} (hinv : state.StatusInvariant)
    (hold : state.tasks[id]? = some ⟨some generation, phase⟩) (hsettles : Settles write)
    (hsuperseded : state.Superseded id) : (state.settle id generation phase.cycle write).StatusInvariant := by
  have hcycle : phase.cycle = state.cycleOf id := (cycleOf_eq_of_some hold).symm
  obtain ⟨overview, hupdate⟩ := update_runtime_overview_eq state (some generation) write
  have hcycles : ∀ task, (state.settle id generation phase.cycle write).cycleOf task =
      if task = id then none else state.cycleOf task := by
    intro task
    rw [AccountStatuses.settle, hupdate]
    exact cycleOf_setTask ⟨some generation, .waiting⟩ hold task
  refine ⟨?_, ?_, fun hsyncing => ?_⟩
  · rw [AccountStatuses.settle, hupdate]
    exact hinv.minted.set (hinv.soundOf hold rfl fun _ _ hphase => nomatch hphase)
  · have hsettled := hinv.cycles.settle hcycles
    rw [AccountStatuses.settle, hupdate, hcycle]
    rw [AccountStatuses.settle, hupdate, hcycle] at hsettled
    exact hsettled
  · have hstatus : (state.update_runtime_overview (some generation) write).status = some .syncing := hsyncing
    by_cases hcurrent : state.runtime_generation = some generation
    · rw [update_runtime_overview, if_pos hcurrent] at hstatus
      exact absurd hstatus (status_commit_of_settles hsettles)
    · rw [update_runtime_overview, if_neg hcurrent] at hstatus
      obtain ⟨task, newest, htask, hnewest⟩ := hinv.truthful hstatus
      have hstale : ¬ state.Current id := by
        rintro ⟨-, found, minted, hfound, hminted, hgeneration⟩
        rw [hold] at hfound
        cases hfound
        cases hminted
        exact hcurrent hgeneration
      obtain ⟨other, cycle, hother, hne, hnewer⟩ := hinv.newer_of_superseded hsuperseded hstale hstatus
      refine ⟨other, cycle, ?_, ?_⟩
      · rw [hcycles, if_neg hne]
        exact hother
      · rw [AccountStatuses.settle, hcycle]
        exact hnewer

end StatusInvariant

end AccountStatuses

end posthaste.supervisor
