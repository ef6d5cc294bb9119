import Posthaste.Supervisor.Runtimes

open TransitionSystem

namespace posthaste.supervisor.AccountSupervisor

variable {supervisor after : AccountSupervisor}

/-- An incarnation that was spawned and has neither finished nor been cancelled or aborted. -/
def Live (supervisor : AccountSupervisor) (id : Nat) : Prop :=
  ∃ runtime, supervisor.runtimes id = some runtime ∧ runtime.incarnation = .running ∧
    supervisor.is_cancelled runtime = false

/-- A runtime whose watchdog may still have or bring a live incarnation. -/
def Up (supervisor : AccountSupervisor) (id : Nat) : Prop :=
  ∃ runtime, supervisor.runtimes id = some runtime ∧ runtime.monitor ≠ .returned ∧
    supervisor.is_cancelled runtime = false

/-- The call holds a runtime that it has spawned and not inserted. -/
def Holds (supervisor : AccountSupervisor) (call runtime : Nat) : Prop :=
  ∃ kind, supervisor.calls call = some ⟨kind, .spawned runtime⟩

/-- Never two live runtimes, and none after a last call that leaves the account without one. -/
structure OneRuntime (supervisor : AccountSupervisor) : Prop where
  unique : ∀ first second, supervisor.Live first → supervisor.Live second → first = second
  stopped : (∀ call, supervisor.calls call = none) → ∀ kind, supervisor.last = some kind → kind.starts = false →
    ∀ runtime, ¬ supervisor.Live runtime

/-- No start spawns, inserts or goes away over a runtime that is still up, and no
    call that ends the account's calls leaves one in the map. -/
def Orderly (supervisor : AccountSupervisor) : SupervisorStep → Prop
  | .proceed id => ∀ kind, supervisor.calls id = some ⟨kind, .stopped⟩ →
    if kind.starts then
      ∀ runtime, supervisor.entry = some runtime ∨ (∃ other, supervisor.Holds other runtime) → ¬ supervisor.Up runtime
    else (∀ other, other ≠ id → supervisor.calls other = none) →
      ∀ runtime, supervisor.entry = some runtime → ¬ supervisor.Up runtime
  | .insert _ => ∀ runtime, supervisor.entry = some runtime → ¬ supervisor.Up runtime
  | .dropped id => ∀ runtime, supervisor.Holds id runtime → ¬ supervisor.Up runtime
  | _ => True

structure Invariant (supervisor : AccountSupervisor) : Prop where
  held : ∀ id, supervisor.Up id → supervisor.entry = some id ∨ ∃ call, supervisor.Holds call id
  unique : ∀ first second, supervisor.Up first → supervisor.Up second → first = second
  watched : ∀ id runtime, supervisor.runtimes id = some runtime → runtime.incarnation = .running →
    runtime.monitor = .watching
  quiet : (∀ call, supervisor.calls call = none) → ∀ kind, supervisor.last = some kind → kind.starts = false →
    ∀ runtime, ¬ supervisor.Up runtime

theorem Invariant.up_of_live (hinv : supervisor.Invariant) {id : Nat} (hlive : supervisor.Live id) :
    supervisor.Up id := by
  obtain ⟨runtime, hruntime, hrunning, hcancelled⟩ := hlive
  refine ⟨runtime, hruntime, ?_, hcancelled⟩
  rw [hinv.watched id runtime hruntime hrunning]
  decide

theorem Invariant.oneRuntime (hinv : supervisor.Invariant) : supervisor.OneRuntime where
  unique first second hfirst hsecond := hinv.unique first second (hinv.up_of_live hfirst) (hinv.up_of_live hsecond)
  stopped hcalls kind hlast hkind runtime hlive := hinv.quiet hcalls kind hlast hkind runtime (hinv.up_of_live hlive)

theorem invariant_new : new.Invariant where
  held := by rintro id ⟨runtime, hruntime, -⟩; cases hruntime
  unique := by rintro first second ⟨runtime, hruntime, -⟩; cases hruntime
  watched := by rintro id runtime hruntime; cases hruntime
  quiet := by rintro - kind hlast; cases hlast

/-- What no step of a runtime does: bring one back up that was down. -/
theorem up_setRuntime {id other : Nat} {runtime changed : ManagedRuntime}
    (hruntime : supervisor.runtimes id = some runtime) (hcancel : changed.cancel = false → runtime.cancel = false)
    (hmonitor : changed.monitor ≠ .returned → runtime.monitor ≠ .returned)
    (hup : (supervisor.setRuntime id changed).Up other) : supervisor.Up other := by
  obtain ⟨found, hfound, hreturned, hcancelled⟩ := hup
  by_cases hother : other = id
  · subst hother
    have hsame : found = changed := by
      rw [runtimes_setRuntime_self] at hfound
      exact (Option.some.inj hfound).symm
    subst hsame
    obtain ⟨hroot, hfree⟩ := Bool.or_eq_false_iff.1 hcancelled
    exact ⟨runtime, hruntime, hmonitor hreturned, Bool.or_eq_false_iff.2 ⟨hroot, hcancel hfree⟩⟩
  · rw [runtimes_setRuntime_of_ne supervisor hother] at hfound
    exact ⟨found, hfound, hreturned, hcancelled⟩

theorem watched_setRuntime {id : Nat} {changed : ManagedRuntime} (hinv : supervisor.Invariant)
    (hchanged : changed.incarnation = .running → changed.monitor = .watching) :
    ∀ other runtime, (supervisor.setRuntime id changed).runtimes other = some runtime →
      runtime.incarnation = .running → runtime.monitor = .watching := by
  intro other runtime hruntime
  by_cases hother : other = id
  · subst hother
    rw [runtimes_setRuntime_self] at hruntime
    cases hruntime
    exact hchanged
  · rw [runtimes_setRuntime_of_ne supervisor hother] at hruntime
    exact hinv.watched other runtime hruntime

/-- A step of a runtime or of its watchdog. -/
theorem Invariant.setRuntime {id : Nat} {runtime changed : ManagedRuntime} (hinv : supervisor.Invariant)
    (hruntime : supervisor.runtimes id = some runtime) (hcancel : changed.cancel = false → runtime.cancel = false)
    (hmonitor : changed.monitor ≠ .returned → runtime.monitor ≠ .returned)
    (hchanged : changed.incarnation = .running → changed.monitor = .watching) :
    (supervisor.setRuntime id changed).Invariant := by
  have hup : ∀ other, (supervisor.setRuntime id changed).Up other → supervisor.Up other :=
    fun other => up_setRuntime hruntime hcancel hmonitor
  exact ⟨fun other hother => hinv.held other (hup other hother),
    fun first second hfirst hsecond => hinv.unique first second (hup first hfirst) (hup second hsecond),
    watched_setRuntime hinv hchanged,
    fun hcalls kind hlast hkind other hother => hinv.quiet hcalls kind hlast hkind other (hup other hother)⟩

/-- A call that holds no runtime moves on, while the map keeps what is up. -/
theorem Invariant.moveCall {id : Nat} {next : SupervisorCall} (hinv : supervisor.Invariant)
    (hempty : ∀ runtime, ¬ supervisor.Holds id runtime) (hup : ∀ runtime, after.Up runtime → supervisor.Up runtime)
    (hcalls : after.calls = Function.update supervisor.calls id (some next))
    (hentry : ∀ runtime, after.Up runtime → supervisor.entry = some runtime → after.entry = some runtime)
    (hwatched : ∀ id runtime, after.runtimes id = some runtime → runtime.incarnation = .running →
      runtime.monitor = .watching) : after.Invariant := by
  refine ⟨fun runtime hruntime => ?_, fun first second hfirst hsecond =>
    hinv.unique first second (hup first hfirst) (hup second hsecond), hwatched, fun hquiet => ?_⟩
  · obtain hmapped | ⟨call, kind, hcall⟩ := hinv.held runtime (hup runtime hruntime)
    · exact .inl (hentry runtime hruntime hmapped)
    · have hne : call ≠ id := fun hsame => hempty runtime ⟨kind, hsame ▸ hcall⟩
      exact .inr ⟨call, kind, by rw [hcalls, Function.update_of_ne hne]; exact hcall⟩
  · have hnone := hquiet id
    rw [hcalls, Function.update_self] at hnone
    cases hnone

section Steps

variable {id : Nat} {kind : CallKind}

theorem holds_none_of_phase {phase : CallPhase} (hcall : supervisor.calls id = some ⟨kind, phase⟩)
    (hphase : ∀ runtime, phase ≠ .spawned runtime) (runtime : Nat) : ¬ supervisor.Holds id runtime := by
  rintro ⟨other, hother⟩
  rw [hcall] at hother
  cases hother
  exact hphase runtime rfl

theorem Invariant.call (hinv : supervisor.Invariant) (hstep : supervisor.callStarted id kind = some after) :
    after.Invariant := by
  unfold callStarted at hstep
  split_ifs at hstep with hsome
  cases hstep
  have hnone : supervisor.calls id = none := Option.not_isSome_iff_eq_none.1 hsome
  refine hinv.moveCall (fun runtime hholds => ?_) (fun runtime hup => ?_) rfl (fun _ _ hentry => hentry) hinv.watched
  · obtain ⟨other, hother⟩ := hholds
    rw [hnone] at hother
    cases hother
  · obtain ⟨managed, hmanaged, hmonitor, hcancelled⟩ := hup
    obtain ⟨hroot, hfree⟩ := Bool.or_eq_false_iff.1 hcancelled
    exact ⟨managed, hmanaged, hmonitor, Bool.or_eq_false_iff.2 ⟨(Bool.or_eq_false_iff.1 hroot).1, hfree⟩⟩

theorem Invariant.stop_account (hinv : supervisor.Invariant) (hcall : supervisor.calls id = some ⟨kind, .begun⟩) :
    (supervisor.stop_account id kind).Invariant := by
  have hempty := holds_none_of_phase hcall (fun _ hphase => nomatch hphase)
  cases hentry : supervisor.entry with
  | none =>
    simp only [AccountSupervisor.stop_account, hentry]
    exact hinv.moveCall hempty (fun _ hup => hup) rfl (fun _ _ hsome => hsome) hinv.watched
  | some entry =>
    cases hruntime : supervisor.runtimes entry with
    | none =>
      simp only [AccountSupervisor.stop_account, hentry, hruntime]
      refine hinv.moveCall hempty (fun _ hup => hup) rfl (fun runtime hup hsome => ?_) hinv.watched
      obtain ⟨managed, hmanaged, -⟩ := hup
      rw [hentry] at hsome
      cases hsome
      exact absurd (hruntime.symm.trans hmanaged) (Option.some_ne_none managed).symm
    | some runtime =>
      simp only [AccountSupervisor.stop_account, hentry, hruntime]
      have hup : ∀ other, (supervisor.setRuntime entry { runtime with cancel := true }).Up other →
          supervisor.Up other := fun other =>
        up_setRuntime hruntime (fun hcancel => nomatch hcancel) fun hmonitor => hmonitor
      have hwatched : ∀ other managed,
          (supervisor.setRuntime entry { runtime with cancel := true }).runtimes other = some managed →
          managed.incarnation = .running → managed.monitor = .watching :=
        watched_setRuntime hinv (hinv.watched entry runtime hruntime)
      refine hinv.moveCall hempty hup rfl (fun other hother hsome => ?_) hwatched
      -- what the map held is cancelled
      rw [hentry] at hsome
      cases hsome
      obtain ⟨managed, hmanaged, -, hcancelled⟩ := hother
      have hcancel : (supervisor.setRuntime entry { runtime with cancel := true }).runtimes entry = some managed :=
        hmanaged
      rw [runtimes_setRuntime_self] at hcancel
      cases hcancel
      exact nomatch (Bool.or_eq_false_iff.1 hcancelled).2

theorem Invariant.escalate {runtime : Nat} (hinv : supervisor.Invariant)
    (hcall : supervisor.calls id = some ⟨kind, .joining runtime⟩) : (supervisor.escalate id kind runtime).Invariant := by
  have hempty := holds_none_of_phase hcall (fun _ hphase => nomatch hphase)
  unfold AccountSupervisor.escalate
  cases hruntime : supervisor.runtimes runtime with
  | none => exact hinv.moveCall hempty (fun _ hup => hup) rfl (fun _ _ hsome => hsome) hinv.watched
  | some managed =>
    refine hinv.moveCall hempty (fun other => up_setRuntime hruntime (fun hcancel => hcancel) ?_) rfl
      (fun _ _ hsome => hsome) (watched_setRuntime hinv ?_)
    · exact fun hmonitor => absurd rfl hmonitor
    · dsimp only
      split_ifs with hrunning
      · exact fun haborted => nomatch haborted
      · exact fun hsame => absurd hsame hrunning

theorem Invariant.spawn (hinv : supervisor.Invariant)
    (hdown : ∀ runtime, supervisor.entry = some runtime ∨ (∃ other, supervisor.Holds other runtime) →
      ¬ supervisor.Up runtime) : (supervisor.spawn id kind).Invariant := by
  have hnone : ∀ runtime, ¬ supervisor.Up runtime := fun runtime hup => hdown runtime (hinv.held runtime hup) hup
  have hup : ∀ runtime, (supervisor.spawn id kind).Up runtime → runtime = supervisor.count := by
    rintro runtime ⟨managed, hmanaged, hmonitor, hcancelled⟩
    by_contra hne
    refine hnone runtime ⟨managed, ?_, hmonitor, hcancelled⟩
    rwa [← runtimes_setRuntime_of_ne supervisor hne ⟨false, .watching, 0, .running⟩]
  refine ⟨fun runtime hruntime => .inr ⟨id, kind, ?_⟩, fun first second hfirst hsecond =>
    (hup first hfirst).trans (hup second hsecond).symm, watched_setRuntime hinv fun _ => rfl, fun hquiet => ?_⟩
  · rw [hup runtime hruntime]
    exact Function.update_self _ _ _
  · have hidle := hquiet id
    exact absurd (hidle.symm.trans (Function.update_self _ _ _)) (Option.some_ne_none _).symm

/-- A call that holds nothing up returns. -/
theorem Invariant.returned (hinv : supervisor.Invariant) (hholds : ∀ runtime, supervisor.Holds id runtime →
      after.Up runtime → after.entry = some runtime)
    (hup : ∀ runtime, after.Up runtime → supervisor.Up runtime)
    (hcalls : after.calls = Function.update supervisor.calls id none)
    (hentry : ∀ runtime, after.Up runtime → supervisor.entry = some runtime → after.entry = some runtime)
    (hwatched : after.runtimes = supervisor.runtimes)
    (hquiet : (∀ call, after.calls call = none) → ∀ kind, after.last = some kind → kind.starts = false →
      ∀ runtime, ¬ after.Up runtime) : after.Invariant := by
  refine ⟨fun runtime hruntime => ?_, fun first second hfirst hsecond =>
    hinv.unique first second (hup first hfirst) (hup second hsecond), hwatched ▸ hinv.watched, hquiet⟩
  obtain hmapped | ⟨call, kind, hcall⟩ := hinv.held runtime (hup runtime hruntime)
  · exact .inl (hentry runtime hruntime hmapped)
  · by_cases hsame : call = id
    · subst hsame
      exact .inl (hholds runtime ⟨kind, hcall⟩ hruntime)
    · exact .inr ⟨call, kind, by rw [hcalls, Function.update_of_ne hsame]; exact hcall⟩

theorem Invariant.proceed (hinv : supervisor.Invariant) (hcall : supervisor.calls id = some ⟨kind, .stopped⟩)
    (horderly : supervisor.Orderly (.proceed id)) : (supervisor.proceed id kind).Invariant := by
  have horderly := horderly kind hcall
  unfold AccountSupervisor.proceed
  split_ifs at horderly ⊢ with hstarts
  · exact hinv.spawn horderly
  · refine hinv.returned (fun runtime hholds => ?_) (fun _ hup => hup) rfl (fun _ _ hentry => hentry) rfl ?_
    · exact absurd hholds (holds_none_of_phase hcall (fun _ hphase => nomatch hphase) runtime)
    · intro hquiet last hlast hkind runtime hup
      have hothers : ∀ other, other ≠ id → supervisor.calls other = none := fun other hne => by
        rw [← hquiet other]
        exact (Function.update_of_ne hne _ _).symm
      obtain hentry | ⟨call, other, hcallHolds⟩ := hinv.held runtime hup
      · exact horderly hothers runtime hentry hup
      · by_cases hsame : call = id
        · subst hsame
          rw [hcall] at hcallHolds
          cases hcallHolds
        · rw [hothers call hsame] at hcallHolds
          cases hcallHolds

theorem Invariant.insert {runtime : Nat} (hinv : supervisor.Invariant)
    (hcall : supervisor.calls id = some ⟨kind, .spawned runtime⟩) (hstarts : kind.starts = true)
    (horderly : supervisor.Orderly (.insert id)) : (supervisor.insert id kind runtime).Invariant := by
  refine hinv.returned (fun held hholds _ => ?_) (fun _ hup => hup) rfl (fun held hup hentry => ?_) rfl ?_
  · obtain ⟨other, hother⟩ := hholds
    rw [hcall] at hother
    cases hother
    rfl
  · exact absurd hup (horderly held hentry)
  · intro _ last hlast hkind
    cases hlast
    rw [hstarts] at hkind
    cases hkind

theorem Invariant.dropped (hinv : supervisor.Invariant) (horderly : supervisor.Orderly (.dropped id)) :
    ({ supervisor.setCall id none with last := none } : AccountSupervisor).Invariant := by
  refine hinv.returned (fun held hholds hup => ?_) (fun _ hup => hup) rfl (fun _ _ hentry => hentry) rfl ?_
  · exact absurd hup (horderly held hholds)
  · rintro - last hlast
    cases hlast

end Steps

/-- Only a start holds a runtime. -/
def Starts (supervisor : AccountSupervisor) : Prop :=
  ∀ id kind runtime, supervisor.calls id = some ⟨kind, .spawned runtime⟩ → kind.starts = true

theorem Starts.setCall {id : Nat} {next : Option SupervisorCall} (hstarts : supervisor.Starts)
    (hcalls : after.calls = Function.update supervisor.calls id next)
    (hnext : ∀ kind runtime, next = some ⟨kind, .spawned runtime⟩ → kind.starts = true) : after.Starts := by
  intro other kind runtime hcall
  rw [hcalls] at hcall
  by_cases hother : other = id
  · subst hother
    rw [Function.update_self] at hcall
    exact hnext kind runtime hcall
  · rw [Function.update_of_ne hother] at hcall
    exact hstarts other kind runtime hcall

theorem calls_stop_account (supervisor : AccountSupervisor) (id : Nat) (kind : CallKind) : ∃ phase, (∀ runtime, phase ≠ .spawned runtime) ∧
    (supervisor.stop_account id kind).calls = Function.update supervisor.calls id (some ⟨kind, phase⟩) := by
  unfold AccountSupervisor.stop_account
  cases supervisor.entry with
  | none => exact ⟨.stopped, fun _ hphase => (nomatch hphase), rfl⟩
  | some entry =>
    refine ⟨.joining entry, fun _ hphase => (nomatch hphase), ?_⟩
    cases hruntime : supervisor.runtimes entry with
    | none => simp only [hruntime]; rfl
    | some runtime => simp only [hruntime]; rfl

theorem calls_escalate (id : Nat) (kind : CallKind) (runtime : Nat) :
    (supervisor.escalate id kind runtime).calls = Function.update supervisor.calls id (some ⟨kind, .stopped⟩) := by
  unfold AccountSupervisor.escalate
  cases supervisor.runtimes runtime with
  | none => rfl
  | some managed => rfl

/-- The watchdog touches nothing of a runtime but its own standing. -/
theorem observe_eq (supervisor : AccountSupervisor) (id : Nat) (runtime : ManagedRuntime) (healthy : Bool) : ∃ monitor restarts,
    supervisor.observe id runtime healthy = supervisor.setRuntime id { runtime with monitor, restarts } := by
  unfold AccountSupervisor.observe
  generalize (if healthy then 0 else runtime.restarts) + 1 = restarts
  dsimp only
  split_ifs
  · exact ⟨.returned, runtime.restarts, rfl⟩
  · exact ⟨.returned, restarts, rfl⟩
  · exact ⟨.backoff, restarts, rfl⟩

/-- What one step does: it is the step of a call, or of a runtime and its watchdog. -/
theorem step_cases {action : SupervisorStep} (hstep : supervisor.step action = some after) :
    (∃ id kind, action = .call id kind ∧ supervisor.callStarted id kind = some after) ∨
    (∃ id kind, action = .remove id ∧ supervisor.calls id = some ⟨kind, .begun⟩ ∧
      after = supervisor.stop_account id kind) ∨
    (∃ id kind runtime, action = .joined id ∧ supervisor.calls id = some ⟨kind, .joining runtime⟩ ∧
      after = supervisor.setCall id (some ⟨kind, .stopped⟩)) ∨
    (∃ id kind runtime, action = .escalated id ∧ supervisor.calls id = some ⟨kind, .joining runtime⟩ ∧
      after = supervisor.escalate id kind runtime) ∨
    (∃ id kind, action = .proceed id ∧ supervisor.calls id = some ⟨kind, .stopped⟩ ∧
      after = supervisor.proceed id kind) ∨
    (∃ id kind runtime, action = .insert id ∧ supervisor.calls id = some ⟨kind, .spawned runtime⟩ ∧
      after = supervisor.insert id kind runtime) ∨
    (∃ id, action = .dropped id ∧ after = { supervisor.setCall id none with last := none }) ∨
    ∃ id runtime changed, supervisor.runtimes id = some runtime ∧ after = supervisor.setRuntime id changed ∧
      changed.cancel = runtime.cancel ∧ (changed.monitor ≠ .returned → runtime.monitor ≠ .returned) ∧
      (supervisor.Invariant → changed.incarnation = .running → changed.monitor = .watching) := by
  cases action with
  | call id kind => exact .inl ⟨id, kind, rfl, hstep⟩
  | remove id =>
    simp only [step] at hstep
    split at hstep
    · rename_i kind hcall
      exact .inr (.inl ⟨id, kind, rfl, hcall, (Option.some.inj hstep).symm⟩)
    · cases hstep
  | joined id =>
    simp only [step] at hstep
    split at hstep
    · rename_i kind runtime hcall
      split_ifs at hstep
      exact .inr (.inr (.inl ⟨id, kind, runtime, rfl, hcall, (Option.some.inj hstep).symm⟩))
    · cases hstep
  | escalated id =>
    simp only [step] at hstep
    split at hstep
    · rename_i kind runtime hcall
      exact .inr (.inr (.inr (.inl ⟨id, kind, runtime, rfl, hcall, (Option.some.inj hstep).symm⟩)))
    · cases hstep
  | proceed id =>
    simp only [step] at hstep
    split at hstep
    · rename_i kind hcall
      exact .inr (.inr (.inr (.inr (.inl ⟨id, kind, rfl, hcall, (Option.some.inj hstep).symm⟩))))
    · cases hstep
  | insert id =>
    simp only [step] at hstep
    split at hstep
    · rename_i kind runtime hcall
      exact .inr (.inr (.inr (.inr (.inr (.inl ⟨id, kind, runtime, rfl, hcall, (Option.some.inj hstep).symm⟩)))))
    · cases hstep
  | dropped id =>
    simp only [step] at hstep
    split_ifs at hstep
    exact .inr (.inr (.inr (.inr (.inr (.inr (.inl ⟨id, rfl, (Option.some.inj hstep).symm⟩))))))
  | exit id panics =>
    simp only [step] at hstep
    split at hstep
    · rename_i cancel monitor restarts hruntime
      refine .inr (.inr (.inr (.inr (.inr (.inr (.inr ⟨id, _, _, hruntime, (Option.some.inj hstep).symm, rfl,
        fun hmonitor => hmonitor, fun _ hrunning => ?_⟩))))))
      cases panics <;> cases hrunning
    · cases hstep
  | observe id healthy =>
    simp only [step] at hstep
    split at hstep
    · rename_i cancel restarts incarnation hruntime
      split_ifs at hstep with hrunning
      have hwatching : Monitor.watching ≠ Monitor.returned := fun hsame => nomatch hsame
      obtain ⟨monitor, count, hobserve⟩ := observe_eq supervisor id
        ⟨cancel, .watching, restarts, incarnation⟩ healthy
      exact .inr (.inr (.inr (.inr (.inr (.inr (.inr ⟨id, _, _, hruntime,
        (Option.some.inj hstep).symm.trans hobserve, rfl, fun _ => hwatching, fun _ hsame => absurd hsame hrunning⟩))))))
    · cases hstep
  | respawn id =>
    simp only [step] at hstep
    split at hstep
    · rename_i cancel restarts incarnation hruntime
      exact .inr (.inr (.inr (.inr (.inr (.inr (.inr ⟨id, _, _, hruntime, (Option.some.inj hstep).symm, rfl,
        fun _ hsame => (nomatch hsame), fun _ _ => rfl⟩))))))
    · cases hstep
  | give_up id =>
    simp only [step] at hstep
    split at hstep
    · rename_i cancel restarts incarnation hruntime
      split_ifs at hstep
      refine .inr (.inr (.inr (.inr (.inr (.inr (.inr ⟨id, _, _, hruntime, (Option.some.inj hstep).symm, rfl,
        fun _ hsame => (nomatch hsame), fun hinv hrunning => ?_⟩))))))
      exact (nomatch hinv.watched id _ hruntime hrunning)
    · cases hstep

theorem Starts.step {action : SupervisorStep} (hstarts : supervisor.Starts)
    (hstep : supervisor.step action = some after) : after.Starts := by
  have hnever : ∀ kind phase, (∀ runtime, phase ≠ CallPhase.spawned runtime) → ∀ other runtime,
      some (SupervisorCall.mk kind phase) = some ⟨other, .spawned runtime⟩ → other.starts = true := by
    intro kind phase hphase other runtime hsame
    cases hsame
    exact absurd rfl (hphase runtime)
  obtain ⟨id, kind, -, hcall⟩ | ⟨id, kind, -, -, rfl⟩ | ⟨id, kind, runtime, -, -, rfl⟩ | ⟨id, kind, runtime, -, -, rfl⟩ |
    ⟨id, kind, -, -, rfl⟩ | ⟨id, kind, runtime, -, -, rfl⟩ | ⟨id, -, rfl⟩ |
    ⟨id, runtime, changed, -, rfl, -⟩ := step_cases hstep
  · unfold callStarted at hcall
    split_ifs at hcall
    cases hcall
    exact hstarts.setCall rfl (hnever kind .begun fun _ hphase => nomatch hphase)
  · obtain ⟨phase, hphase, hcalls⟩ := calls_stop_account supervisor id kind
    exact hstarts.setCall hcalls (hnever kind phase hphase)
  · exact hstarts.setCall rfl (hnever kind .stopped fun _ hphase => nomatch hphase)
  · exact hstarts.setCall (calls_escalate id kind runtime) (hnever kind .stopped fun _ hphase => nomatch hphase)
  · unfold AccountSupervisor.proceed
    split_ifs with hkind
    · refine hstarts.setCall rfl fun other runtime hsame => ?_
      cases hsame
      exact hkind
    · exact hstarts.setCall rfl fun _ _ hsame => nomatch hsame
  · exact hstarts.setCall rfl fun _ _ hsame => nomatch hsame
  · exact hstarts.setCall rfl fun _ _ hsame => nomatch hsame
  · exact hstarts

theorem Invariant.step {action : SupervisorStep} (hinv : supervisor.Invariant) (hstarts : supervisor.Starts)
    (horderly : supervisor.Orderly action) (hstep : supervisor.step action = some after) : after.Invariant := by
  obtain ⟨id, kind, rfl, hcall⟩ | ⟨id, kind, rfl, hcall, rfl⟩ | ⟨id, kind, runtime, rfl, hcall, rfl⟩ |
    ⟨id, kind, runtime, rfl, hcall, rfl⟩ | ⟨id, kind, rfl, hcall, rfl⟩ | ⟨id, kind, runtime, rfl, hcall, rfl⟩ |
    ⟨id, rfl, rfl⟩ | ⟨id, runtime, changed, hruntime, rfl, hcancel, hmonitor, hchanged⟩ := step_cases hstep
  · exact hinv.call hcall
  · exact hinv.stop_account hcall
  · exact hinv.moveCall (holds_none_of_phase hcall fun _ hphase => nomatch hphase) (fun _ hup => hup) rfl
      (fun _ _ hentry => hentry) hinv.watched
  · exact hinv.escalate hcall
  · exact hinv.proceed hcall horderly
  · exact hinv.insert hcall (hstarts id kind runtime hcall) horderly
  · exact hinv.dropped horderly
  · exact hinv.setRuntime hruntime (fun hfree => hcancel ▸ hfree) hmonitor (hchanged hinv)

theorem invariant_of_reachable (hreach : supervision.Reachable Orderly supervisor) :
    supervisor.Invariant ∧ supervisor.Starts := by
  refine @Reachable.invariant _ _ supervision Orderly (fun reached => reached.Invariant ∧ reached.Starts) ?_ ?_ _ hreach
  · rintro state rfl
    exact ⟨invariant_new, fun _ _ _ hcall => nomatch hcall⟩
  · rintro state action next ⟨hinv, hstarts⟩ horderly hstep
    exact ⟨hinv.step hstarts horderly hstep, hstarts.step hstep⟩

end posthaste.supervisor.AccountSupervisor
