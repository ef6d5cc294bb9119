import Posthaste.Library.Future
import Posthaste.Supervisor.SyncTriggers

open TransitionSystem

namespace posthaste.supervisor

/-- What the trigger was accepted by: its claim, or its turn into the pending follow-up. -/
def TriggerEntry.IsAccepted (entry : TriggerEntry) : Prop := ∃ call, entry = .accepted call

/-- A phase that ends in a new cycle, or in the reset of an expired arm. -/
def RuntimePhase.Away : RuntimePhase → Prop
  | .selecting | .arm | .cycle _ => False
  | .down | .fresh | .admitted _ | .expired => True

namespace SyncRuntime

variable {runtime after : SyncRuntime} {id : Nat}

/-- A call has claimed a cycle and is about to send its slot to the live incarnation. -/
def ClaimInFlight (runtime : SyncRuntime) : Prop :=
  ∃ id call, runtime.calls id = some call ∧ call.claimed = true ∧ runtime.open_channel call.incarnation = true

/-- The channel holds a command, the slot of a claimed cycle included. -/
def CommandDue (runtime : SyncRuntime) : Prop := runtime.commands ≠ [] ∨ runtime.ClaimInFlight

def Caught (runtime : SyncRuntime) : Prop := Answered TriggerEntry.IsAccepted (· = .began) runtime.log

/-- Idle in the select loop on an empty channel, the runtime owes nobody a cycle. -/
def NoTriggerLost (runtime : SyncRuntime) : Prop :=
  runtime.phase = .selecting → ¬ runtime.CommandDue →
    runtime.Caught ∧ runtime.inner.active = false ∧ runtime.inner.pending = none

/-- No expired arm resets the coalescer over a trigger that no cycle has followed,
    and no trigger claims the cycle for the channel of an ended incarnation, unless
    a further cycle is due in any case. -/
def Kept (runtime : SyncRuntime) : RuntimeStep → Prop
  | .claim id => ∀ call, runtime.calls id = some call → runtime.inner.active = false →
    runtime.open_channel call.incarnation = false → runtime.phase.Away ∨ runtime.CommandDue
  | .record_arm_timeout => runtime.Caught ∨ runtime.CommandDue
  | _ => True

structure TriggerInvariant (runtime : SyncRuntime) : Prop where
  pending : runtime.inner.pending ≠ none → runtime.inner.active = true
  active : runtime.inner.active = true →
    runtime.phase.Away ∨ (∃ request, runtime.phase = .cycle request) ∨ runtime.CommandDue
  caught : runtime.Caught ∨ runtime.phase.Away ∨
    ((∃ request, runtime.phase = .cycle request) ∧ runtime.inner.pending ≠ none) ∨ runtime.CommandDue

theorem TriggerInvariant.noTriggerLost (hinv : runtime.TriggerInvariant) : runtime.NoTriggerLost := by
  intro hphase hdue
  have haway : ¬ runtime.phase.Away := by
    rw [hphase]
    exact fun hfalse => hfalse
  have hcycle : ¬ ∃ request, runtime.phase = .cycle request := by
    rw [hphase]
    rintro ⟨request, hrequest⟩
    cases hrequest
  have hinactive : runtime.inner.active = false := by
    by_contra hactive
    obtain hin | hin | hin := hinv.active (Bool.of_not_eq_false hactive)
    · exact haway hin
    · exact hcycle hin
    · exact hdue hin
  refine ⟨?_, hinactive, ?_⟩
  · obtain hcaught | hin | ⟨hin, -⟩ | hin := hinv.caught
    · exact hcaught
    · exact absurd hin haway
    · exact absurd hin hcycle
    · exact absurd hin hdue
  · by_contra hpending
    rw [hinv.pending hpending] at hinactive
    cases hinactive

theorem open_channel_of_up (hup : runtime.phase ≠ .down) (incarnation : Nat) :
    runtime.open_channel incarnation = decide (incarnation = runtime.incarnation) := by
  unfold open_channel
  split
  · exact absurd ‹_› hup
  · rfl

theorem up_of_open {incarnation : Nat} (hopen : runtime.open_channel incarnation = true) : runtime.phase ≠ .down := by
  intro hdown
  rw [open_channel, hdown] at hopen
  cases hopen

/-- A claim in flight stays in flight while its call and its incarnation do. -/
theorem CommandDue.mono (hdue : runtime.CommandDue) (hcommands : runtime.commands ≠ [] → after.CommandDue)
    (hup : after.phase ≠ .down) (hincarnation : after.incarnation = runtime.incarnation)
    (hcalls : ∀ other call, runtime.calls other = some call → call.claimed = true → after.CommandDue ∨
      after.calls other = some call) : after.CommandDue := by
  obtain hsome | ⟨other, call, hcall, hclaimed, hopen⟩ := hdue
  · exact hcommands hsome
  · obtain hin | hkept := hcalls other call hcall hclaimed
    · exact hin
    · refine .inr ⟨other, call, hkept, hclaimed, ?_⟩
      rw [open_channel_of_up (up_of_open hopen)] at hopen
      rw [open_channel_of_up hup, hincarnation]
      exact hopen

theorem triggerInvariant_new : new.TriggerInvariant where
  pending hpending := absurd rfl hpending
  active hactive := nomatch hactive
  caught := .inl .nil

/-- A step that leaves the coalescer, the log and the phase as they are. -/
theorem TriggerInvariant.of_same (hinv : runtime.TriggerInvariant) (hinner : after.inner = runtime.inner)
    (hlog : after.log = runtime.log) (hphase : after.phase = runtime.phase)
    (hdue : runtime.CommandDue → after.CommandDue) : after.TriggerInvariant where
  pending := hinner ▸ hinv.pending
  active hactive := by
    rw [hphase]
    exact (hinv.active (hinner ▸ hactive)).imp_right (Or.imp_right hdue)
  caught := by
    rw [hphase, hinner, Caught, hlog]
    exact hinv.caught.imp_right (Or.imp_right (Or.imp_right hdue))

/-- A step into a phase from which a new cycle, or a reset, follows. -/
theorem TriggerInvariant.of_away (haway : after.phase.Away)
    (hpending : after.inner.pending ≠ none → after.inner.active = true) : after.TriggerInvariant where
  pending := hpending
  active _ := .inl haway
  caught := .inr (.inl haway)

theorem TriggerInvariant.of_due (hdue : after.CommandDue)
    (hpending : after.inner.pending ≠ none → after.inner.active = true) : after.TriggerInvariant where
  pending := hpending
  active _ := .inr (.inr hdue)
  caught := .inr (.inr (.inr hdue))

/-- The loop goes into an arm, or comes back from one that drove no cycle. -/
theorem TriggerInvariant.of_waiting (hinv : runtime.TriggerInvariant)
    (hbefore : runtime.phase = .selecting ∨ runtime.phase = .arm) (hinner : after.inner = runtime.inner)
    (hlog : after.log = runtime.log) (hdue : runtime.CommandDue → after.CommandDue) : after.TriggerInvariant := by
  have haway : ¬ runtime.phase.Away := by
    obtain hphase | hphase := hbefore <;> rw [hphase] <;> exact fun hfalse => hfalse
  have hcycle : ¬ ∃ request, runtime.phase = .cycle request := by
    rintro ⟨request, hrequest⟩
    rw [hrequest] at hbefore
    obtain hphase | hphase := hbefore <;> cases hphase
  refine ⟨hinner ▸ hinv.pending, fun hactive => ?_, ?_⟩
  · obtain hin | hin | hin := hinv.active (hinner ▸ hactive)
    · exact absurd hin haway
    · exact absurd hin hcycle
    · exact .inr (.inr (hdue hin))
  · rw [Caught, hlog]
    obtain hcaught | hin | ⟨hin, -⟩ | hin := hinv.caught
    · exact .inl hcaught
    · exact absurd hin haway
    · exact absurd hin hcycle
    · exact .inr (.inr (.inr (hdue hin)))

theorem TriggerInvariant.reserve {trigger : SyncTrigger} (hinv : runtime.TriggerInvariant)
    (hstep : runtime.reserve id trigger = some after) : after.TriggerInvariant := by
  unfold SyncRuntime.reserve at hstep
  split_ifs at hstep with hfree
  cases hstep
  simp only [Bool.and_eq_true, decide_eq_true_eq] at hfree
  obtain ⟨⟨hnone, hopen⟩, -⟩ := hfree
  refine hinv.of_same rfl rfl rfl fun hdue => hdue.mono .inl (up_of_open hopen) rfl fun other call hcall _ => ?_
  have hne : other ≠ id := by
    rintro rfl
    rw [hcall] at hnone
    cases hnone
  exact .inr ((Function.update_of_ne hne _ _).trans hcall)

theorem TriggerInvariant.claim {call : TriggerCall} (hinv : runtime.TriggerInvariant)
    (hcall : runtime.calls id = some call) (hunclaimed : call.claimed = false) (hkept : runtime.Kept (.claim id)) :
    (runtime.claim id call).TriggerInvariant := by
  have hothers : ∀ next other held, runtime.calls other = some held → held.claimed = true →
      Function.update runtime.calls id next other = some held := by
    intro next other held hheld hclaimed
    have hne : other ≠ id := by
      rintro rfl
      rw [hcall] at hheld
      cases hheld
      rw [hunclaimed] at hclaimed
      cases hclaimed
    exact (Function.update_of_ne hne _ _).trans hheld
  have hdue : ∀ changed : SyncRuntime, ¬ runtime.phase.Away → changed.phase = runtime.phase →
      changed.incarnation = runtime.incarnation → changed.commands = runtime.commands →
      (∃ next, changed.calls = Function.update runtime.calls id next) → runtime.CommandDue → changed.CommandDue := by
    rintro changed haway hphase hincarnation hcommands ⟨next, hcalls⟩ hdue
    refine hdue.mono (fun hsome => .inl (hcommands ▸ hsome)) ?_ hincarnation fun other held hheld hclaimed => ?_
    · rw [hphase]
      intro hdown
      rw [hdown] at haway
      exact haway trivial
    · rw [hcalls]
      exact .inr (hothers next other held hheld hclaimed)
  cases hactive : runtime.inner.active with
  | true =>
    -- coalesced: what keeps the coalescer active drives the follow-up
    have hclaim : runtime.inner.claim_or_coalesce call.trigger =
        (true, { runtime.inner with pending := some call.trigger }) := if_pos hactive
    simp only [SyncRuntime.claim, hclaim]
    by_cases haway : runtime.phase.Away
    · exact .of_away haway fun _ => hactive
    · obtain hin | hcycle | hin := hinv.active hactive
      · exact absurd hin haway
      · exact ⟨fun _ => hactive, fun _ => .inr (.inl hcycle), .inr (.inr (.inl ⟨hcycle, fun hnone => nomatch hnone⟩))⟩
      · exact .of_due (hdue _ haway rfl rfl rfl ⟨_, rfl⟩ hin) fun _ => hactive
  | false =>
    have hclaim : runtime.inner.claim_or_coalesce call.trigger = (false, { runtime.inner with active := true }) :=
      if_neg (hactive ▸ Bool.false_ne_true)
    simp only [SyncRuntime.claim, hclaim]
    cases hopen : runtime.open_channel call.incarnation with
    | true => exact .of_due (.inr ⟨id, { call with claimed := true }, Function.update_self _ _ _, rfl, hopen⟩) fun _ => rfl
    | false =>
      by_cases haway : runtime.phase.Away
      · exact .of_away haway fun _ => rfl
      · have hin := (hkept call hcall hactive hopen).resolve_left haway
        exact .of_due (hdue _ haway rfl rfl rfl ⟨_, rfl⟩ hin) fun _ => rfl

theorem TriggerInvariant.send {call : TriggerCall} (hinv : runtime.TriggerInvariant)
    (hcall : runtime.calls id = some call) : (runtime.send id call).TriggerInvariant := by
  unfold SyncRuntime.send
  split_ifs with hopen
  · exact .of_due (.inl (List.append_ne_nil_of_right_ne_nil _ (List.cons_ne_nil _ _))) hinv.pending
  · by_cases hdown : runtime.phase = .down
    · exact .of_away (by rw [show (runtime.setCall id none).phase = runtime.phase from rfl, hdown]; trivial) hinv.pending
    · refine hinv.of_same rfl rfl rfl fun hdue => ?_
      obtain hsome | ⟨other, held, hheld, hclaimed, hheldOpen⟩ := hdue
      · exact .inl hsome
      · have hne : other ≠ id := by
          rintro rfl
          rw [hcall] at hheld
          cases hheld
          exact hopen hheldOpen
        exact .inr ⟨other, held, (Function.update_of_ne hne _ _).trans hheld, hclaimed, hheldOpen⟩

theorem TriggerInvariant.sync_account {mode : SyncMode} (hinv : runtime.TriggerInvariant)
    (hstep : runtime.sync_account_with_mode mode = some after) : after.TriggerInvariant := by
  unfold sync_account_with_mode at hstep
  split_ifs at hstep
  cases hstep
  exact .of_due (.inl (List.append_ne_nil_of_right_ne_nil _ (List.cons_ne_nil _ _))) hinv.pending

theorem TriggerInvariant.finish_cycle (hinv : runtime.TriggerInvariant) {request : SyncTriggerRequest}
    (hphase : runtime.phase = .cycle request) : runtime.finish_cycle.TriggerInvariant := by
  cases hpending : runtime.inner.pending with
  | some trigger =>
    have hfinish : runtime.inner.finish_cycle_take_pending = (some trigger, { runtime.inner with pending := none }) := by
      rw [SyncCoalesceState.finish_cycle_take_pending, hpending]
    simp only [SyncRuntime.finish_cycle, hfinish]
    exact .of_away trivial fun hsome => absurd rfl hsome
  | none =>
    have hfinish : runtime.inner.finish_cycle_take_pending = (none, { runtime.inner with active := false }) := by
      simp only [SyncCoalesceState.finish_cycle_take_pending, hpending]
    simp only [SyncRuntime.finish_cycle, hfinish]
    refine ⟨fun hsome => absurd hpending hsome, fun hactive => (nomatch hactive), ?_⟩
    obtain hcaught | haway | ⟨-, hsome⟩ | hdue := hinv.caught
    · exact .inl hcaught
    · rw [hphase] at haway
      exact absurd haway fun hfalse => hfalse
    · exact absurd hpending hsome
    · exact .inr (.inr (.inr (hdue.mono .inl (fun hsame => nomatch hsame) rfl fun _ _ hcall _ => .inr hcall)))

theorem TriggerInvariant.step {action : RuntimeStep} (hinv : runtime.TriggerInvariant) (hkept : runtime.Kept action)
    (hstep : runtime.step action = some after) : after.TriggerInvariant := by
  cases action with
  | reserve id trigger => exact hinv.reserve hstep
  | claim id =>
    simp only [SyncRuntime.step] at hstep
    split at hstep
    · rename_i hcall
      cases hstep
      exact hinv.claim hcall rfl hkept
    · cases hstep
  | send id =>
    simp only [SyncRuntime.step] at hstep
    split at hstep
    · rename_i hcall
      cases hstep
      exact hinv.send hcall
    · cases hstep
  | sync_account mode => exact hinv.sync_account hstep
  | recv =>
    simp only [SyncRuntime.step] at hstep
    split at hstep
    · cases hstep
      exact .of_away trivial hinv.pending
    · cases hstep
  | tick =>
    simp only [SyncRuntime.step] at hstep
    split at hstep
    · rename_i hphase
      cases hstep
      exact hinv.of_waiting (.inl hphase) rfl rfl fun hdue =>
        hdue.mono .inl (fun hsame => nomatch hsame) rfl fun _ _ hcall _ => .inr hcall
    · cases hstep
  | drive trigger =>
    simp only [SyncRuntime.step] at hstep
    split at hstep
    · cases hstep
      exact .of_away trivial hinv.pending
    · cases hstep
  | arm_finished =>
    simp only [SyncRuntime.step] at hstep
    split at hstep
    · rename_i hphase
      cases hstep
      exact hinv.of_waiting (.inr hphase) rfl rfl fun hdue =>
        hdue.mono .inl (fun hsame => nomatch hsame) rfl fun _ _ hcall _ => .inr hcall
    · cases hstep
  | begin_cycle =>
    simp only [SyncRuntime.step] at hstep
    split at hstep
    · cases hstep
      refine ⟨fun _ => rfl, fun _ => .inr (.inl ⟨_, rfl⟩), .inl (.concat rfl ?_)⟩
      rintro ⟨call, hcall⟩
      cases hcall
    · cases hstep
  | finish_cycle =>
    simp only [SyncRuntime.step] at hstep
    split at hstep
    · rename_i request hphase
      cases hstep
      exact hinv.finish_cycle hphase
    · cases hstep
  | timeout =>
    simp only [SyncRuntime.step] at hstep
    split at hstep
    all_goals cases hstep
    all_goals exact .of_away trivial hinv.pending
  | record_arm_timeout =>
    simp only [SyncRuntime.step] at hstep
    split at hstep
    · cases hstep
      refine ⟨fun hpending => absurd rfl hpending, fun hactive => (nomatch hactive), ?_⟩
      refine hkept.imp_right fun hdue => .inr (.inr ?_)
      exact hdue.mono .inl (fun hsame => nomatch hsame) rfl fun _ _ hcall _ => .inr hcall
    · cases hstep
  | ended =>
    simp only [SyncRuntime.step] at hstep
    split at hstep
    · cases hstep
    · cases hstep
      exact .of_away trivial hinv.pending
  | respawn =>
    simp only [SyncRuntime.step] at hstep
    split at hstep
    · cases hstep
      exact .of_away trivial hinv.pending
    · cases hstep
  | startup =>
    simp only [SyncRuntime.step] at hstep
    split at hstep
    · cases hstep
      exact .of_away trivial fun hpending => absurd rfl hpending
    · cases hstep

/-- The condition on resets is exact: a reset that does not meet it loses a trigger. -/
theorem not_noTriggerLost_of_reset (hkept : ¬ runtime.Kept .record_arm_timeout)
    (hstep : runtime.step .record_arm_timeout = some after) : ¬ after.NoTriggerLost := by
  simp only [SyncRuntime.step] at hstep
  split at hstep
  · rename_i hphase
    cases hstep
    obtain ⟨hcaught, hdue⟩ := not_or.1 hkept
    intro hnone
    refine hcaught (hnone rfl fun hafter => hdue ?_).1
    refine hafter.mono .inl ?_ rfl fun _ _ hcall _ => .inr hcall
    rw [hphase]
    exact fun hsame => nomatch hsame
  · cases hstep

end SyncRuntime

end posthaste.supervisor
