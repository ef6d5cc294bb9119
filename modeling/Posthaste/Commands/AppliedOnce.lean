import Posthaste.Commands.OutcomeCells

open posthaste.model posthaste.store TransitionSystem

namespace posthaste.commands.ApiState

variable {state after : ApiState} {request other : Request} {task : Nat}

/-- No send was enqueued twice for its id, and no other command of this run applied twice. -/
structure AtMostOnce (state : ApiState) : Prop where
  sends : state.enqueued.Nodup
  others : state.applied.Nodup

/-- A replay finds what it is to find: for a command that was applied the
    recorded outcome, for a send that was enqueued its stored operation. -/
def FindsReplay (state : ApiState) : ApiStep → Prop
  | .lock task => ∀ request, state.standing task .waiting = some request →
    request.envelope.command.isSend = false → request.id ∈ state.applied → (state.outcome request.id).isSome
  | .lookup task => ∀ request, state.standing task .looking = some request →
    request.id ∈ state.enqueued → (state.outbox.get_operation request.id).isSome
  | _ => True

/-- A request of the command would apply it for the first time. -/
def First (state : ApiState) (request : Request) : Prop :=
  if request.envelope.command.isSend then request.id ∉ state.enqueued else request.id ∉ state.applied

structure Invariant (state : ApiState) : Prop where
  once : state.AtMostOnce
  exclusive : ∀ request ∈ state.requests.rows, ∀ other ∈ state.requests.rows, request.id = other.id →
    request.phase ≠ .waiting → other.phase ≠ .waiting → request.task = other.task
  looking : ∀ request ∈ state.requests.rows, request.phase = .looking → request.envelope.command.isSend = true
  applying : ∀ request ∈ state.requests.rows, request.phase = .applying → state.First request

theorem standing_eq_some {phase : Phase} (hstanding : state.standing task phase = some request) :
    request ∈ state.requests.rows ∧ request.task = task ∧ request.phase = phase := by
  obtain ⟨hfind, hphase⟩ := Option.filter_eq_some_iff.1 hstanding
  exact ⟨Table.mem_of_find hfind, Table.find_key hfind, eq_of_beq hphase⟩

theorem invariant_empty : empty.Invariant where
  once := ⟨List.nodup_nil, List.nodup_nil⟩
  exclusive _ hmem := absurd hmem List.not_mem_nil
  looking _ hmem := absurd hmem List.not_mem_nil
  applying _ hmem := absurd hmem List.not_mem_nil

/-- What leaves the ids counted alone may take requests away and add waiting ones. -/
theorem Invariant.fewer (hinv : state.Invariant) (henqueued : after.enqueued = state.enqueued)
    (happlied : after.applied = state.applied)
    (hrequests : ∀ request ∈ after.requests.rows, request ∈ state.requests.rows ∨ request.phase = .waiting) :
    after.Invariant := by
  have hheld : ∀ request ∈ after.requests.rows, request.phase ≠ .waiting → request ∈ state.requests.rows :=
    fun request hmem hphase => (hrequests request hmem).resolve_right hphase
  refine ⟨⟨henqueued ▸ hinv.once.sends, happlied ▸ hinv.once.others⟩, ?_, ?_, ?_⟩
  · intro request hrequest other hother hid hphase hotherPhase
    exact hinv.exclusive request (hheld request hrequest hphase) other (hheld other hother hotherPhase) hid hphase
      hotherPhase
  · intro request hrequest hphase
    exact hinv.looking request (hheld request hrequest (by rw [hphase]; decide)) hphase
  · intro request hrequest hphase
    have hfirst := hinv.applying request (hheld request hrequest (by rw [hphase]; decide)) hphase
    unfold First
    rw [henqueued, happlied]
    exact hfirst

theorem Invariant.without (hinv : state.Invariant) (task : Nat) (henqueued : after.enqueued = state.enqueued)
    (happlied : after.applied = state.applied) (hrequests : after.requests = state.without task) :
    after.Invariant := by
  refine hinv.fewer henqueued happlied fun request hmem => .inl ?_
  rw [hrequests] at hmem
  exact (Table.mem_retain.1 hmem).1

/-- A request moves on while it alone is past waiting for its id. -/
theorem Invariant.advance {phase : Phase} (hinv : state.Invariant)
    (halone : ∀ other ∈ state.requests.rows, other.id = request.id → other.phase ≠ .waiting →
      other.task = request.task)
    (hrequests : after.requests = (state.advance request phase).requests) (honce : after.AtMostOnce)
    (hlooking : phase = .looking → request.envelope.command.isSend = true)
    (happlying : phase = .applying → after.First request)
    (hfirst : ∀ other ∈ state.requests.rows, other.task ≠ request.task → other.phase = .applying →
      after.First other) : after.Invariant := by
  have hmem : ∀ other ∈ after.requests.rows, other = { request with phase } ∨
      other ∈ state.requests.rows ∧ other.task ≠ request.task := by
    intro other hother
    rw [hrequests] at hother
    exact Table.mem_put.1 hother
  refine ⟨honce, ?_, ?_, ?_⟩
  · intro first hfirstMem second hsecondMem hid hfirstPhase hsecondPhase
    obtain rfl | ⟨hfirstMem, hfirstTask⟩ := hmem first hfirstMem
    · obtain rfl | ⟨hsecondMem, hsecondTask⟩ := hmem second hsecondMem
      · rfl
      · exact (halone second hsecondMem hid.symm hsecondPhase).symm
    · obtain rfl | ⟨hsecondMem, hsecondTask⟩ := hmem second hsecondMem
      · exact halone first hfirstMem hid hfirstPhase
      · exact hinv.exclusive first hfirstMem second hsecondMem hid hfirstPhase hsecondPhase
  · intro other hother hphase
    obtain rfl | ⟨hother, -⟩ := hmem other hother
    · exact hlooking hphase
    · exact hinv.looking other hother hphase
  · intro other hother hphase
    obtain rfl | ⟨hother, htask⟩ := hmem other hother
    · exact happlying hphase
    · exact hfirst other hother htask hphase

/-- The holder of the lock is alone past waiting. -/
theorem Invariant.alone (hinv : state.Invariant) (hrequest : request ∈ state.requests.rows)
    (hphase : request.phase ≠ .waiting) : ∀ other ∈ state.requests.rows, other.id = request.id →
      other.phase ≠ .waiting → other.task = request.task :=
  fun other hother hid hotherPhase => hinv.exclusive other hother request hrequest hid hotherPhase hphase

theorem Invariant.lock (hinv : state.Invariant) (hstanding : state.standing task .waiting = some request)
    (hfinds : state.FindsReplay (.lock task)) (hlock : state.lock request = some after) : after.Invariant := by
  obtain ⟨hmem, htask, -⟩ := standing_eq_some hstanding
  by_cases hlocked : state.locked request.id = true
  · rw [ApiState.lock, if_pos hlocked] at hlock
    cases hlock
  rw [ApiState.lock, if_neg hlocked] at hlock
  have halone : ∀ other ∈ state.requests.rows, other.id = request.id → other.phase ≠ .waiting →
      other.task = request.task := by
    intro other hother hid hphase
    refine absurd (List.any_eq_true.2 ⟨other, hother, ?_⟩) hlocked
    simp [hid, hphase]
  have honce : ∀ phase, (state.advance request phase).AtMostOnce := fun _ => ⟨hinv.once.sends, hinv.once.others⟩
  cases houtcome : state.outcome request.id with
  | some generation =>
    rw [houtcome] at hlock
    cases hlock
    exact hinv.without request.task rfl rfl rfl
  | none =>
    rw [houtcome] at hlock
    cases hlock
    cases hsend : request.envelope.command.isSend with
    | true =>
      exact hinv.advance halone rfl (honce _) (fun _ => hsend) (fun happlying => nomatch happlying)
        fun other hother _ hphase => hinv.applying other hother hphase
    | false =>
      refine hinv.advance halone rfl (honce _) (fun hlooking => nomatch hlooking) (fun _ => ?_)
        fun other hother _ hphase => hinv.applying other hother hphase
      unfold First
      rw [hsend]
      intro happlied
      have hfound := hfinds request hstanding hsend happlied
      rw [houtcome] at hfound
      cases hfound

theorem Invariant.lookup (hinv : state.Invariant) (hstanding : state.standing task .looking = some request)
    (hfinds : state.FindsReplay (.lookup task)) : (state.replay_durable_outcome request).Invariant := by
  obtain ⟨hmem, htask, hphase⟩ := standing_eq_some hstanding
  unfold replay_durable_outcome
  cases hget : state.outbox.get_operation request.id with
  | some operation => exact hinv.without request.task rfl rfl rfl
  | none =>
    refine hinv.advance (hinv.alone hmem (by rw [hphase]; decide)) rfl ⟨hinv.once.sends, hinv.once.others⟩
      (fun hlooking => nomatch hlooking) (fun _ => ?_)
      fun other hother _ hotherPhase => hinv.applying other hother hotherPhase
    unfold First
    rw [hinv.looking request hmem hphase]
    intro henqueued
    have hfound := hfinds request hstanding henqueued
    rw [hget] at hfound
    cases hfound

theorem Invariant.commit {operation : Operation} (hinv : state.Invariant)
    (hstanding : state.standing task .applying = some request)
    (hcommit : state.commit request operation = some after) : after.Invariant := by
  obtain ⟨hmem, htask, hphase⟩ := standing_eq_some hstanding
  have halone := hinv.alone hmem (by rw [hphase]; decide)
  have hfirst := hinv.applying request hmem hphase
  -- another request in the same phase is for another id
  have hother : ∀ other ∈ state.requests.rows, other.task ≠ request.task → other.phase = .applying →
      state.First other ∧ other.id ≠ request.id := fun other hother htask hotherPhase =>
    ⟨hinv.applying other hother hotherPhase, fun hid => htask (halone other hother hid (by rw [hotherPhase]; decide))⟩
  unfold ApiState.commit at hcommit
  cases hcommand : request.envelope.command with
  | Send sent =>
    rw [hcommand] at hcommit
    dsimp only at hcommit
    split_ifs at hcommit with hoperation hpresent
    · cases hcommit
      exact hinv.advance halone rfl ⟨hinv.once.sends, hinv.once.others⟩ (fun hlooking => nomatch hlooking)
        (fun happlying => nomatch happlying) fun other hmem htask hphase => (hother other hmem htask hphase).1
    · cases hcommit
      unfold First at hfirst
      rw [hcommand] at hfirst
      refine hinv.advance halone rfl ⟨List.nodup_cons.2 ⟨hfirst, hinv.once.sends⟩, hinv.once.others⟩
        (fun hlooking => nomatch hlooking) (fun happlying => nomatch happlying) fun other hmem htask hphase => ?_
      obtain ⟨hfirst, hid⟩ := hother other hmem htask hphase
      unfold First at hfirst ⊢
      split_ifs at hfirst ⊢ with hsend
      · exact fun hin => (List.mem_cons.1 hin).elim hid hfirst
      · exact hfirst
  | other intent =>
    rw [hcommand] at hcommit
    cases hcommit
    unfold First at hfirst
    rw [hcommand] at hfirst
    refine hinv.advance halone rfl ⟨hinv.once.sends, List.nodup_cons.2 ⟨hfirst, hinv.once.others⟩⟩
      (fun hlooking => nomatch hlooking) (fun happlying => nomatch happlying) fun other hmem htask hphase => ?_
    obtain ⟨hfirst, hid⟩ := hother other hmem htask hphase
    unfold First at hfirst ⊢
    split_ifs at hfirst ⊢ with hsend
    · exact hfirst
    · exact fun hin => (List.mem_cons.1 hin).elim hid hfirst

theorem Invariant.step {action : ApiStep} (hinv : state.Invariant) (hfinds : state.FindsReplay action)
    (hstep : state.step action = some after) : after.Invariant := by
  cases action with
  | arrive task envelope =>
    simp only [ApiState.step, ApiState.arrive] at hstep
    split_ifs at hstep with hblank
    · cases hstep
      exact hinv
    · cases hstep
      refine hinv.fewer rfl rfl fun request hmem => ?_
      obtain rfl | ⟨hmem, -⟩ := Table.mem_put.1 hmem
      · exact .inr rfl
      · exact .inl hmem
  | lock task =>
    obtain ⟨request, hstanding, hlock⟩ := Option.bind_eq_some_iff.1 hstep
    exact hinv.lock hstanding hfinds hlock
  | lookup task =>
    obtain ⟨request, hstanding, rfl⟩ := Option.map_eq_some_iff.1 hstep
    exact hinv.lookup hstanding hfinds
  | commit task operation =>
    obtain ⟨request, hstanding, hcommit⟩ := Option.bind_eq_some_iff.1 hstep
    exact hinv.commit hstanding hcommit
  | finish task =>
    obtain ⟨request, hstanding, rfl⟩ := Option.map_eq_some_iff.1 hstep
    exact hinv.without task rfl rfl rfl
  | gone task =>
    cases hstep
    exact hinv.without task rfl rfl rfl
  | publish =>
    cases hstep
    exact hinv.fewer rfl rfl fun _ => .inl
  | outbox write =>
    cases hstep
    exact hinv.fewer rfl rfl fun _ => .inl
  | restart =>
    cases hstep
    exact ⟨⟨hinv.once.sends, List.nodup_nil⟩, invariant_empty.exclusive, invariant_empty.looking,
      fun _ hmem => absurd hmem List.not_mem_nil⟩

theorem standing_advance (request : Request) (phase : Phase) :
    (state.advance request phase).standing request.task phase = some { request with phase } := by
  have hfind : (state.requests.put { request with phase }).find request.task = some { request with phase } :=
    Table.find_put_self state.requests { request with phase }
  unfold standing advance
  dsimp only
  rw [hfind]
  simp

/-- The operation that a send's commit stores, whatever its content. -/
def sendOperation (id : OperationId) : Operation where
  id := id
  entity := ⟨.Message, ""⟩
  kind := .Send
  payload := .null
  payload_version := 1
  state := .Pending
  attempts := 0
  last_error := none
  send_at := none
  hold_until_mono := none
  created_at := ""
  updated_at := ""

/-- A request about to apply a command that took effect before makes it take effect again. -/
theorem applying_again {task : Nat} (hstanding : state.standing task .applying = some request)
    (hremoved : request.envelope.command.isSend = true → state.outbox.get_operation request.id = none)
    (hagain : ¬ state.First request) :
    ∃ operation final, state.step (.commit task operation) = some final ∧ ¬ final.AtMostOnce := by
  unfold First at hagain
  cases hcommand : request.envelope.command with
  | Send sent =>
    rw [hcommand] at hremoved hagain
    have hcommit : state.step (.commit task (sendOperation request.id)) = some { state.advance request .applied with
        generation := state.generation + 1
        outbox := state.outbox.enqueue_operation (sendOperation request.id)
        enqueued := request.id :: state.enqueued } := by
      rw [step, hstanding, Option.bind_some, ApiState.commit, hcommand]
      dsimp only
      rw [if_pos ⟨rfl, rfl⟩, hremoved rfl]
      rfl
    exact ⟨_, _, hcommit, fun honce => hagain (List.nodup_cons.1 honce.sends).1⟩
  | other intent =>
    rw [hcommand] at hagain
    have hcommit : state.step (.commit task (sendOperation request.id)) = some { state.advance request .applied with
        generation := state.generation + 1
        applied := request.id :: state.applied } := by
      rw [step, hstanding, Option.bind_some, ApiState.commit, hcommand]
    exact ⟨_, _, hcommit, fun honce => hagain (List.nodup_cons.1 honce.others).1⟩

/-- A replay that finds nothing is one write away from applying its command again. -/
theorem applies_again {action : ApiStep} (hinv : state.Invariant) (hstep : state.step action = some after)
    (hmissed : ¬ state.FindsReplay action) :
    ∃ task operation final, after.step (.commit task operation) = some final ∧ ¬ final.AtMostOnce := by
  cases action with
  | lock task =>
    simp only [FindsReplay, not_forall] at hmissed
    obtain ⟨request, hstanding, hother, happlied, hunrecorded⟩ := hmissed
    have hnone : state.outcome request.id = none := Option.not_isSome_iff_eq_none.1 hunrecorded
    have hlock : state.lock request = some after := by rwa [step, hstanding] at hstep
    simp only [ApiState.lock, hnone, hother, Bool.false_eq_true, if_false] at hlock
    split_ifs at hlock
    cases hlock
    refine ⟨request.task, applying_again (standing_advance request .applying) (fun hsend => ?_) fun hfirst => ?_⟩
    · exact absurd hsend (Bool.eq_false_iff.1 hother)
    · exact (if_neg (Bool.eq_false_iff.1 hother)).mp hfirst happlied
  | lookup task =>
    simp only [FindsReplay, not_forall] at hmissed
    obtain ⟨request, hstanding, henqueued, hremoved⟩ := hmissed
    have hnone : state.outbox.get_operation request.id = none := Option.not_isSome_iff_eq_none.1 hremoved
    obtain ⟨hmem, -, hphase⟩ := standing_eq_some hstanding
    have hlookup : state.replay_durable_outcome request = after := by
      rw [step, hstanding] at hstep
      exact Option.some.inj hstep
    simp only [replay_durable_outcome, hnone] at hlookup
    subst hlookup
    refine ⟨request.task, applying_again (standing_advance request .applying) (fun _ => hnone) fun hfirst => ?_⟩
    exact (if_pos (hinv.looking request hmem hphase)).mp hfirst henqueued
  | _ => exact absurd trivial hmissed

def sendCommand : CommandEnvelope := ⟨"c1", .Send default⟩

/-- A send that is enqueued, flushed and answered. -/
def sentOnce : List ApiStep :=
  [.arrive 0 sendCommand, .lock 0, .lookup 0, .commit 0 (sendOperation "c1"), .finish 0,
    .outbox (.claim_operation_for_flush "c1" ""), .outbox (.mark_operation_settled "c1" 0 none "")]

/-- The retry comes after truncation, from a client that outlives the process. -/
def lateRetry : List ApiStep :=
  [.outbox (.remove_operation "c1"), .restart, .arrive 1 sendCommand, .lock 1, .lookup 1,
    .commit 1 (sendOperation "c1")]

/-- Whether a replay finds what it is to find. -/
def findsReplay (state : ApiState) : ApiStep → Bool
  | .lock task => (state.standing task .waiting).all fun request =>
    request.envelope.command.isSend || request.id ∉ state.applied || (state.outcome request.id).isSome
  | .lookup task => (state.standing task .looking).all fun request =>
    request.id ∉ state.enqueued || (state.outbox.get_operation request.id).isSome
  | _ => true

theorem findsReplay_sound {action : ApiStep} (hfinds : state.findsReplay action = true) : state.FindsReplay action := by
  cases action with
  | lock task =>
    intro request hstanding hother happlied
    simpa [findsReplay, hstanding, hother, happlied] using hfinds
  | lookup task =>
    intro request hstanding henqueued
    simpa [findsReplay, hstanding, henqueued] using hfinds
  | _ => trivial

end posthaste.commands.ApiState
