import Mathlib.Algebra.Group.Nat.Defs
import Mathlib.Data.List.Sort
import Mathlib.Logic.Function.Basic
import Posthaste.DomainModel.Commands
import Posthaste.Library.Transition
import Posthaste.Library.UndoHistory

namespace posthaste.undo_redo

/-- The per-account history cap. -/
def MAX_REV_LOG_HISTORY : Nat := 50

/-- A row of the account's log. `diff` is JSON text that the store does not read. -/
structure RevLogRow where
  step_id : String
  seq : Nat
  message_id : String
  source_id : String
  diff : String
  created_at : String
  deriving DecidableEq

structure RevLogStep where
  step_id : String
  seq : Nat
  message_id : String
  source_id : String
  diff : String
  created_at : String
  deriving DecidableEq

/-- The topmost applied step, and the undone ones in order. -/
structure RevCursor where
  cursor_step_id : Option String
  redo_tail : List String
  deriving DecidableEq

structure RevLogSnapshot where
  steps : List RevLogStep
  cursor : RevCursor

/-- The account's rows of `rev_log` and `rev_cursor`. -/
structure Tables where
  rev_log : List RevLogRow
  rev_cursor : Option RevCursor
  deriving DecidableEq

/-- `seq.max(0) as u32`. -/
def row_to_step (row : RevLogRow) : RevLogStep where
  step_id := row.step_id
  seq := row.seq % 2 ^ 32
  message_id := row.message_id
  source_id := row.source_id
  diff := row.diff
  created_at := row.created_at

namespace Tables

variable (tables : Tables)

/-- `ORDER BY seq ASC`. -/
def bySeq (rows : List RevLogRow) : List RevLogRow := rows.insertionSort (·.seq ≤ ·.seq)

/-- `COALESCE(MAX(seq), 0) + 1`. -/
def nextSeq : Nat := (tables.rev_log.map (·.seq)).foldr max 0 + 1

def stepIds : List String := tables.rev_log.map (·.step_id)

/-- A step id that the log holds changes nothing. A new one is logged last, becomes the topmost applied step
    and empties the redo tail. -/
def append_rev_log_step (step_id message_id source_id diff created_at : String) : Nat × Tables :=
  match tables.rev_log.find? (·.step_id = step_id) with
  | some row => (row.seq % 2 ^ 32, tables)
  | none =>
    (tables.nextSeq % 2 ^ 32, {
      rev_log := tables.rev_log ++ [⟨step_id, tables.nextSeq, message_id, source_id, diff, created_at⟩]
      rev_cursor := some ⟨some step_id, []⟩ })

def fetch_rev_log (since_seq : Option Nat) (limit : Nat) : List RevLogStep :=
  let rows := match since_seq with
    | some since => tables.rev_log.filter (since < ·.seq)
    | none => tables.rev_log
  ((bySeq rows).take limit).map row_to_step

def get_rev_cursor : RevCursor := tables.rev_cursor.getD ⟨none, []⟩

def set_rev_cursor (cursor : RevCursor) : Tables := { tables with rev_cursor := some cursor }

/-- The oldest rows beyond the cap. -/
def evicted (max_steps : Nat) : List RevLogRow := (bySeq tables.rev_log).take (tables.rev_log.length - max_steps)

/-- The cursor is left as it is. -/
def evict_oldest_rev_log (max_steps : Nat) : Nat × Tables :=
  if tables.rev_log.length ≤ max_steps then (0, tables)
  else
    let kept := tables.rev_log.filter fun row => row.seq ∉ (tables.evicted max_steps).map (·.seq)
    (tables.rev_log.length - kept.length, { tables with rev_log := kept })

/-- Two reads: the bounded log and the cursor. -/
def rev_log_snapshot : RevLogSnapshot := ⟨tables.fetch_rev_log none MAX_REV_LOG_HISTORY, tables.get_rev_cursor⟩

end Tables

/-- Rows in log order, few enough and with seqs that fit. -/
structure WellKept (rows : List RevLogRow) : Prop where
  ascending : rows.Pairwise (·.seq < ·.seq)
  small : ∀ row ∈ rows, row.seq < 2 ^ 32
  few : rows.length ≤ MAX_REV_LOG_HISTORY
  unique : (rows.map (·.step_id)).Nodup

namespace WellKept

variable {tables : Tables}

theorem bySeq_eq {rows : List RevLogRow} (hkept : WellKept rows) : Tables.bySeq rows = rows :=
  (hkept.ascending.imp fun hlt => Nat.le_of_lt hlt).insertionSort_eq

theorem fetch_eq (hkept : WellKept tables.rev_log) :
    tables.fetch_rev_log none MAX_REV_LOG_HISTORY = tables.rev_log.map row_to_step := by
  rw [Tables.fetch_rev_log]
  simp only [hkept.bySeq_eq, List.take_of_length_le hkept.few]

theorem lt_nextSeq {row : RevLogRow} (hrow : row ∈ tables.rev_log) : row.seq < tables.nextSeq := by
  obtain ⟨rows, cursor⟩ := tables
  simp only [Tables.nextSeq] at hrow ⊢
  induction rows with
  | nil => cases hrow
  | cons first rows ih =>
    rw [List.map_cons, List.foldr_cons]
    rcases List.mem_cons.mp hrow with rfl | hrow
    · omega
    · have hlt := ih hrow
      omega

end WellKept

structure FacetDelta where
  added : List String
  removed : List String
  deriving DecidableEq

/-- The two-facet change a step records: what the forward action added and removed. -/
structure StepDiff where
  keywords : FacetDelta
  mailboxes : FacetDelta
  deriving DecidableEq

def FacetDelta.inverse (delta : FacetDelta) : FacetDelta := ⟨delta.removed, delta.added⟩

/-- Added and removed swap, per facet. -/
def StepDiff.inverse (diff : StepDiff) : StepDiff := ⟨diff.keywords.inverse, diff.mailboxes.inverse⟩

inductive ApiFailure where
  | conflict (message : String)
  | internal (message : String)
  deriving DecidableEq

inductive Kind where
  | undo
  | redo
  deriving DecidableEq

/-- What a call means to do: the diff to apply to the step's message, then the cursor to write. -/
structure Plan where
  kind : Kind
  step : RevLogStep
  diff : StepDiff
  cursor : RevCursor
  deriving DecidableEq

section Plans

-- The JSON reader of a recorded diff.
variable (decode : String → Option StepDiff)

def find_step (snapshot : RevLogSnapshot) (step_id : String) : Except ApiFailure RevLogStep :=
  match snapshot.steps.find? (·.step_id = step_id) with
  | some step => .ok step
  | none => .error (.internal s!"rev-log cursor references missing step {step_id}")

def decode_diff (step : RevLogStep) : Except ApiFailure StepDiff :=
  match decode step.diff with
  | some diff => .ok diff
  | none => .error (.internal s!"rev-log step {step.step_id} holds an undecodable diff")

/-- `max_by_key` on the seq: the last of the greatest. -/
def maxBySeq (steps : List RevLogStep) : Option RevLogStep :=
  steps.foldl (fun best step => match best with
    | some best => if best.seq ≤ step.seq then some step else some best
    | none => some step) none

/-- Revert the step at the cursor: its predecessor becomes the topmost applied one, and it heads the redo tail. -/
def undo (snapshot : RevLogSnapshot) : Except ApiFailure Plan :=
  match snapshot.cursor.cursor_step_id with
  | none => .error (.conflict "nothing to undo")
  | some cursor_step_id => do
    let step ← find_step snapshot cursor_step_id
    let diff ← decode_diff decode step
    let predecessor := (maxBySeq (snapshot.steps.filter (·.seq < step.seq))).map (·.step_id)
    return ⟨.undo, step, diff.inverse, ⟨predecessor, cursor_step_id :: snapshot.cursor.redo_tail⟩⟩

/-- Apply the head of the redo tail again: it becomes the topmost applied step. -/
def redo (snapshot : RevLogSnapshot) : Except ApiFailure Plan :=
  match snapshot.cursor.redo_tail with
  | [] => .error (.conflict "nothing to redo")
  | next_step_id :: redo_tail => do
    let step ← find_step snapshot next_step_id
    let diff ← decode_diff decode step
    return ⟨.redo, step, diff, ⟨some next_step_id, redo_tail⟩⟩

def planOf : Kind → RevLogSnapshot → Except ApiFailure Plan
  | .undo => undo decode
  | .redo => redo decode

/-- Where a call is between its reads and its cursor write. -/
inductive Phase where
  | reading (kind : Kind) (steps : List RevLogStep)
  | planned (plan : Plan)
  | applied (plan : Plan)
  deriving DecidableEq

/-- The account's tables, the calls under way, what was done to the mail so far, and the steps that forward actions
    dropped from the redo history. -/
structure State where
  tables : Tables
  calls : Nat → Option Phase
  acts : List (HistoryAct String)
  dropped : List String

def State.start : State := ⟨⟨[], none⟩, fun _ => none, [], []⟩

inductive Event where
  | append (step_id message_id source_id diff created_at : String)
  | evict (max_steps : Nat)
  | readSteps (call : Nat) (kind : Kind)
  | readCursor (call : Nat)
  | apply (call : Nat)
  | abandon (call : Nat)
  | write (call : Nat)

def Plan.act (plan : Plan) : HistoryAct String :=
  match plan.kind with
  | .undo => .revert plan.step.step_id
  | .redo => .reapply plan.step.step_id

def State.setCall (state : State) (call : Nat) (phase : Option Phase) : State :=
  { state with calls := Function.update state.calls call phase }

@[simp] theorem State.setCall_self (state : State) (call : Nat) (phase : Option Phase) :
    (state.setCall call phase).calls call = phase :=
  Function.update_self _ _ _

theorem State.setCall_ne {call other : Nat} (hne : other ≠ call) (state : State) (phase : Option Phase) :
    (state.setCall call phase).calls other = state.calls other :=
  Function.update_of_ne hne _ _

/-- One event: a forward action's append, an eviction, or the next step of a call. `apply` is when the diff begins to
    take effect. A call may be abandoned at any point, by an error, a timeout or a crash. -/
def State.next (state : State) : Event → Option State
  | .append step_id message_id source_id diff created_at =>
    let tables := (state.tables.append_rev_log_step step_id message_id source_id diff created_at).2
    if step_id ∈ state.tables.stepIds then some { state with tables }
    else some { state with
      tables
      acts := state.acts ++ [.forward step_id]
      dropped := state.dropped ++ state.tables.get_rev_cursor.redo_tail }
  | .evict max_steps => some { state with tables := (state.tables.evict_oldest_rev_log max_steps).2 }
  | .readSteps call kind =>
    match state.calls call with
    | none => some (state.setCall call (some (.reading kind (state.tables.fetch_rev_log none MAX_REV_LOG_HISTORY))))
    | some _ => none
  | .readCursor call =>
    match state.calls call with
    | some (.reading kind steps) =>
      match planOf decode kind ⟨steps, state.tables.get_rev_cursor⟩ with
      | .ok plan => some (state.setCall call (some (.planned plan)))
      | .error _ => some (state.setCall call none)
    | _ => none
  | .apply call =>
    match state.calls call with
    | some (.planned plan) => some { state.setCall call (some (.applied plan)) with acts := state.acts ++ [plan.act] }
    | _ => none
  | .abandon call =>
    match state.calls call with
    | some _ => some (state.setCall call none)
    | none => none
  | .write call =>
    match state.calls call with
    | some (.applied plan) => some { state.setCall call none with tables := state.tables.set_rev_cursor plan.cursor }
    | _ => none

def system : TransitionSystem State Event :=
  TransitionSystem.ofFunction (· = State.start) (State.next decode)

end Plans

end posthaste.undo_redo
