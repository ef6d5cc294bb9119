import Posthaste.Library.Slice
import Posthaste.Library.Str
import Posthaste.Provider.Executor

namespace posthaste.provider_call

/-- Nanoseconds. -/
abbrev Duration := Nat

/-- Why a provider call failed. -/
inductive CallErrorReason where
  | CircuitOpen
  | Timeout
  | Stall
  | Http (status : UInt16)
  | RateLimited (status : UInt16)
  | Transport
  deriving DecidableEq

structure ProviderCallError where
  terminality : Terminality
  reason : CallErrorReason
  retry_after : Option Duration
  detail : String
  deriving DecidableEq

def ProviderCallError.circuit_open (account : String) : ProviderCallError where
  terminality := .Transient
  reason := .CircuitOpen
  retry_after := none
  detail := s!"provider circuit open for account {account}"

/-- A backoff schedule: the give-up bound and the jittered delay, a number for
    each attempt and draw. -/
structure BackoffSchedule (ρ : Type) where
  max_attempts : UInt32
  delay_for : Nat → ρ → Duration

inductive RetryDecision where
  | Retry (delay : Duration)
  | GiveUp

/-- The decision after the 0-based attempt failed. -/
def BackoffSchedule.retry_delay {ρ : Type} (schedule : BackoffSchedule ρ) (attempt : Nat) (rand_unit : ρ)
    (retry_after : Option Duration) : RetryDecision :=
  if schedule.max_attempts.toNat ≤ attempt then .GiveUp
  else
    let backoff := schedule.delay_for attempt rand_unit
    .Retry (match retry_after with
      | some after => max after backoff
      | none => backoff)

/-- The functions of the HTTP and time crates that an error response goes through:
    the decoded body, if it could be read, and an IMF-fixdate as nanoseconds. -/
structure Wire (β : Type) where
  text : β → Option String
  parse_imf_fixdate : String → Option Int

/-- A non-2xx response: the `Retry-After` header, when it is printable text, and the
    moment it is looked at. -/
structure ErrorResponse (β : Type) where
  status : UInt16
  retry_after : Option String
  now : Int
  body : β

/-- `raw.parse::<u64>()`. -/
def parse_u64 (raw : String) : Option Nat :=
  let digits := match raw.toList with
    | '+' :: digits => digits
    | digits => digits
  if digits ≠ [] ∧ digits.all Char.isDigit then
    (some (Nat.ofDigitChars 10 digits 0)).filter (· < 18446744073709551616)
  else none

def parse_retry_after {β : Type} (wire : Wire β) (response : ErrorResponse β) : Option Duration := do
  let raw := str.trim (← response.retry_after)
  match parse_u64 raw with
  | some seconds => some (seconds * 1000000000)
  | none =>
    let target ← wire.parse_imf_fixdate raw
    some (if 0 < target - response.now then (target - response.now).toNat else 0)

def classify_status (status : UInt16) : Terminality :=
  if 400 ≤ status ∧ status < 500 then .Permanent else .Transient

def resolve_terminality (envelope : Option Terminality) (status : UInt16) : Terminality :=
  envelope.getD (classify_status status)

def MAX : Nat := 512

/-- The first bytes of a body. Cut inside a character, the slice panics. -/
def truncate (body : String) : Except slice.Panic String :=
  if slice.size body.toList ≤ MAX then .ok body
  else do
    let head ← slice.slice_to MAX body.toList
    return String.ofList head ++ "…"

/-- Classify a non-2xx response. -/
def http_error {β : Type} (wire : Wire β) (envelope_terminality : Option Terminality) (response : ErrorResponse β) :
    Except slice.Panic ProviderCallError := do
  let retry_after := parse_retry_after wire response
  let body := (wire.text response.body).getD ""
  let detail := s!"HTTP {response.status}: {← truncate body}"
  if response.status = 429 ∨ response.status = 503 then
    return {
      terminality := envelope_terminality.getD .Transient
      reason := .RateLimited response.status
      retry_after
      detail }
  else
    return {
      terminality := resolve_terminality envelope_terminality response.status
      reason := .Http response.status
      retry_after
      detail }

/-- What the wire answers to one attempt: a 2xx value, a failure without a usable
    response, or an error response. -/
inductive Answer (τ β : Type) where
  | value (value : τ)
  | failed (error : ProviderCallError)
  | refused (response : ErrorResponse β)

/-- One attempt, its error response classified. -/
def attemptOf {τ β : Type} (wire : Wire β) (envelope_terminality : Option Terminality) :
    Answer τ β → Except slice.Panic (Except ProviderCallError τ)
  | .value value => .ok (.ok value)
  | .failed error => .ok (.error error)
  | .refused response => (http_error wire envelope_terminality response).map .error

/-- What a call did: the attempts it made, the waits between them, and how it ended. -/
structure Trace (τ : Type) where
  attempts : Nat
  waits : List Duration
  ending : Except slice.Panic (Except ProviderCallError τ)

section Run

variable {τ ρ β : Type} (schedule : BackoffSchedule ρ) (rand : Nat → ρ)
  (attempt : Nat → Except slice.Panic (Except ProviderCallError τ))

/-- The attempts from the given index on. -/
def retryLoop (index : Nat) : Trace τ :=
  match attempt index with
  | .error panic => ⟨1, [], .error panic⟩
  | .ok (.ok value) => ⟨1, [], .ok (.ok value)⟩
  | .ok (.error error) =>
    if error.terminality = .Permanent then ⟨1, [], .ok (.error error)⟩
    else match hdecision : schedule.retry_delay index (rand index) error.retry_after with
      | .GiveUp => ⟨1, [], .ok (.error error)⟩
      | .Retry delay =>
        let rest := retryLoop (index + 1)
        ⟨rest.attempts + 1, delay :: rest.waits, rest.ending⟩
termination_by schedule.max_attempts.toNat - index
decreasing_by
  unfold BackoffSchedule.retry_delay at hdecision
  split_ifs at hdecision with hlimit
  omega

/-- The breaker records a returned outcome. A panic records none. -/
def recordEnding (breakers : BreakerRegistry) (account : String) (finished : Nat)
    (ending : Except slice.Panic (Except ProviderCallError τ)) : BreakerRegistry :=
  match ending with
  | .error _ => breakers
  | .ok outcome => breakers.record account outcome.toBool finished

/-- One call: the breaker gate, the attempts, and the outcome recorded. -/
def runCall (breakers : BreakerRegistry) (account : String) (started finished : Nat) : Trace τ × BreakerRegistry :=
  match breakers.admit_call account started with
  | (false, breakers) => (⟨0, [], .ok (.error (.circuit_open account))⟩, breakers)
  | (true, breakers) =>
    let trace := retryLoop schedule rand attempt 0
    (trace, recordEnding breakers account finished trace.ending)

end Run

section Bound

variable {τ ρ β : Type} {schedule : BackoffSchedule ρ} {rand : Nat → ρ}
  {attempt : Nat → Except slice.Panic (Except ProviderCallError τ)} {wire : Wire β}
  {envelope_terminality : Option Terminality}

/-- The wait is long enough for the error before it. -/
def Waits (error : ProviderCallError) (wait : Option Duration) : Prop :=
  ∃ delay, wait = some delay ∧ ∀ after, error.retry_after = some after → after ≤ delay

/-- What a trace from the index on says: every attempt but the last failed
    transiently below the bound and was waited for, the last one decides. -/
structure Traced (schedule : BackoffSchedule ρ) (attempt : Nat → Except slice.Panic (Except ProviderCallError τ))
    (index : Nat) (trace : Trace τ) : Prop where
  positive : 1 ≤ trace.attempts
  retried : ∀ earlier, earlier + 1 < trace.attempts → index + earlier < schedule.max_attempts.toNat ∧
    ∃ error, attempt (index + earlier) = .ok (.error error) ∧ error.terminality = .Transient ∧
      Waits error trace.waits[earlier]?
  ending : trace.ending = attempt (index + trace.attempts - 1)
  last : ∀ error, trace.ending = .ok (.error error) → error.terminality = .Transient →
    schedule.max_attempts.toNat ≤ index + trace.attempts - 1

/-- A trace of one attempt. -/
theorem traced_single {index : Nat} {ending : Except slice.Panic (Except ProviderCallError τ)}
    (hattempt : attempt index = ending)
    (hlast : ∀ error, ending = .ok (.error error) → error.terminality = .Transient →
      schedule.max_attempts.toNat ≤ index) : Traced schedule attempt index ⟨1, [], ending⟩ where
  positive := Nat.le_refl 1
  retried earlier hearlier := by
    have hone : earlier + 1 < 1 := hearlier
    omega
  ending := hattempt.symm
  last := hlast

theorem retry_delay_eq_GiveUp {index : Nat} {rand_unit : ρ} {retry_after : Option Duration}
    (hdecision : schedule.retry_delay index rand_unit retry_after = .GiveUp) :
    schedule.max_attempts.toNat ≤ index := by
  unfold BackoffSchedule.retry_delay at hdecision
  split_ifs at hdecision with hlimit
  exact hlimit

/-- A retry comes below the bound and waits for what the server asked. -/
theorem retry_delay_eq_Retry {index : Nat} {rand_unit : ρ} {retry_after : Option Duration} {delay : Duration}
    (hdecision : schedule.retry_delay index rand_unit retry_after = .Retry delay) :
    index < schedule.max_attempts.toNat ∧ ∀ after, retry_after = some after → after ≤ delay := by
  unfold BackoffSchedule.retry_delay at hdecision
  split_ifs at hdecision with hlimit
  refine ⟨by omega, ?_⟩
  rintro after rfl
  obtain rfl := RetryDecision.Retry.inj hdecision
  exact Nat.le_max_left _ _

/-- The induction over the attempts still allowed. -/
theorem traced_retryLoop (index : Nat) : Traced schedule attempt index (retryLoop schedule rand attempt index) := by
  induction index using retryLoop.induct schedule rand attempt with
  | case1 index panic hattempt =>
    rw [retryLoop, hattempt]
    exact traced_single hattempt (by simp)
  | case2 index value hattempt =>
    rw [retryLoop, hattempt]
    exact traced_single hattempt (by simp)
  | case3 index error hattempt hpermanent =>
    have hloop : retryLoop schedule rand attempt index = ⟨1, [], .ok (.error error)⟩ := by
      rw [retryLoop, hattempt]
      exact if_pos hpermanent
    rw [hloop]
    refine traced_single hattempt fun other hother htransient => ?_
    obtain rfl : error = other := by simpa using hother
    rw [hpermanent] at htransient
    cases htransient
  | case4 index error hattempt htransient hdecision =>
    have hloop : retryLoop schedule rand attempt index = ⟨1, [], .ok (.error error)⟩ := by
      rw [retryLoop, hattempt]
      simp only [htransient, if_false]
      split
      · rfl
      · rename_i hother
        rw [hdecision] at hother
        cases hother
    rw [hloop]
    exact traced_single hattempt fun _ _ _ => retry_delay_eq_GiveUp hdecision
  | case5 index error hattempt htransient delay hdecision ih =>
    have hloop : retryLoop schedule rand attempt index =
        ⟨(retryLoop schedule rand attempt (index + 1)).attempts + 1,
          delay :: (retryLoop schedule rand attempt (index + 1)).waits,
          (retryLoop schedule rand attempt (index + 1)).ending⟩ := by
      rw [retryLoop, hattempt]
      simp only [htransient, if_false]
      split
      · rename_i hother
        rw [hdecision] at hother
        cases hother
      · rename_i hother
        rw [hdecision] at hother
        cases hother
        rfl
    rw [hloop]
    obtain ⟨hpositive, hretried, hending, hlast⟩ := ih
    obtain ⟨hbelow, hafter⟩ := retry_delay_eq_Retry hdecision
    generalize retryLoop schedule rand attempt (index + 1) = rest at *
    have hshift : index + 1 + rest.attempts - 1 = index + (rest.attempts + 1) - 1 := by omega
    rw [hshift] at hending hlast
    refine ⟨by simp, fun earlier hearlier => ?_, hending, hlast⟩
    cases earlier with
    | zero =>
      have hkind : error.terminality = .Transient := by
        cases hterminality : error.terminality with
        | Transient => rfl
        | Permanent => exact absurd hterminality htransient
      exact ⟨hbelow, error, hattempt, hkind, delay, rfl, hafter⟩
    | succ earlier =>
      have hinside : earlier + 1 < rest.attempts := by
        have hbound : earlier + 1 + 1 < rest.attempts + 1 := hearlier
        omega
      have hindex : index + (earlier + 1) = index + 1 + earlier := by omega
      rw [hindex]
      exact hretried earlier hinside

theorem traced_loop : Traced schedule attempt 0 (retryLoop schedule rand attempt 0) := traced_retryLoop 0

/-- The slice of a long body falls on a character boundary. -/
def Sliceable (body : String) : Prop :=
  slice.size body.toList ≤ MAX ∨ ∃ head tail, body.toList = head ++ tail ∧ slice.size head = MAX

theorem truncate_ok_iff {body : String} : (∃ head, truncate body = .ok head) ↔ Sliceable body := by
  unfold truncate Sliceable
  split_ifs with hshort
  · exact iff_of_true ⟨body, rfl⟩ (.inl hshort)
  · rw [slice.slice_to]
    constructor
    · rintro ⟨head, hhead⟩
      cases hcut : slice.cut MAX body.toList with
      | none =>
        rw [hcut] at hhead
        cases hhead
      | some parts => exact .inr ⟨parts.1, parts.2, slice.cut_eq_some_iff.mp hcut⟩
    · rintro (hsize | ⟨head, tail, hsplit⟩)
      · exact absurd hsize hshort
      · rw [slice.cut_eq_some_iff.mpr hsplit]
        exact ⟨_, rfl⟩

/-- How an error response is classified. -/
def responseTerminality (envelope_terminality : Option Terminality) (status : UInt16) : Terminality :=
  if status = 429 ∨ status = 503 then envelope_terminality.getD .Transient
  else resolve_terminality envelope_terminality status

/-- The attempt failed in a way that may pass. -/
def Answer.isTransient (envelope_terminality : Option Terminality) : Answer τ β → Bool
  | .value _ => false
  | .failed error => error.terminality = .Transient
  | .refused response => responseTerminality envelope_terminality response.status = .Transient

/-- The body of an error response can be cut where it is cut. -/
def Answer.Readable (wire : Wire β) : Answer τ β → Prop
  | .refused response => Sliceable ((wire.text response.body).getD "")
  | _ => True

theorem http_error_ok {response : ErrorResponse β} {head : String}
    (hhead : truncate ((wire.text response.body).getD "") = .ok head) :
    ∃ error, http_error wire envelope_terminality response = .ok error ∧
      error.terminality = responseTerminality envelope_terminality response.status := by
  unfold http_error responseTerminality
  simp only [hhead]
  by_cases hlimited : response.status = 429 ∨ response.status = 503
  · simp only [hlimited, if_true]
    exact ⟨_, rfl, rfl⟩
  · simp only [hlimited, if_false]
    exact ⟨_, rfl, rfl⟩

theorem attemptOf_of_readable {answer : Answer τ β} (hreadable : answer.Readable wire) :
    (∃ result, attemptOf wire envelope_terminality answer = .ok result) ∧
      ((∃ error, attemptOf wire envelope_terminality answer = .ok (.error error) ∧ error.terminality = .Transient) ↔
        answer.isTransient envelope_terminality = true) := by
  cases answer with
  | value value => exact ⟨⟨_, rfl⟩, by simp [attemptOf, Answer.isTransient]⟩
  | failed error => exact ⟨⟨_, rfl⟩, by simp [attemptOf, Answer.isTransient]⟩
  | refused response =>
    obtain ⟨head, hhead⟩ := truncate_ok_iff.mpr hreadable
    obtain ⟨error, herror, hterminality⟩ := @http_error_ok β wire envelope_terminality response head hhead
    have hattempt : attemptOf wire envelope_terminality (.refused response : Answer τ β) = .ok (.error error) := by
      rw [attemptOf, herror]
      rfl
    refine ⟨⟨_, hattempt⟩, ?_⟩
    rw [hattempt]
    simp [Answer.isTransient, ← hterminality]

theorem readable_of_attemptOf {answer : Answer τ β} {result : Except ProviderCallError τ}
    (hattempt : attemptOf wire envelope_terminality answer = .ok result) : answer.Readable wire := by
  cases answer with
  | value value => trivial
  | failed error => trivial
  | refused response =>
    show Sliceable _
    rw [← truncate_ok_iff]
    cases htruncate : truncate ((wire.text response.body).getD "") with
    | ok head => exact ⟨head, rfl⟩
    | error panic =>
      rw [attemptOf, http_error, htruncate] at hattempt
      cases hattempt

/-- A call makes no more attempts than it may, does not panic, returns what its last
    attempt gave, and made each attempt before it wait for a failure that may pass. -/
structure Bounded (max_attempts : Nat) (attempt : Nat → Except slice.Panic (Except ProviderCallError τ))
    (trace : Trace τ) : Prop where
  attempts : trace.attempts ≤ max 1 max_attempts
  returned : ∃ result, trace.ending = .ok result ∧ (trace.attempts ≠ 0 → attempt (trace.attempts - 1) = .ok result)
  retried : ∀ earlier, earlier + 1 < trace.attempts → ∃ error, attempt earlier = .ok (.error error) ∧
    error.terminality = .Transient ∧ Waits error trace.waits[earlier]?

/-- One of the attempts below the bound does not fail transiently, unless none
    is allowed, and every error body on the way can be cut. -/
structure Settles (max_attempts : Nat) (wire : Wire β) (envelope_terminality : Option Terminality)
    (answers : Nat → Answer τ β) : Prop where
  decided : max_attempts = 0 ∨ ∃ index < max_attempts, (answers index).isTransient envelope_terminality = false
  readable : ∀ index ≤ max_attempts, (∀ earlier < index, (answers earlier).isTransient envelope_terminality = true) →
    (answers index).Readable wire

variable {answers : Nat → Answer τ β} {trace : Trace τ}

/-- A traced call is bounded exactly when its answers settle it in time. -/
theorem Traced.bounded_iff
    (htraced : Traced schedule (fun index => attemptOf wire envelope_terminality (answers index)) 0 trace) :
    Bounded schedule.max_attempts.toNat (fun index => attemptOf wire envelope_terminality (answers index)) trace ↔
      Settles schedule.max_attempts.toNat wire envelope_terminality answers := by
  obtain ⟨hpositive, hretried, hending, hlast⟩ := htraced
  obtain ⟨last, hattempts⟩ : ∃ last, trace.attempts = last + 1 := ⟨trace.attempts - 1, by omega⟩
  rw [hattempts] at hretried hending hlast
  simp only [Nat.zero_add, Nat.add_sub_cancel] at hretried hending hlast
  -- every attempt before the last came back and failed transiently, below the bound
  have hearlier : ∀ earlier < last, earlier < schedule.max_attempts.toNat ∧
      (answers earlier).Readable wire ∧ (answers earlier).isTransient envelope_terminality = true := by
    intro earlier hbefore
    obtain ⟨hbelow, error, herror, htransient, _⟩ := hretried earlier (by omega)
    have hreadable := readable_of_attemptOf herror
    exact ⟨hbelow, hreadable, (attemptOf_of_readable hreadable).2.mp ⟨error, herror, htransient⟩⟩
  have hwithin : last ≤ schedule.max_attempts.toNat := by
    by_contra hover
    obtain ⟨hbelow, _⟩ := hearlier schedule.max_attempts.toNat (by omega)
    omega
  -- a transient last attempt means that none was left
  have hgave : (answers last).Readable wire → (answers last).isTransient envelope_terminality = true →
      schedule.max_attempts.toNat ≤ last := by
    intro hreadable htransient
    obtain ⟨error, herror, hkind⟩ := (attemptOf_of_readable hreadable).2.mpr htransient
    exact hlast error (hending.trans herror) hkind
  constructor
  · intro hbounded
    obtain ⟨result, hresult, _⟩ := hbounded.returned
    have hreadable : (answers last).Readable wire := readable_of_attemptOf (hending.symm.trans hresult)
    have hcount := hbounded.attempts
    rw [hattempts] at hcount
    refine ⟨?_, fun index hindex hall => ?_⟩
    · by_cases hnone : schedule.max_attempts.toNat = 0
      · exact .inl hnone
      · refine .inr ⟨last, by omega, ?_⟩
        by_contra htransient
        have hle := hgave hreadable (by simpa using htransient)
        omega
    · rcases Nat.lt_trichotomy index last with hbefore | rfl | hbeyond
      · exact (hearlier index hbefore).2.1
      · exact hreadable
      · have hle := hgave hreadable (hall last hbeyond)
        omega
  · intro hsettles
    have hreadable := hsettles.readable last hwithin fun earlier hbefore => (hearlier earlier hbefore).2.2
    obtain ⟨⟨result, hresult⟩, _⟩ := @attemptOf_of_readable τ β wire envelope_terminality _ hreadable
    refine ⟨?_, ⟨result, hending.trans hresult, fun _ => ?_⟩, fun earlier hbefore => ?_⟩
    · rw [hattempts]
      rcases hsettles.decided with hnone | ⟨index, hindex, hdecided⟩
      · omega
      · have hreached : last ≤ index := by
          by_contra hpast
          rw [(hearlier index (by omega)).2.2] at hdecided
          cases hdecided
        omega
    · rw [hattempts]
      exact hresult
    · rw [hattempts] at hbefore
      exact (hretried earlier hbefore).2

end Bound

/-- A call of the executor keeps to its bound exactly when the breaker rejects
    it, or one of its first `max_attempts` attempts does not fail transiently
    and no error body on the way is cut inside a character. -/
theorem call_is_bounded {τ ρ β : Type} (schedule : BackoffSchedule ρ) (rand : Nat → ρ) (wire : Wire β)
    (envelope_terminality : Option Terminality) (answers : Nat → Answer τ β) (breakers : BreakerRegistry)
    (account : String) (started finished : Nat) :
    Bounded schedule.max_attempts.toNat (fun index => attemptOf wire envelope_terminality (answers index))
        (runCall schedule rand (fun index => attemptOf wire envelope_terminality (answers index)) breakers account
          started finished).1 ↔
      ((breakers.admit_call account started).1 = true →
        Settles schedule.max_attempts.toNat wire envelope_terminality answers) := by
  unfold runCall
  cases hadmit : breakers.admit_call account started with
  | mk admitted after =>
    cases admitted with
    | false =>
      refine iff_of_true ⟨Nat.zero_le _, ⟨_, rfl, fun hsome => absurd rfl hsome⟩, fun earlier hbefore => ?_⟩
        (fun hadmitted => by cases hadmitted)
      have hzero : earlier + 1 < 0 := hbefore
      omega
    | true => exact traced_loop.bounded_iff.trans (true_imp_iff.symm.trans (by simp))

/-- A provider that is overloaded at every attempt. -/
def overloaded : Nat → Answer Unit String := fun _ => .refused ⟨503, none, 0, ""⟩

/-- A schedule of one attempt. -/
def once : BackoffSchedule Unit := ⟨1, fun _ _ => 0⟩

def utf8Wire : Wire String := ⟨some, fun _ => none⟩

/-- With one attempt allowed, a call makes two. -/
theorem one_attempt_is_retried : ¬ ∀ (schedule : BackoffSchedule Unit) (rand : Nat → Unit) (wire : Wire String)
    (envelope_terminality : Option Terminality) (answers : Nat → Answer Unit String) (breakers : BreakerRegistry)
    (account : String) (started finished : Nat),
    Bounded schedule.max_attempts.toNat (fun index => attemptOf wire envelope_terminality (answers index))
      (runCall schedule rand (fun index => attemptOf wire envelope_terminality (answers index)) breakers account
        started finished).1 := by
  intro hbounded
  have hcall := hbounded once (fun _ => ()) utf8Wire none overloaded (.new ⟨false, 1, 0⟩) "a" 0 0
  have hsettles := traced_loop.bounded_iff.mp hcall
  rcases hsettles.decided with hnone | ⟨_, _, hdecided⟩
  · cases hnone
  · cases hdecided

/-- An error response panics its call when a character of the body lies across byte 512. -/
theorem straddled_body_panics {τ β : Type} {wire : Wire β} {envelope_terminality : Option Terminality}
    {response : ErrorResponse β} {text : String} {before after : List Char} {c : Char}
    (htext : wire.text response.body = some text) (hsplit : text.toList = before ++ c :: after)
    (hbefore : slice.size before < MAX) (hinside : MAX < slice.size before + c.utf8Size) :
    attemptOf wire envelope_terminality (.refused response : Answer τ β) = .error .char_boundary := by
  have hlong : ¬ slice.size text.toList ≤ MAX := by
    rw [hsplit, slice.size_append, slice.size_cons]
    omega
  have htruncate : truncate text = .error .char_boundary := by
    rw [truncate, if_neg hlong, slice.slice_to, hsplit, slice.cut_inside hbefore hinside]
    rfl
  rw [attemptOf, http_error]
  simp only [htext, Option.getD_some, htruncate]
  rfl

end posthaste.provider_call
