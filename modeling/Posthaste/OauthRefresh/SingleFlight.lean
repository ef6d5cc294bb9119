import Posthaste.OauthRefresh.Resolver

open posthaste.config

namespace posthaste.oauth_refresh

/-- The stored value holds the access token. -/
def Carries (formats : Formats) (stored access_token : String) : Prop :=
  ∃ token_set : OauthTokenSet, token_set.access_token = access_token ∧
    (OauthTokenSet.decode formats stored = .ok token_set ∨ stored = formats.to_string token_set)

/-- A call's stay at the endpoint: the version it took there and the value it read. -/
def Phase.taken : Phase → Option (Nat × String)
  | .exchanging version stored _ | .exchanged version stored _ | .compared version stored _ => some (version, stored)
  | .waiting | .entered => none

def Phase.holds : Phase → Bool
  | .waiting => false
  | _ => true

section Properties

variable (formats : Formats) (kind : SecretKind) (state : State)

/-- No version is taken to the endpoint twice unless the exchange failed, no swap replaces a value it was not derived
    from, and every token answered was stored between the call's beginning and its end. -/
structure SingleFlight : Prop where
  exchanged_once : state.exchanges.Nodup
  not_clobbered : ∀ swap ∈ state.swaps, ∀ value, swap.replaced = some value → value = swap.stored
  stored_meanwhile : ∀ answer ∈ state.returned, ∃ version stored, answer.started ≤ version ∧
    version ≤ answer.finished ∧ state.history[version]? = some (some stored) ∧ Carries formats stored answer.access_token

/-- What an event may do: a writer does not change the value between a swap's compare and its write, and after an
    exchange the store fails only when its value is no longer the one exchanged. -/
def Orderly : Event → Prop
  | .save value => ∀ call started version stored rotated,
      state.calls call = some ⟨started, .compared version stored rotated⟩ → value = stored
  | .compare call fails => fails = true → ∀ started version stored rotated,
      state.calls call = some ⟨started, .exchanged version stored rotated⟩ → version < state.version
  | .swap call fails => fails = true ∨ kind = .Env → ∀ started version stored rotated,
      state.calls call = some ⟨started, .compared version stored rotated⟩ → version < state.version
  | _ => True

structure Invariant : Prop extends SingleFlight formats state where
  nonempty : state.history ≠ []
  gated : ∀ call here, state.calls call = some here → here.phase.holds = true → state.gate = some call
  begun : ∀ call here, state.calls call = some here → here.started ≤ state.version
  taken : ∀ call here version stored, state.calls call = some here → here.phase.taken = some (version, stored) →
    version ∈ state.exchanges ∧ here.started ≤ version ∧ version ≤ state.version ∧
      state.history[version]? = some (some stored)
  settled : ∀ version ∈ state.exchanges, version < state.version ∨
    ∃ call here stored, state.calls call = some here ∧ here.phase.taken = some (version, stored)
  unchanged : ∀ call started version stored rotated, state.calls call = some ⟨started, .compared version stored rotated⟩ →
    ∀ value, state.stored = some value → value = stored

end Properties

section Steps

variable {formats : Formats} {kind : SecretKind} {state after : State}

theorem Invariant.start {initial : Option String} : Invariant formats ⟨[initial], none, fun _ => none, [], [], []⟩ where
  exchanged_once := List.nodup_nil
  not_clobbered := fun _ hmem => absurd hmem List.not_mem_nil
  stored_meanwhile := fun _ hmem => absurd hmem List.not_mem_nil
  nonempty := List.cons_ne_nil _ _
  gated := by rintro _ _ ⟨⟩
  begun := by rintro _ _ ⟨⟩
  taken := by rintro _ _ _ _ ⟨⟩
  settled := fun _ hmem => absurd hmem List.not_mem_nil
  unchanged := by rintro _ _ _ _ _ ⟨⟩

theorem stored_at {stored : String} (hstored : state.stored = some stored) :
    state.history[state.version]? = some (some stored) := by
  rw [State.stored, Option.join_eq_some_iff, List.getLast?_eq_getElem?] at hstored
  exact hstored

theorem Invariant.version_write (hinv : Invariant formats state) (value : Option String) :
    (state.write value).version = state.version + 1 := by
  have hpositive : 0 < state.history.length := List.length_pos_iff.2 hinv.nonempty
  simp only [State.version, State.write, List.length_append, List.length_singleton]
  omega

/-- A write leaves the versions before it as they were. -/
theorem Invariant.history_write (hinv : Invariant formats state) (value : Option String) {version : Nat}
    (hversion : version ≤ state.version) : (state.write value).history[version]? = state.history[version]? := by
  have hpositive : 0 < state.history.length := List.length_pos_iff.2 hinv.nonempty
  apply List.getElem?_append_left
  simp only [State.version] at hversion
  omega

theorem stored_write (value : Option String) : (state.write value).stored = value := by
  simp [State.stored, State.write]

theorem Invariant.write (hinv : Invariant formats state) {value : Option String}
    (hvalue : ∀ call started version stored rotated,
      state.calls call = some ⟨started, .compared version stored rotated⟩ → ∀ present, value = some present →
        present = stored) : Invariant formats (state.write value) where
  exchanged_once := hinv.exchanged_once
  not_clobbered := hinv.not_clobbered
  stored_meanwhile := by
    intro answer hanswer
    obtain ⟨version, stored, hstarted, hfinished, hat, hcarries⟩ := hinv.stored_meanwhile answer hanswer
    refine ⟨version, stored, hstarted, hfinished, ?_, hcarries⟩
    rw [← hat]
    apply List.getElem?_append_left
    exact (List.getElem?_eq_some_iff.1 hat).1
  nonempty := List.append_ne_nil_of_right_ne_nil _ (List.cons_ne_nil _ _)
  gated := hinv.gated
  begun := by
    intro call here hcall
    have hbegun := hinv.begun call here hcall
    rw [hinv.version_write]
    omega
  taken := by
    intro call here version stored hcall htaken
    obtain ⟨hmem, hstarted, hversion, hat⟩ := hinv.taken call here version stored hcall htaken
    rw [hinv.version_write, hinv.history_write value hversion]
    exact ⟨hmem, hstarted, Nat.le_succ_of_le hversion, hat⟩
  settled := by
    intro version hmem
    rw [hinv.version_write]
    obtain hbefore | hheld := hinv.settled version hmem
    · exact .inl (by omega)
    · exact .inr hheld
  unchanged := by
    intro call started version stored rotated hcall present hpresent
    rw [stored_write] at hpresent
    exact hvalue call started version stored rotated hcall present hpresent

/-- While one call holds the gate, every other waits. -/
theorem Invariant.waiting (hinv : Invariant formats state) {call other : Nat} (hgate : state.gate = some call)
    (hother : other ≠ call) {here : Call} (hcall : state.calls other = some here) : here.phase = .waiting := by
  by_contra hphase
  have hholds : here.phase.holds = true := by
    cases hshape : here.phase with
    | waiting => exact absurd hshape hphase
    | _ => rfl
  rw [hinv.gated other here hcall hholds, Option.some_inj] at hgate
  exact hother hgate

/-- What the holder of the gate may do without writing: only its own call changes. -/
theorem Invariant.held (hinv : Invariant formats state) {call : Nat} {next : Option Call}
    (hholder : state.gate = some call) (hflight : SingleFlight formats after) (hhistory : after.history = state.history)
    (hcalls : after.calls = Function.update state.calls call next)
    (hgate : ∀ here, next = some here → after.gate = some call ∧ here.started ≤ state.version)
    (htaken : ∀ here version stored, next = some here → here.phase.taken = some (version, stored) →
      version ∈ after.exchanges ∧ here.started ≤ version ∧ version ≤ state.version ∧
        state.history[version]? = some (some stored))
    (hsettled : ∀ version ∈ after.exchanges, version < state.version ∨
      ∃ here stored, next = some here ∧ here.phase.taken = some (version, stored))
    (hunchanged : ∀ started version stored rotated, next = some ⟨started, .compared version stored rotated⟩ →
      ∀ value, state.stored = some value → value = stored) : Invariant formats after := by
  have hversion : after.version = state.version := congrArg (fun history => history.length - 1) hhistory
  have hstored : after.stored = state.stored := congrArg (fun history => history.getLast?.join) hhistory
  have hown : after.calls call = next := by rw [hcalls, Function.update_self]
  have hwaits : ∀ other here, other ≠ call → after.calls other = some here → state.calls other = some here ∧
      here.phase = .waiting := by
    intro other here hother hcall
    rw [hcalls, Function.update_of_ne hother] at hcall
    exact ⟨hcall, hinv.waiting hholder hother hcall⟩
  refine { hflight with nonempty := ?_, gated := ?_, begun := ?_, taken := ?_, settled := ?_, unchanged := ?_ }
  · rw [hhistory]
    exact hinv.nonempty
  · intro other here hcall hholds
    by_cases hother : other = call
    · subst hother
      exact (hgate here (hown.symm.trans hcall)).1
    · rw [(hwaits other here hother hcall).2] at hholds
      cases hholds
  · intro other here hcall
    rw [hversion]
    by_cases hother : other = call
    · subst hother
      exact (hgate here (hown.symm.trans hcall)).2
    · exact hinv.begun other here (hwaits other here hother hcall).1
  · intro other here version stored hcall hphase
    rw [hversion, hhistory]
    by_cases hother : other = call
    · subst hother
      exact htaken here version stored (hown.symm.trans hcall) hphase
    · rw [(hwaits other here hother hcall).2] at hphase
      cases hphase
  · intro version hmem
    rw [hversion]
    obtain hbefore | ⟨here, stored, hnext, hphase⟩ := hsettled version hmem
    · exact .inl hbefore
    · exact .inr ⟨call, here, stored, hown.trans hnext, hphase⟩
  · intro other started version stored rotated hcall value hvalue
    rw [hstored] at hvalue
    by_cases hother : other = call
    · subst hother
      exact hunchanged started version stored rotated (hown.symm.trans hcall) value hvalue
    · cases (hwaits other _ hother hcall).2

/-- The holder ends its call: no exchange of the present version may be left behind. -/
theorem Invariant.left (hinv : Invariant formats state) {call : Nat} (hholder : state.gate = some call)
    (hflight : SingleFlight formats after) (hhistory : after.history = state.history)
    (hcalls : after.calls = Function.update state.calls call none)
    (hsettled : ∀ version ∈ after.exchanges, version < state.version) : Invariant formats after := by
  refine hinv.held hholder hflight hhistory hcalls ?_ ?_ ?_ ?_
  · rintro _ ⟨⟩
  · rintro _ _ _ ⟨⟩
  · exact fun version hmem => .inl (hsettled version hmem)
  · rintro _ _ _ _ ⟨⟩

/-- All that the holder took besides its own version is older than the store. -/
theorem Invariant.older (hinv : Invariant formats state) {call : Nat} {here : Call} (hholder : state.gate = some call)
    (hcall : state.calls call = some here) {version : Nat} (hmem : version ∈ state.exchanges) :
    version < state.version ∨ ∃ stored, here.phase.taken = some (version, stored) := by
  obtain hbefore | ⟨other, there, stored, hother, htaken⟩ := hinv.settled version hmem
  · exact .inl hbefore
  · by_cases hsame : other = call
    · subst hsame
      rw [hcall, Option.some_inj] at hother
      subst hother
      exact .inr ⟨stored, htaken⟩
    · rw [hinv.waiting hholder hsame hother] at htaken
      cases htaken

theorem Invariant.holder (hinv : Invariant formats state) {call started : Nat} {phase : Phase}
    (hcall : state.calls call = some ⟨started, phase⟩) (hholds : phase.holds = true) : state.gate = some call :=
  hinv.gated call _ hcall hholds

/-- The token a call ends with was stored while it ran. -/
theorem SingleFlight.answer (hflight : SingleFlight formats state) {call started version : Nat} {stored token : String}
    (hstarted : started ≤ version) (hversion : version ≤ state.version)
    (hat : state.history[version]? = some (some stored)) (hcarries : Carries formats stored token) :
    SingleFlight formats (state.answer call started token) where
  exchanged_once := hflight.exchanged_once
  not_clobbered := hflight.not_clobbered
  stored_meanwhile := by
    intro answer hanswer
    obtain hbefore | hlast := List.mem_append.1 hanswer
    · exact hflight.stored_meanwhile answer hbefore
    · rw [List.mem_singleton] at hlast
      subst hlast
      exact ⟨version, stored, hstarted, hversion, hat, hcarries⟩

theorem carries_of_decode {stored : String} {token_set : OauthTokenSet}
    (hdecode : OauthTokenSet.decode formats stored = .ok token_set) : Carries formats stored token_set.access_token :=
  ⟨token_set, rfl, .inl hdecode⟩

theorem stored_of_readStored {fails : Bool} {stored : String} (hread : state.readStored fails = some stored) :
    state.stored = some stored := by
  cases fails with
  | false => exact hread
  | true => cases hread

/-- A call that finds another value than the one it took finds a later version. -/
theorem Invariant.changed (hinv : Invariant formats state) {call version : Nat} {here : Call} {stored : String}
    (hcall : state.calls call = some here) (htaken : here.phase.taken = some (version, stored))
    (hstored : state.stored ≠ some stored) : version < state.version := by
  obtain ⟨-, -, hle, hat⟩ := hinv.taken call here version stored hcall htaken
  refine Nat.lt_of_le_of_ne hle fun hsame => hstored ?_
  rw [hsame] at hat
  rw [State.stored, List.getLast?_eq_getElem?]
  exact Option.join_eq_some_iff.2 hat

/-- With the version it took outdated, the holder leaves nothing behind. -/
theorem Invariant.settled_of (hinv : Invariant formats state) {call version : Nat} {here : Call} {stored : String}
    (hholder : state.gate = some call) (hcall : state.calls call = some here)
    (htaken : here.phase.taken = some (version, stored)) (hchanged : version < state.version) :
    ∀ other ∈ state.exchanges, other < state.version := by
  intro other hmem
  obtain hbefore | ⟨_, hsame⟩ := hinv.older hholder hcall hmem
  · exact hbefore
  · rw [htaken] at hsame
    cases hsame
    exact hchanged

theorem Invariant.settled_of_entered (hinv : Invariant formats state) {call started : Nat}
    (hcall : state.calls call = some ⟨started, .entered⟩) : ∀ version ∈ state.exchanges, version < state.version := by
  intro version hmem
  obtain hbefore | ⟨_, htaken⟩ := hinv.older (hinv.holder hcall rfl) hcall hmem
  · exact hbefore
  · cases htaken

theorem setCall_self (call : Nat) (value : Option Call) : (state.setCall call value).calls call = value :=
  Function.update_self ..

theorem setCall_of_ne {call other : Nat} (hother : other ≠ call) (value : Option Call) :
    (state.setCall call value).calls other = state.calls other :=
  Function.update_of_ne hother ..

/-- A call outside the gate comes or goes. -/
theorem Invariant.idle (hinv : Invariant formats state) {call : Nat} {next : Option Call}
    (hbefore : ∀ here, state.calls call = some here → here.phase = .waiting)
    (hafter : ∀ here, next = some here → here.phase = .waiting ∧ here.started ≤ state.version) :
    Invariant formats (state.setCall call next) := by
  have hcases : ∀ other here, (state.setCall call next).calls other = some here →
      (here.phase = .waiting ∧ here.started ≤ state.version) ∨ state.calls other = some here := by
    intro other here hcall
    by_cases hother : other = call
    · subst hother
      exact .inl (hafter here ((setCall_self _ _).symm.trans hcall))
    · exact .inr ((setCall_of_ne hother _).symm.trans hcall)
  have hkept : ∀ other here, state.calls other = some here → here.phase ≠ .waiting →
      (state.setCall call next).calls other = some here := by
    intro other here hcall hphase
    have hother : other ≠ call := fun hsame => hphase (hbefore here (hsame ▸ hcall))
    exact (setCall_of_ne hother _).trans hcall
  refine { hinv.toSingleFlight with
    nonempty := hinv.nonempty, gated := ?_, begun := ?_, taken := ?_, settled := ?_, unchanged := ?_ }
  · intro other here hcall hholds
    obtain ⟨hphase, -⟩ | hold := hcases other here hcall
    · rw [hphase] at hholds
      cases hholds
    · exact hinv.gated other here hold hholds
  · intro other here hcall
    obtain ⟨-, hstarted⟩ | hold := hcases other here hcall
    · exact hstarted
    · exact hinv.begun other here hold
  · intro other here version stored hcall htaken
    obtain ⟨hphase, -⟩ | hold := hcases other here hcall
    · rw [hphase] at htaken
      cases htaken
    · exact hinv.taken other here version stored hold htaken
  · intro version hmem
    obtain hless | ⟨other, here, stored, hcall, htaken⟩ := hinv.settled version hmem
    · exact .inl hless
    · refine .inr ⟨other, here, stored, hkept other here hcall ?_, htaken⟩
      intro hphase
      rw [hphase] at htaken
      cases htaken
  · intro other started version stored rotated hcall value hvalue
    obtain ⟨hphase, -⟩ | hold := hcases other _ hcall
    · cases hphase
    · exact hinv.unchanged other started version stored rotated hold value hvalue

theorem Invariant.enter (hinv : Invariant formats state) {call started : Nat}
    (hcall : state.calls call = some ⟨started, .waiting⟩) (hgate : state.gate = none) :
    Invariant formats { state.setCall call (some ⟨started, .entered⟩) with gate := some call } := by
  have hopen : Invariant formats { state with gate := some call } :=
    { hinv with
      gated := by
        intro other here hother hholds
        have hheld := hinv.gated other here hother hholds
        rw [hgate] at hheld
        cases hheld }
  refine hopen.held rfl ⟨hinv.exchanged_once, hinv.not_clobbered, hinv.stored_meanwhile⟩ rfl rfl ?_ ?_ ?_ ?_
  · rintro _ ⟨⟩
    exact ⟨rfl, hinv.begun call ⟨started, .waiting⟩ hcall⟩
  · rintro _ _ _ ⟨⟩ ⟨⟩
  · intro version hmem
    obtain hless | ⟨other, here, stored, hother, htaken⟩ := hinv.settled version hmem
    · exact .inl hless
    · have hholds : here.phase.holds = true := by
        cases hshape : here.phase with
        | waiting =>
          rw [hshape] at htaken
          cases htaken
        | _ => rfl
      have hheld := hinv.gated other here hother hholds
      rw [hgate] at hheld
      cases hheld
  · rintro _ _ _ _ ⟨⟩

/-- A call that read nothing ends. -/
theorem Invariant.unread (hinv : Invariant formats state) {call : Nat} (hholder : state.gate = some call)
    (hsettled : ∀ version ∈ state.exchanges, version < state.version) : Invariant formats (state.leave call) :=
  hinv.left hholder ⟨hinv.exchanged_once, hinv.not_clobbered, hinv.stored_meanwhile⟩ rfl rfl hsettled

/-- The holder reads a set: it answers it, takes it to the endpoint or fails. -/
theorem Invariant.onStored (hinv : Invariant formats state) {call started : Nat} {stored : String} {now : Int}
    (hcall : state.calls call = some ⟨started, .entered⟩) (hstored : state.stored = some stored) :
    Invariant formats (state.onStored formats call started now stored) := by
  have hholder : state.gate = some call := hinv.holder hcall rfl
  have hbegun : started ≤ state.version := hinv.begun call _ hcall
  have holder := hinv.settled_of_entered hcall
  simp only [State.onStored]
  cases hdecode : OauthTokenSet.decode formats stored with
  | error _ => exact hinv.left hholder ⟨hinv.exchanged_once, hinv.not_clobbered, hinv.stored_meanwhile⟩ rfl rfl holder
  | ok token_set =>
    simp only
    cases hdue : token_set.requires_refresh_at formats now with
    | error _ => exact hinv.left hholder ⟨hinv.exchanged_once, hinv.not_clobbered, hinv.stored_meanwhile⟩ rfl rfl holder
    | ok due =>
      cases due with
      | false =>
        refine hinv.left hholder ?_ rfl rfl holder
        exact hinv.toSingleFlight.answer hbegun (Nat.le_refl _) (stored_at hstored) (carries_of_decode hdecode)
      | true =>
        -- the version is new: everything exchanged before is older than the value just read
        have hfresh : state.version ∉ state.exchanges := fun hmem => Nat.lt_irrefl _ (holder _ hmem)
        refine hinv.held hholder ⟨?_, hinv.not_clobbered, hinv.stored_meanwhile⟩ rfl rfl ?_ ?_ ?_ ?_
        · rw [List.nodup_append]
          refine ⟨hinv.exchanged_once, List.pairwise_singleton _ _, ?_⟩
          rintro earlier hmem _ hnew rfl
          rw [List.mem_singleton] at hnew
          subst hnew
          exact hfresh hmem
        · rintro _ ⟨⟩
          exact ⟨hholder, hbegun⟩
        · rintro _ version value ⟨⟩ ⟨⟩
          exact ⟨List.mem_append_right _ (List.mem_singleton_self _), hbegun, Nat.le_refl _, stored_at hstored⟩
        · intro version hmem
          obtain hbefore | hnew := List.mem_append.1 hmem
          · exact .inl (holder version hbefore)
          · rw [List.mem_singleton] at hnew
            subst hnew
            exact .inr ⟨_, stored, rfl, rfl⟩
        · rintro _ _ _ _ ⟨⟩

/-- The exchange failed or was cancelled: its version may be taken again. -/
theorem Invariant.abandon (hinv : Invariant formats state) {call started version : Nat} {stored : String}
    {token_set : OauthTokenSet} (hcall : state.calls call = some ⟨started, .exchanging version stored token_set⟩) :
    Invariant formats { state.leave call with exchanges := state.exchanges.erase version } := by
  have hholder : state.gate = some call := hinv.holder hcall rfl
  refine hinv.left hholder ⟨hinv.exchanged_once.erase _, hinv.not_clobbered, hinv.stored_meanwhile⟩ rfl rfl ?_
  intro other hmem
  obtain ⟨hother, hbefore⟩ := hinv.exchanged_once.mem_erase_iff.1 hmem
  obtain hless | ⟨_, htaken⟩ := hinv.older hholder hcall hbefore
  · exact hless
  · cases htaken
    exact absurd rfl hother

/-- The holder moves on with the version it took. -/
theorem Invariant.move (hinv : Invariant formats state) {call started version : Nat} {stored : String}
    {before phase : Phase} (hcall : state.calls call = some ⟨started, before⟩)
    (hbefore : before.taken = some (version, stored)) (hafter : phase.taken = some (version, stored))
    (hunchanged : ∀ rotated, phase = .compared version stored rotated → ∀ value, state.stored = some value →
      value = stored) : Invariant formats (state.setCall call (some ⟨started, phase⟩)) := by
  have hholder : state.gate = some call := by
    refine hinv.holder hcall ?_
    cases before with
    | waiting => cases hbefore
    | _ => rfl
  refine hinv.held hholder ⟨hinv.exchanged_once, hinv.not_clobbered, hinv.stored_meanwhile⟩ rfl rfl ?_ ?_ ?_ ?_
  · rintro _ ⟨⟩
    exact ⟨hholder, hinv.begun call ⟨started, before⟩ hcall⟩
  · rintro _ other value ⟨⟩ htaken
    exact hinv.taken call ⟨started, before⟩ other value hcall (hbefore.trans (hafter.symm.trans htaken))
  · intro other hmem
    obtain hless | ⟨value, htaken⟩ := hinv.older hholder hcall hmem
    · exact .inl hless
    · exact .inr ⟨_, value, rfl, hafter.trans (hbefore.symm.trans htaken)⟩
  · rintro _ other value rotated hnext present hpresent
    cases hnext
    cases hafter
    exact hunchanged rotated rfl present hpresent

/-- A compare of the value read: the same one may be replaced, another's token is the answer. -/
theorem Invariant.onCompare (hinv : Invariant formats state) {call started version : Nat} {stored current : String}
    {rotated : OauthTokenSet} (hcall : state.calls call = some ⟨started, .exchanged version stored rotated⟩)
    (hcurrent : state.stored = some current) :
    Invariant formats (state.onCompare formats call started version stored rotated current) := by
  have hholder : state.gate = some call := hinv.holder hcall rfl
  simp only [State.onCompare]
  by_cases hsame : current = stored
  · rw [if_neg (not_not_intro hsame)]
    refine hinv.move hcall rfl rfl fun _ _ value hvalue => ?_
    rw [hcurrent, Option.some_inj] at hvalue
    exact hvalue.symm.trans hsame
  · rw [if_pos hsame]
    have hchanged : version < state.version := hinv.changed hcall rfl fun hstored => by
      rw [hcurrent, Option.some_inj] at hstored
      exact hsame hstored
    have holder := hinv.settled_of hholder hcall rfl hchanged
    cases hdecode : OauthTokenSet.decode formats current with
    | error _ => exact hinv.left hholder ⟨hinv.exchanged_once, hinv.not_clobbered, hinv.stored_meanwhile⟩ rfl rfl holder
    | ok winner =>
      refine hinv.left hholder ?_ rfl rfl holder
      exact hinv.toSingleFlight.answer (hinv.begun call _ hcall) (Nat.le_refl _) (stored_at hcurrent)
        (carries_of_decode hdecode)

/-- The write of a rotation replaces the value it was derived from, and its token is stored from then on. -/
theorem Invariant.rotate (hinv : Invariant formats state) {call started version : Nat} {stored : String}
    {rotated : OauthTokenSet} (hcall : state.calls call = some ⟨started, .compared version stored rotated⟩) :
    Invariant formats { (state.write (some (formats.to_string rotated))).answer call started rotated.access_token with
      swaps := state.swaps ++ [⟨stored, state.stored⟩] } := by
  -- the value is no longer guarded while it is written, so the call steps back first
  let back := state.setCall call (some ⟨started, .exchanged version stored rotated⟩)
  have hback : Invariant formats back := by
    refine hinv.move hcall rfl rfl ?_
    rintro _ ⟨⟩
  have hown : back.calls call = some ⟨started, .exchanged version stored rotated⟩ := setCall_self _ _
  let written := back.write (some (formats.to_string rotated))
  have hwritten : Invariant formats written := by
    refine hback.write fun other _ _ _ _ hother => ?_
    by_cases hsame : other = call
    · rw [hsame, hown] at hother
      cases hother
    · cases hback.waiting (hback.holder hown rfl) hsame hother
  have hholder : written.gate = some call := hwritten.holder hown rfl
  have hversion : written.version = back.version + 1 := hback.version_write _
  have hanswer : SingleFlight formats (written.answer call started rotated.access_token) := by
    refine hwritten.toSingleFlight.answer (hwritten.begun call _ hown) (Nat.le_refl _) (stored_at (stored_write _)) ?_
    exact ⟨rotated, rfl, .inr rfl⟩
  refine hwritten.left hholder ⟨hanswer.exchanged_once, ?_, hanswer.stored_meanwhile⟩ rfl ?_ ?_
  · intro swap hmem value hvalue
    obtain hbefore | hlast := List.mem_append.1 hmem
    · exact hinv.not_clobbered swap hbefore value hvalue
    · rw [List.mem_singleton] at hlast
      subst hlast
      exact hinv.unchanged call started version stored rotated hcall value hvalue
  · exact (Function.update_idem ..).symm
  · intro other hmem
    obtain hbefore | ⟨value, htaken⟩ := hwritten.older hholder hown hmem
    · exact hbefore
    · cases htaken
      have hle := (hback.taken call _ version stored hown rfl).2.2.1
      omega

/-- One event keeps the invariant. -/
theorem Invariant.next (hinv : Invariant formats state) {event : Event} (horderly : Orderly kind state event)
    (hnext : state.next formats kind event = some after) : Invariant formats after := by
  cases event with
  | save value =>
    cases hnext
    refine hinv.write fun call started version stored rotated hcall present hpresent => ?_
    cases hpresent
    exact horderly call started version stored rotated hcall
  | delete =>
    cases hnext
    refine hinv.write ?_
    rintro _ _ _ _ _ _ _ ⟨⟩
  | resolve call auth =>
    simp only [State.next] at hnext
    cases hcall : state.calls call with
    | some _ => simp only [hcall, reduceCtorEq] at hnext
    | none =>
      simp only [hcall, Option.some_inj] at hnext
      subst hnext
      split_ifs with hauth
      · exact hinv
      · refine hinv.idle ?_ ?_
        · intro here hbusy
          rw [hcall] at hbusy
          cases hbusy
        · rintro _ ⟨⟩
          exact ⟨rfl, Nat.le_refl _⟩
  | enter call =>
    simp only [State.next] at hnext
    split at hnext
    next started hcall hgate =>
      cases hnext
      exact hinv.enter hcall hgate
    next => cases hnext
  | read call now fails =>
    simp only [State.next] at hnext
    split at hnext
    next started hcall =>
      cases hread : state.readStored fails with
      | none =>
        rw [hread] at hnext
        cases hnext
        exact hinv.unread (hinv.holder hcall rfl) (hinv.settled_of_entered hcall)
      | some stored =>
        rw [hread] at hnext
        cases hnext
        exact hinv.onStored hcall (stored_of_readStored hread)
    next => cases hnext
  | respond call response =>
    simp only [State.next] at hnext
    split at hnext
    next started version stored token_set hcall =>
      cases response with
      | none =>
        cases hnext
        exact hinv.abandon hcall
      | some response =>
        cases hnext
        refine hinv.move hcall rfl rfl ?_
        rintro _ ⟨⟩
    next => cases hnext
  | compare call fails =>
    simp only [State.next] at hnext
    split at hnext
    next started version stored rotated hcall =>
      cases hread : state.readStored fails with
      | none =>
        rw [hread] at hnext
        cases hnext
        refine hinv.unread (hinv.holder hcall rfl) (hinv.settled_of (hinv.holder hcall rfl) hcall rfl ?_)
        cases fails with
        | true => exact horderly rfl started version stored rotated hcall
        | false =>
          refine hinv.changed hcall rfl fun hstored => ?_
          cases hread.symm.trans hstored
      | some current =>
        rw [hread] at hnext
        cases hnext
        exact hinv.onCompare hcall (stored_of_readStored hread)
    next => cases hnext
  | swap call fails =>
    simp only [State.next] at hnext
    split at hnext
    next started version stored rotated hcall =>
      split_ifs at hnext with hfails
      · cases hnext
        have hchanged : version < state.version := horderly hfails started version stored rotated hcall
        exact hinv.unread (hinv.holder hcall rfl) (hinv.settled_of (hinv.holder hcall rfl) hcall rfl hchanged)
      · cases hnext
        exact hinv.rotate hcall
    next => cases hnext
  | cancel call =>
    simp only [State.next] at hnext
    split at hnext
    next started hcall =>
      cases hnext
      refine hinv.idle ?_ ?_
      · intro here hwaits
        rw [hcall, Option.some_inj] at hwaits
        rw [← hwaits]
      · rintro _ ⟨⟩
    next started version stored token_set hcall =>
      cases hnext
      exact hinv.abandon hcall
    next => cases hnext

end Steps

section Runs

def stale : OauthTokenSet where
  type := "oauth2"
  provider := .Gmail
  client_id := "posthaste"
  client_secret := none
  access_token := "access-1"
  refresh_token := some "refresh-1"
  expires_at := some "1970-01-01T00:00:00Z"
  scopes := []

def granted : TokenResponse where
  access_token := "access-2"
  refresh_token := some "refresh-2"
  expires_at := some "1970-01-01T01:00:00Z"
  scopes := none

def fresh : OauthTokenSet := token_set_from_response stale granted

def staleText : String := "\x7b\"type\":\"oauth2\",\"provider\":\"gmail\",\"clientId\":\"posthaste\"," ++
  "\"accessToken\":\"access-1\",\"refreshToken\":\"refresh-1\",\"expiresAt\":\"1970-01-01T00:00:00Z\",\"scopes\":[]\x7d"

def freshText : String := "\x7b\"type\":\"oauth2\",\"provider\":\"gmail\",\"clientId\":\"posthaste\"," ++
  "\"accessToken\":\"access-2\",\"refreshToken\":\"refresh-2\",\"expiresAt\":\"1970-01-01T01:00:00Z\",\"scopes\":[]\x7d"

/-- The formats at the two sets of these runs. -/
def recorded : Formats where
  from_str secret :=
    if secret = staleText then .ok stale
    else if secret = freshText then .ok fresh
    else .error "expected value at line 1 column 1"
  to_string token_set := if token_set = fresh then freshText else staleText
  parse text := if text = "1970-01-01T01:00:00Z" then .ok (3600 * 1000000000) else .ok 0

def expired : State := ⟨[some staleText], none, fun _ => none, [], [], []⟩

def runOf (events : List Event) : Option State :=
  TransitionSystem.runActions (State.next recorded .Os) (fun _ _ => true) expired events

/-- A call that found the set expired and is back with a new one. -/
def refreshed (call : Nat) : List Event :=
  [.resolve call .OAuth2, .enter call, .read call 0 false, .respond call (some granted)]

/-- A password is saved after the compare and before the write. -/
def overwritten : List Event := refreshed 1 ++ [.compare 1 false, .save "typed-in", .swap 1 false]

/-- The keyring refuses the rotation, and the next call finds the old set again. -/
def refused : List Event := refreshed 1 ++ [.compare 1 false, .swap 1 true] ++ refreshed 2

/-- Whatever the calls, the other writers and the cancellations do, in any order, as long as no other writer comes
    between a swap's compare and its write and the store keeps every rotation it is given. -/
theorem single_flight_of_orderly (formats : Formats) (kind : SecretKind) {state : State}
    (hreach : (system formats kind).Reachable (Orderly kind) state) : SingleFlight formats state := by
  refine (hreach.invariant ?_ ?_ : Invariant formats state).toSingleFlight
  · rintro _ ⟨initial, rfl⟩
    exact .start
  · exact fun before event after hinv horderly hstep => hinv.next horderly hstep

set_option maxRecDepth 4000 in
theorem single_flight_serves_a_follower :
    ∃ state, runOf (refreshed 1 ++ [.resolve 2 .OAuth2, .compare 1 false, .swap 1 false, .enter 2, .read 2 0 false]) =
      some state ∧ SingleFlight recorded state ∧ state.exchanges = [0] := by
  have hstart : (system recorded .Os).Reachable (Orderly .Os) expired := .start ⟨_, rfl⟩
  have hwaits := hstart.next (show Orderly .Os _ (.resolve 1 .OAuth2) from trivial) rfl
  have henters := hwaits.next (show Orderly .Os _ (.enter 1) from trivial) rfl
  have hreads := henters.next (show Orderly .Os _ (.read 1 0 false) from trivial) rfl
  have hresponds := hreads.next (show Orderly .Os _ (.respond 1 (some granted)) from trivial) rfl
  have hfollows := hresponds.next (show Orderly .Os _ (.resolve 2 .OAuth2) from trivial) rfl
  have hcompares := hfollows.next (show Orderly .Os _ (.compare 1 false) from nofun) rfl
  have hswaps := hcompares.next (show Orderly .Os _ (.swap 1 false) from nofun) rfl
  have hadmits := hswaps.next (show Orderly .Os _ (.enter 2) from trivial) rfl
  have hanswers := hadmits.next (show Orderly .Os _ (.read 2 0 false) from trivial) rfl
  exact ⟨_, rfl, single_flight_of_orderly recorded .Os hanswers, rfl⟩

theorem reachable_of_runOf {events : List Event} {state : State} (hrun : runOf events = some state) :
    (system recorded .Os).Reachable TransitionSystem.unguarded state :=
  TransitionSystem.reachable_of_runActions (fun _ _ _ => trivial) (.start ⟨_, rfl⟩) hrun

set_option maxRecDepth 8000 in
/-- A value saved between the compare and the write is lost, and a refused write lets the next call exchange the set
    again. -/
theorem single_flight_breaks :
    (∃ state, (system recorded .Os).Reachable TransitionSystem.unguarded state ∧ ¬ SingleFlight recorded state ∧
      state.swaps.map (fun swap => (swap.stored, swap.replaced)) = [(staleText, some "typed-in")]) ∧
    ∃ state, (system recorded .Os).Reachable TransitionSystem.unguarded state ∧ ¬ SingleFlight recorded state ∧
      state.exchanges = [0, 0] := by
  constructor
  · have hrun : (runOf overwritten).map (fun state => state.swaps.map fun swap => (swap.stored, swap.replaced)) =
        some [(staleText, some "typed-in")] := by rfl
    obtain ⟨state, hstate, hswaps⟩ := Option.map_eq_some_iff.mp hrun
    refine ⟨state, reachable_of_runOf hstate, fun hflight => ?_, hswaps⟩
    obtain ⟨swap, hmem, hswap⟩ : ∃ swap ∈ state.swaps, (swap.stored, swap.replaced) = (staleText, some "typed-in") := by
      rw [← List.mem_map, hswaps]
      exact List.mem_singleton_self _
    obtain ⟨hstored, hreplaced⟩ := Prod.mk.inj hswap
    have hsame := hflight.not_clobbered swap hmem "typed-in" hreplaced
    rw [hstored] at hsame
    exact absurd hsame (by decide)
  · have hrun : (runOf refused).map (·.exchanges) = some [0, 0] := by rfl
    obtain ⟨state, hstate, hexchanges⟩ := Option.map_eq_some_iff.mp hrun
    refine ⟨state, reachable_of_runOf hstate, fun hflight => ?_, hexchanges⟩
    have honce := hflight.exchanged_once
    rw [hexchanges] at honce
    exact absurd honce (by decide)

end Runs

end posthaste.oauth_refresh
