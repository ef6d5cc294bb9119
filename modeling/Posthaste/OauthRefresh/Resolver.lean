import Mathlib.Logic.Function.Basic
import Posthaste.Config.Settings
import Posthaste.DomainModel.Records
import Posthaste.Library.Transition

open posthaste.model posthaste.config

namespace posthaste.oauth_refresh

/-- The stored secret of an OAuth account. -/
structure OauthTokenSet where
  type : String
  provider : ProviderHint
  client_id : String
  client_secret : Option String
  access_token : String
  refresh_token : Option String
  expires_at : Option String
  scopes : List String
  deriving DecidableEq

/-- What the token endpoint answers, its lifetime already an instant. -/
structure TokenResponse where
  access_token : String
  refresh_token : Option String
  expires_at : Option String
  scopes : Option (List String)

/-- The JSON of a token set and the RFC 3339 reader, in nanoseconds. -/
structure Formats where
  from_str : String → Except String OauthTokenSet
  to_string : OauthTokenSet → String
  parse : String → Except String Int

def OAUTH_REFRESH_SKEW : Int := 300 * 1000000000

section Tokens

variable (formats : Formats)

def OauthTokenSet.decode (secret : String) : Except GatewayError OauthTokenSet :=
  match formats.from_str secret with
  | .error error => .error (.Rejected s!"invalid OAuth token secret: {error}")
  | .ok token_set =>
    if token_set.type ≠ "oauth2" then .error (.Rejected s!"invalid OAuth token secret type: {token_set.type}")
    else .ok token_set

/-- Expired, or close enough to it. A token set without an expiry never refreshes. -/
def OauthTokenSet.requires_refresh_at (token_set : OauthTokenSet) (now : Int) : Except GatewayError Bool :=
  match token_set.expires_at with
  | none => .ok false
  | some expires_at =>
    match formats.parse expires_at with
    | .error error => .error (.Rejected s!"invalid OAuth token expiry: {error}")
    | .ok expires_at => .ok (expires_at ≤ now + OAUTH_REFRESH_SKEW)

end Tokens

/-- The rotated set: what the response omits is carried over. -/
def token_set_from_response (token_set : OauthTokenSet) (response : TokenResponse) : OauthTokenSet where
  type := "oauth2"
  provider := token_set.provider
  client_id := token_set.client_id
  client_secret := token_set.client_secret
  access_token := response.access_token
  refresh_token := response.refresh_token <|> token_set.refresh_token
  expires_at := response.expires_at
  scopes := response.scopes.getD token_set.scopes

/-- Where an OAuth call is: waiting for the secret's gate, holding it, at the token endpoint with the set it read, back
    from it, or between the compare and the write of the swap. `version` counts the store's writes at the read. -/
inductive Phase where
  | waiting
  | entered
  | exchanging (version : Nat) (stored : String) (token_set : OauthTokenSet)
  | exchanged (version : Nat) (stored : String) (rotated : OauthTokenSet)
  | compared (version : Nat) (stored : String) (rotated : OauthTokenSet)

/-- A call under way and the version of the store when it began. -/
structure Call where
  started : Nat
  phase : Phase

/-- A token a call returned, and the versions of the store when it began and ended. -/
structure Returned where
  started : Nat
  finished : Nat
  access_token : String

/-- A rotation's write: the value it was derived from, and what it replaced. -/
structure Swap where
  stored : String
  replaced : Option String

/-- One secret in one process: every value it has had, the last the present one, the gate, the calls, and what has
    happened: the exchanges begun and not failed, by the version they took, the tokens returned and the swaps. -/
structure State where
  history : List (Option String)
  gate : Option Nat
  calls : Nat → Option Call
  exchanges : List Nat
  returned : List Returned
  swaps : List Swap

namespace State

variable (state : State)

/-- The number of writes so far. -/
def version : Nat := state.history.length - 1

/-- The value in the secret store. -/
def stored : Option String := state.history.getLast?.join

def setCall (call : Nat) (value : Option Call) : State := { state with calls := Function.update state.calls call value }

/-- The call ends and drops its guard. -/
def leave (call : Nat) : State := { state.setCall call none with gate := none }

def write (value : Option String) : State := { state with history := state.history ++ [value] }

/-- The call ends with a token. -/
def answer (call : Nat) (started : Nat) (access_token : String) : State :=
  { state.leave call with returned := state.returned ++ [⟨started, state.version, access_token⟩] }

end State

inductive Event where
  /-- A writer outside the resolver. -/
  | save (value : String)
  | delete
  | resolve (call : Nat) (auth : ProviderAuthKind)
  | enter (call : Nat)
  | read (call : Nat) (now : Int) (fails : Bool)
  | respond (call : Nat) (response : Option TokenResponse)
  | compare (call : Nat) (fails : Bool)
  | swap (call : Nat) (fails : Bool)
  | cancel (call : Nat)

section Machine

variable (formats : Formats) (kind : SecretKind)

/-- A read of the store, which may fail on its own. -/
def State.readStored (state : State) (fails : Bool) : Option String := if fails then none else state.stored

/-- What the holder of the gate does with the stored set: answer it, take it to the endpoint, or fail. -/
def State.onStored (state : State) (call started : Nat) (now : Int) (stored : String) : State :=
  match OauthTokenSet.decode formats stored with
  | .error _ => state.leave call
  | .ok token_set =>
    match token_set.requires_refresh_at formats now with
    | .error _ => state.leave call
    | .ok false => state.answer call started token_set.access_token
    | .ok true =>
      { state.setCall call (some ⟨started, .exchanging state.version stored token_set⟩) with
        exchanges := state.exchanges ++ [state.version] }

/-- `update_if_unchanged` up to its compare: a mismatch answers the winner's token. -/
def State.onCompare (state : State) (call started version : Nat) (stored : String) (rotated : OauthTokenSet)
    (current : String) : State :=
  if current ≠ stored then
    match OauthTokenSet.decode formats current with
    | .error _ => state.leave call
    | .ok winner => state.answer call started winner.access_token
  else state.setCall call (some ⟨started, .compared version stored rotated⟩)

/-- One event of the interleaving. A credential that is not OAuth is answered as it is stored, without the gate.
    Environment variables cannot be written. -/
def State.next (state : State) : Event → Option State
  | .save value => some (state.write (some value))
  | .delete => some (state.write none)
  | .resolve call auth =>
    match state.calls call with
    | none => some (if auth ≠ .OAuth2 then state else state.setCall call (some ⟨state.version, .waiting⟩))
    | some _ => none
  | .enter call =>
    match state.calls call, state.gate with
    | some ⟨started, .waiting⟩, none => some { state.setCall call (some ⟨started, .entered⟩) with gate := some call }
    | _, _ => none
  | .read call now fails =>
    match state.calls call with
    | some ⟨started, .entered⟩ =>
      match state.readStored fails with
      | none => some (state.leave call)
      | some stored => some (state.onStored formats call started now stored)
    | _ => none
  | .respond call response =>
    match state.calls call with
    | some ⟨started, .exchanging version stored token_set⟩ =>
      match response with
      | none => some { state.leave call with exchanges := state.exchanges.erase version }
      | some response =>
        some (state.setCall call (some ⟨started, .exchanged version stored (token_set_from_response token_set response)⟩))
    | _ => none
  | .compare call fails =>
    match state.calls call with
    | some ⟨started, .exchanged version stored rotated⟩ =>
      match state.readStored fails with
      | none => some (state.leave call)
      | some current => some (state.onCompare formats call started version stored rotated current)
    | _ => none
  | .swap call fails =>
    match state.calls call with
    | some ⟨started, .compared _ stored rotated⟩ =>
      if fails ∨ kind = .Env then some (state.leave call)
      else
        let written := state.write (some (formats.to_string rotated))
        some { written.answer call started rotated.access_token with
          swaps := state.swaps ++ [⟨stored, state.stored⟩] }
    | _ => none
  | .cancel call =>
    match state.calls call with
    | some ⟨_, .waiting⟩ => some (state.setCall call none)
    | some ⟨_, .exchanging version _ _⟩ =>
      some { state.leave call with exchanges := state.exchanges.erase version }
    | _ => none

def system : TransitionSystem State Event :=
  TransitionSystem.ofFunction (fun state => ∃ initial, state = ⟨[initial], none, fun _ => none, [], [], []⟩)
    (State.next formats kind)

end Machine

end posthaste.oauth_refresh
