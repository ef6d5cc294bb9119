import Posthaste.DomainModel.Records
import Posthaste.Library.Effects
import Posthaste.Library.Str
import Posthaste.Store.Sync

open posthaste.model posthaste.store

namespace posthaste.engine

inductive MethodErrorType where
  | StateMismatch
  | CannotCalculateChanges
  | Other (name : String)
  deriving DecidableEq

/-- The error of the JMAP client, each with the text it displays. Of a transport
    error the source reads whether it arose while connecting. -/
inductive JmapError where
  | Transport (is_connect : Bool) (text : String)
  | Parse (text : String)
  | Internal (text : String)
  | Problem (status : Option Nat) (text : String)
  | Server (message : String)
  | Method (p_type : MethodErrorType) (text : String)
  | Set (text : String)
  | WebSocket (text : String)
  deriving DecidableEq

def JmapError.text : JmapError → String
  | .Transport _ text | .Parse text | .Internal text | .Problem _ text => text
  | .Server message => message
  | .Method _ text | .Set text | .WebSocket text => text

def digitsValue (digits : List Char) : Nat := digits.foldl (fun value c => 10 * value + (c.toNat - '0'.toNat)) 0

/-- An unsigned decimal of sixteen bits, with an optional plus sign. -/
def parse_u16 (token : String) : Option Nat :=
  let digits := if token.toList.head? = some '+' then token.toList.tail else token.toList
  if digits ≠ [] ∧ digits.all Char.isDigit ∧ digitsValue digits < 2 ^ 16 then some (digitsValue digits) else none

/-- The three-digit HTTP status a message starts with. -/
def parse_leading_status (message : String) : Option Nat :=
  ((str.split_whitespace message).head?.bind parse_u16).filter fun status => 100 ≤ status && status ≤ 599

/-- A client error that a retry cannot fix. -/
def is_permanent_http_status (status : Nat) : Bool :=
  (400 ≤ status && status ≤ 499) && !(status = 401 || status = 408 || status = 429)

def map_gateway_error : JmapError → GatewayError
  | .Problem status text => if status = some 401 then .Auth else .Network text
  | .Method .StateMismatch _ => .StateMismatch
  | .Method .CannotCalculateChanges _ => .CannotCalculateChanges
  | .Method (.Other _) text => .Rejected text
  | .Set text => .Rejected text
  | .Server message =>
    if (parse_leading_status message).any is_permanent_http_status then .Rejected message else .Network message
  | .Transport _ text | .Parse text | .Internal text | .WebSocket text => .Network text

example : map_gateway_error (.Server "404 Not Found") = .Rejected "404 Not Found" := by decide

structure ChangesResponse where
  created : List String
  updated : List String
  destroyed : List String
  new_state : String
  has_more_changes : Bool
  deriving DecidableEq

/-- The objects are given as the records they convert to. -/
structure GetResponse (ρ : Type) where
  list : List ρ
  state : String

/-- Where the page of a query starts. -/
inductive Window where
  | position (position : Int)
  | anchor (anchor : String) (anchor_offset : Int)
  deriving DecidableEq

/-- A page request. The total is always asked for. -/
structure QueryRequest where
  window : Window
  limit : Nat
  deriving DecidableEq

structure QueryResponse where
  ids : List String
  query_state : String
  total : Option Nat
  limit : Option Nat
  deriving DecidableEq

/-- How a server answers the methods of one type of object, by the number of the request. -/
structure Methods (ρ : Type) where
  changes : Nat → String → Nat → Except JmapError ChangesResponse
  get : Nat → List String → Except JmapError (GetResponse ρ)
  query : Nat → QueryRequest → Except JmapError QueryResponse

/-- An answered request. -/
inductive Exchange (ρ : Type) where
  | changes (number : Nat) (since_state : String) (response : ChangesResponse)
  | get (number : Nat) (ids : List String) (response : GetResponse ρ)
  | query (number : Nat) (request : QueryRequest) (response : QueryResponse)

/-- The requests sent so far, those answered for one type of object, and the chunks emitted. -/
structure Session (ρ : Type) where
  sent : Nat
  log : List (Exchange ρ)
  emitted : List SyncBatch

/-- Why a fetch returns nothing: an error, or a loop that has not come to its end. -/
inductive Halt where
  | failed (error : GatewayError)
  | running

def Session.begin (ρ : Type) (number : Nat) : Session ρ where
  sent := number
  log := []
  emitted := []

abbrev Fetch (ρ : Type) := EStateM Halt (Session ρ)

section Requests

variable {ρ : Type} (methods : Methods ρ)

/-- Send one request and log its answer. -/
def request {α : Type} (answer : Nat → Except JmapError α) (exchange : Nat → α → Exchange ρ) : Fetch ρ α :=
  fun session =>
    match answer session.sent with
    | .ok response =>
      .ok response { session with
        sent := session.sent + 1, log := session.log ++ [exchange session.sent response] }
    | .error error => .error (.failed (map_gateway_error error)) { session with sent := session.sent + 1 }

def send_changes (since_state : String) (max_changes : Nat) : Fetch ρ ChangesResponse :=
  request (methods.changes · since_state max_changes) (.changes · since_state)

def send_get (ids : List String) : Fetch ρ (GetResponse ρ) :=
  request (methods.get · ids) (.get · ids)

def send_query (query : QueryRequest) : Fetch ρ QueryResponse :=
  request (methods.query · query) (.query · query)

/-- Hand a chunk to the sink, which may fail to store it. -/
def emit (sink : SyncBatch → Except GatewayError Unit) (batch : SyncBatch) : Fetch ρ Unit :=
  fun session =>
    match sink batch with
    | .ok () => .ok () { session with emitted := session.emitted ++ [batch] }
    | .error error => .error (.failed error) session

variable {methods} {session after : Session ρ}

theorem request_ok {α : Type} {answer : Nat → Except JmapError α} {exchange : Nat → α → Exchange ρ} {response : α}
    (hrun : (request answer exchange).run session = .ok response after) :
    answer session.sent = .ok response ∧
      after = { session with sent := session.sent + 1, log := session.log ++ [exchange session.sent response] } := by
  simp only [request, EStateM.run] at hrun
  cases hanswer : answer session.sent with
  | ok found =>
    rw [hanswer] at hrun
    cases hrun
    exact ⟨rfl, rfl⟩
  | error error =>
    rw [hanswer] at hrun
    cases hrun

theorem emit_ok {sink : SyncBatch → Except GatewayError Unit} {batch : SyncBatch}
    (hrun : (emit sink batch).run session = .ok () after) :
    after = { session with emitted := session.emitted ++ [batch] } := by
  simp only [emit, EStateM.run] at hrun
  cases hsink : sink batch with
  | ok found =>
    rw [hsink] at hrun
    cases hrun
    rfl
  | error error =>
    rw [hsink] at hrun
    cases hrun

end Requests

section Log

variable {ρ : Type}

/-- The exchange is what the server answers to the request of this number. -/
def Exchange.AnsweredAt (methods : Methods ρ) (number : Nat) : Exchange ρ → Prop
  | .changes at_ since_state response =>
    at_ = number ∧ ∃ max_changes, methods.changes number since_state max_changes = .ok response
  | .get at_ ids response => at_ = number ∧ methods.get number ids = .ok response
  | .query at_ request response => at_ = number ∧ methods.query number request = .ok response

/-- The exchanges are answered one after the other from this number on. -/
def AnsweredFrom (methods : Methods ρ) : Nat → List (Exchange ρ) → Prop
  | _, [] => True
  | number, exchange :: rest => exchange.AnsweredAt methods number ∧ AnsweredFrom methods (number + 1) rest

/-- A run made exactly these exchanges. -/
structure Exchanged (methods : Methods ρ) (session after : Session ρ) (log : List (Exchange ρ)) : Prop where
  log_eq : after.log = session.log ++ log
  sent_eq : after.sent = session.sent + log.length
  answered : AnsweredFrom methods session.sent log

/-- The pages of changes the server reported, in order. -/
def changePages : List (Exchange ρ) → List ChangesResponse
  | [] => []
  | .changes _ _ response :: rest => response :: changePages rest
  | .get _ _ _ :: rest | .query _ _ _ :: rest => changePages rest

/-- The objects the server sent, in order. -/
def fetched : List (Exchange ρ) → List ρ
  | [] => []
  | .get _ _ response :: rest => response.list ++ fetched rest
  | .changes _ _ _ :: rest | .query _ _ _ :: rest => fetched rest

/-- The pages of a listing, in order. -/
def queryPages : List (Exchange ρ) → List QueryResponse
  | [] => []
  | .query _ _ response :: rest => response :: queryPages rest
  | .changes _ _ _ :: rest | .get _ _ _ :: rest => queryPages rest

/-- The ids the gets of a run asked for. -/
def requested : List (Exchange ρ) → List String
  | [] => []
  | .get _ ids _ :: rest => ids ++ requested rest
  | .changes _ _ _ :: rest | .query _ _ _ :: rest => requested rest

@[simp] theorem changePages_append (first second : List (Exchange ρ)) :
    changePages (first ++ second) = changePages first ++ changePages second := by
  induction first with
  | nil => rfl
  | cons exchange rest ih => cases exchange <;> simp [changePages, ih]

@[simp] theorem fetched_append (first second : List (Exchange ρ)) :
    fetched (first ++ second) = fetched first ++ fetched second := by
  induction first with
  | nil => rfl
  | cons exchange rest ih => cases exchange <;> simp [fetched, ih]

@[simp] theorem queryPages_append (first second : List (Exchange ρ)) :
    queryPages (first ++ second) = queryPages first ++ queryPages second := by
  induction first with
  | nil => rfl
  | cons exchange rest ih => cases exchange <;> simp [queryPages, ih]

@[simp] theorem requested_append (first second : List (Exchange ρ)) :
    requested (first ++ second) = requested first ++ requested second := by
  induction first with
  | nil => rfl
  | cons exchange rest ih => cases exchange <;> simp [requested, ih]

theorem mem_requested {log : List (Exchange ρ)} {id : String} :
    id ∈ requested log ↔ ∃ number ids response, Exchange.get number ids response ∈ log ∧ id ∈ ids := by
  induction log with
  | nil => simp [requested]
  | cons exchange rest ih => cases exchange <;> simp [requested, ih, or_and_right, exists_or]

theorem mem_fetched {log : List (Exchange ρ)} {object : ρ} :
    object ∈ fetched log ↔ ∃ number ids response, Exchange.get number ids response ∈ log ∧ object ∈ response.list := by
  induction log with
  | nil => simp [fetched]
  | cons exchange rest ih => cases exchange <;> simp [fetched, ih, or_and_right, exists_or]

theorem AnsweredFrom.append {methods : Methods ρ} {number : Nat} {first second : List (Exchange ρ)}
    (hfirst : AnsweredFrom methods number first) (hsecond : AnsweredFrom methods (number + first.length) second) :
    AnsweredFrom methods number (first ++ second) := by
  induction first generalizing number with
  | nil => exact hsecond
  | cons exchange rest ih =>
    refine ⟨hfirst.1, ih hfirst.2 ?_⟩
    rw [List.length_cons] at hsecond
    rw [show number + 1 + rest.length = number + (rest.length + 1) by omega]
    exact hsecond

theorem AnsweredFrom.left_of_append {methods : Methods ρ} {number : Nat} {first second : List (Exchange ρ)}
    (hlog : AnsweredFrom methods number (first ++ second)) : AnsweredFrom methods number first := by
  induction first generalizing number with
  | nil => trivial
  | cons exchange rest ih => exact ⟨hlog.1, ih hlog.2⟩

/-- Every exchange of a run is answered at some number between its start and its end. -/
theorem AnsweredFrom.number {methods : Methods ρ} {number : Nat} {log : List (Exchange ρ)}
    (hlog : AnsweredFrom methods number log) {exchange : Exchange ρ} (hmem : exchange ∈ log) :
    ∃ at_, exchange.AnsweredAt methods at_ ∧ number ≤ at_ ∧ at_ < number + log.length := by
  induction log generalizing number with
  | nil => cases hmem
  | cons first rest ih =>
    rw [List.length_cons]
    obtain rfl | hrest := List.mem_cons.mp hmem
    · exact ⟨number, hlog.1, le_rfl, by omega⟩
    · obtain ⟨at_, hat, hle, hlt⟩ := ih hlog.2 hrest
      exact ⟨at_, hat, by omega, by omega⟩

theorem Exchanged.refl (methods : Methods ρ) (session : Session ρ) : Exchanged methods session session [] where
  log_eq := (List.append_nil _).symm
  sent_eq := rfl
  answered := trivial

theorem Exchanged.trans {methods : Methods ρ} {session middle after : Session ρ} {first second : List (Exchange ρ)}
    (hfirst : Exchanged methods session middle first) (hsecond : Exchanged methods middle after second) :
    Exchanged methods session after (first ++ second) where
  log_eq := by rw [hsecond.log_eq, hfirst.log_eq, List.append_assoc]
  sent_eq := by rw [hsecond.sent_eq, hfirst.sent_eq, List.length_append, Nat.add_assoc]
  answered := hfirst.answered.append (hfirst.sent_eq ▸ hsecond.answered)

variable {methods : Methods ρ} {session after : Session ρ}

theorem send_get_ok {ids : List String} {response : GetResponse ρ}
    (hrun : (send_get methods ids).run session = .ok response after) :
    Exchanged methods session after [.get session.sent ids response] := by
  obtain ⟨hanswer, rfl⟩ := request_ok hrun
  exact ⟨rfl, rfl, ⟨rfl, hanswer⟩, trivial⟩

theorem send_query_ok {query : QueryRequest} {response : QueryResponse}
    (hrun : (send_query methods query).run session = .ok response after) :
    Exchanged methods session after [.query session.sent query response] := by
  obtain ⟨hanswer, rfl⟩ := request_ok hrun
  exact ⟨rfl, rfl, ⟨rfl, hanswer⟩, trivial⟩

end Log

end posthaste.engine
