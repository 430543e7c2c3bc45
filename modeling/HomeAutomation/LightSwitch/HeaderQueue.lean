import HomeAutomation.LightSwitch.RestClient
import HomeAutomation.Lib.Transition

/-! # The header queue

Every registered press queues three headers, and only a request that connects
empties the queue.  So the headers of failed requests pile up: the next request that
connects repeats them, and the fourth failure in a row finds no room.

`Pending k` is the state after `k` failures since the last connection.  What a press
does in it is computed once; when a run keeps the queue in order then follows by
induction over the presses.
-/

namespace HomeAutomation.LightSwitch

open HomeAutomation.Lib.Transition RestClient

/-- A registered button press and how its request goes. -/
structure Press where
  button : Nat
  exchange : Exchange

/-- The client, and what every GET that went out wrote. -/
structure Requests where
  client : RestClient
  gets : List (List String)

def pressStep (state : Requests) (press : Press) : Option Requests :=
  match sendRequestToApi press.button press.exchange state.client with
  | none => none
  | some result => some
    { client := result.client
      gets := if press.exchange.connects then state.gets ++ [result.written] else state.gets }

def switchedOn : Requests := ⟨RestClient.new openhabHost openhabPort, []⟩

/-- Each of the three headers is written exactly once. -/
def WritesEachOnce (written : List String) : Prop :=
  ∀ header ∈ apiHeaders, written.count header = 1

instance (written : List String) : Decidable (WritesEachOnce written) := by
  unfold WritesEachOnce
  infer_instance

/-- No header is ever queued outside the array, and every GET writes each header
    once. -/
def QueueDisciplined (state : Requests) (presses : List Press) : Prop :=
  ∃ final, run pressStep state presses = some final ∧ ∀ written ∈ final.gets, WritesEachOnce written

/-! ## Failures pile up -/

/-- The queue after `failures` requests that did not connect. -/
structure Pending (failures : Nat) (client : RestClient) : Prop where
  host : client.host = openhabHost
  headers : client.headers = (List.replicate failures apiHeaders).flatten

theorem pending_switchedOn : Pending 0 switchedOn.client := ⟨rfl, rfl⟩

theorem length_pending {failures : Nat} {client : RestClient} (pending : Pending failures client) :
    client.numHeaders = 3 * failures := by
  have three : apiHeaders.length = 3 := rfl
  rw [numHeaders, pending.headers, List.length_flatten, List.map_replicate, List.sum_replicate_nat,
    three, Nat.mul_comm]

theorem pending_le {failures : Nat} {client : RestClient} (pending : Pending failures client) :
    failures ≤ 3 := by
  have length := length_pending pending
  have slots := client.slots
  rw [numHeaders] at length
  omega

theorem setHeader_eq_none {header : String} {client : RestClient}
    (full : 10 ≤ client.numHeaders) : client.setHeader header = none := by
  rw [setHeader, dif_neg (by omega)]

theorem setHeader_eq_some (header : String) (client : RestClient) (free : client.numHeaders < 10) :
    ∃ next, client.setHeader header = some next ∧ next.host = client.host ∧
      next.headers = client.headers ++ [header] :=
  ⟨_, dif_pos free, rfl, rfl⟩

theorem numHeaders_snoc {client next : RestClient} {header : String}
    (queued : next.headers = client.headers ++ [header]) :
    next.numHeaders = client.numHeaders + 1 := by
  rw [numHeaders, queued, List.length_append]
  rfl

/-- After at most two failures the three headers still fit. -/
theorem setHeaders_of_room {failures : Nat} {client : RestClient}
    (pending : Pending failures client) (room : failures ≤ 2) :
    ∃ next, setHeaders client = some next ∧ Pending (failures + 1) next := by
  have length := length_pending pending
  obtain ⟨first, firstSet, firstHost, firstQueued⟩ :=
    setHeader_eq_some contentTypeHeader client (by omega)
  have firstLength := numHeaders_snoc firstQueued
  obtain ⟨second, secondSet, secondHost, secondQueued⟩ :=
    setHeader_eq_some acceptHeader first (by omega)
  have secondLength := numHeaders_snoc secondQueued
  obtain ⟨third, thirdSet, thirdHost, thirdQueued⟩ :=
    setHeader_eq_some hostHeader second (by omega)
  refine ⟨third, ?_, ?_, ?_⟩
  · simp only [setHeaders, Option.bind_eq_bind, firstSet, Option.bind_some, secondSet, thirdSet]
  · rw [thirdHost, secondHost, firstHost, pending.host]
  · rw [thirdQueued, secondQueued, firstQueued, pending.headers, List.replicate_succ',
      List.flatten_append, List.flatten_singleton]
    simp [apiHeaders]

/-- After three failures the second of them is written outside the array. -/
theorem setHeaders_of_full {client : RestClient} (pending : Pending 3 client) :
    setHeaders client = none := by
  have length := length_pending pending
  -- nine headers are queued, so only the first of the three still fits
  obtain ⟨first, firstSet, -, firstQueued⟩ :=
    setHeader_eq_some contentTypeHeader client (by omega)
  have firstLength := numHeaders_snoc firstQueued
  have secondSet : first.setHeader acceptHeader = none := setHeader_eq_none (by omega)
  simp only [setHeaders, Option.bind_eq_bind, firstSet, Option.bind_some, secondSet,
    Option.bind_none]

/-! ## One press -/

theorem pressStep_of_full {state : Requests} (pending : Pending 3 state.client) (press : Press) :
    pressStep state press = none := by
  simp [pressStep, sendRequestToApi, setHeaders_of_full pending]

/-- A request that does not connect leaves its headers in the queue. -/
theorem pressStep_of_failure {failures : Nat} {state : Requests} {press : Press}
    (pending : Pending failures state.client) (room : failures ≤ 2)
    (fails : press.exchange.connects = false) :
    ∃ next, pressStep state press = some next ∧ Pending (failures + 1) next.client ∧
      next.gets = state.gets := by
  obtain ⟨client, queued, pendingNext⟩ := setHeaders_of_room pending room
  refine ⟨⟨client, state.gets⟩, ?_, pendingNext, rfl⟩
  simp [pressStep, sendRequestToApi, queued, RestClient.get, request, fails]

theorem count_headerLines {header : String} (notEnd : header ≠ "\r\n") (headers : List String) :
    (headers.flatMap fun header => [header, "\r\n"]).count header = headers.count header := by
  induction headers with
  | nil => rfl
  | cons first headers inductionHypothesis =>
    rw [List.flatMap_cons, List.count_append, inductionHypothesis]
    simp [List.count_cons, Ne.symm notEnd, Nat.add_comm]

theorem url_notMem_apiHeaders (button : Nat) : lightsUrlByButtonNumber button ∉ apiHeaders := by
  unfold lightsUrlByButtonNumber
  split <;> decide

/-- A GET writes each header as often as it is queued. -/
theorem count_requestText {failures : Nat} {client : RestClient} (pending : Pending failures client)
    (button : Nat) {header : String} (queued : header ∈ apiHeaders) :
    (client.requestText "GET" (lightsUrlByButtonNumber button) none).count header = failures := by
  have once : ∀ header ∈ apiHeaders, apiHeaders.count header = 1 := by decide
  have start : ∀ header ∈ apiHeaders, "GET" ≠ header ∧ " " ≠ header ∧ " HTTP/1.1\r\n" ≠ header ∧
      "Host: " ≠ header ∧ openhabHost ≠ header ∧ "\r\n" ≠ header ∧
      "Connection: close\r\n" ≠ header := by decide
  obtain ⟨get, blank, version, host, name, lineEnd, close⟩ := start header queued
  have url : lightsUrlByButtonNumber button ≠ header :=
    fun same => url_notMem_apiHeaders button (same ▸ queued)
  have queue : client.headers.count header = failures := by
    rw [pending.headers, List.count_flatten, List.map_replicate, List.sum_replicate_nat,
      once header queued, Nat.mul_one]
  simp only [requestText, pending.host, List.append_nil, List.count_append,
    count_headerLines (Ne.symm lineEnd), queue]
  simp [get, blank, version, host, name, lineEnd, close, url]

/-- A request that connects writes the queue and empties it. -/
theorem pressStep_of_connection {failures : Nat} {state : Requests} {press : Press}
    (pending : Pending failures state.client) (room : failures ≤ 2)
    (connects : press.exchange.connects = true) :
    ∃ next written, pressStep state press = some next ∧ Pending 0 next.client ∧
      next.gets = state.gets ++ [written] ∧
      ∀ header ∈ apiHeaders, written.count header = failures + 1 := by
  obtain ⟨client, queued, pendingNext⟩ := setHeaders_of_room pending room
  refine ⟨⟨{ client with headers := [], slots := Nat.zero_le 10 }, state.gets ++ [client.requestText
    "GET" (lightsUrlByButtonNumber press.button) none]⟩, _, ?_, ⟨pendingNext.host, rfl⟩, rfl,
    fun header member => count_requestText pendingNext press.button member⟩
  simp [pressStep, sendRequestToApi, queued, RestClient.get, request, connects]

/-! ## The discipline -/

/-- The outcomes under which the queue stays in order after some failures: no
    connection follows a failure, and there are at most three failures. -/
def InOrder : Nat → List Bool → Prop
  | _, [] => True
  | failures, true :: outcomes => failures = 0 ∧ InOrder 0 outcomes
  | failures, false :: outcomes => failures ≤ 2 ∧ InOrder (failures + 1) outcomes

theorem inOrder_failures_iff {failures : Nat} (some : 0 < failures) (bounded : failures ≤ 3)
    (outcomes : List Bool) :
    InOrder failures outcomes ↔
      ∃ more, failures + more ≤ 3 ∧ outcomes = List.replicate more false := by
  induction outcomes generalizing failures with
  | nil => exact ⟨fun _ => ⟨0, bounded, rfl⟩, fun _ => trivial⟩
  | cons outcome outcomes inductionHypothesis =>
    cases outcome with
    | true =>
      -- after a failure no request may connect
      constructor
      · intro inOrder
        exact absurd inOrder.1 (by omega)
      · rintro ⟨more, -, same⟩
        cases more with
        | zero => cases same
        | succ more => cases same
    | false =>
      constructor
      · rintro ⟨room, rest⟩
        obtain ⟨more, within, rfl⟩ := (inductionHypothesis (by omega) (by omega)).mp rest
        exact ⟨more + 1, by omega, rfl⟩
      · rintro ⟨more, within, same⟩
        cases more with
        | zero => cases same
        | succ more =>
          refine ⟨by omega, (inductionHypothesis (by omega) (by omega)).mpr ⟨more, by omega, ?_⟩⟩
          exact (List.cons.inj same).2

theorem inOrder_zero_iff (outcomes : List Bool) :
    InOrder 0 outcomes ↔ ∃ connections failures, failures ≤ 3 ∧
      outcomes = List.replicate connections true ++ List.replicate failures false := by
  induction outcomes with
  | nil => exact ⟨fun _ => ⟨0, 0, by omega, rfl⟩, fun _ => trivial⟩
  | cons outcome outcomes inductionHypothesis =>
    cases outcome with
    | true =>
      constructor
      · rintro ⟨-, rest⟩
        obtain ⟨connections, failures, within, rfl⟩ := inductionHypothesis.mp rest
        exact ⟨connections + 1, failures, within, rfl⟩
      · rintro ⟨connections, failures, within, same⟩
        cases connections with
        | zero => cases failures <;> cases same
        | succ connections =>
          refine ⟨rfl, inductionHypothesis.mpr ⟨connections, failures, within, ?_⟩⟩
          exact (List.cons.inj same).2
    | false =>
      have first : InOrder 1 outcomes ↔ ∃ more, 1 + more ≤ 3 ∧ outcomes = List.replicate more false :=
        inOrder_failures_iff (by omega) (by omega) outcomes
      constructor
      · rintro ⟨-, rest⟩
        obtain ⟨more, within, rfl⟩ := first.mp rest
        exact ⟨0, more + 1, by omega, rfl⟩
      · rintro ⟨connections, failures, within, same⟩
        cases connections with
        | succ connections => cases same
        | zero =>
          cases failures with
          | zero => cases same
          | succ failures =>
            refine ⟨by omega, first.mpr ⟨failures, by omega, ?_⟩⟩
            exact (List.cons.inj same).2

theorem gets_pressStep {state next : Requests} {press : Press}
    (stepped : pressStep state press = some next) : ∃ later, next.gets = state.gets ++ later := by
  unfold pressStep at stepped
  split at stepped
  · cases stepped
  · cases stepped
    split
    · exact ⟨_, rfl⟩
    · exact ⟨[], (List.append_nil _).symm⟩

/-- What a GET has written stays in the log. -/
theorem gets_run {state final : Requests} {presses : List Press}
    (finished : run pressStep state presses = some final) :
    ∃ later, final.gets = state.gets ++ later := by
  refine run_invariant (fun reached => ∃ later, reached.gets = state.gets ++ later)
    ⟨[], (List.append_nil _).symm⟩ ?_ finished
  rintro middle press next ⟨earlier, past⟩ stepped
  obtain ⟨later, added⟩ := gets_pressStep stepped
  exact ⟨earlier ++ later, by rw [added, past, List.append_assoc]⟩

theorem queueDisciplined_cons {state next : Requests} {press : Press}
    (stepped : pressStep state press = some next) (presses : List Press) :
    QueueDisciplined state (press :: presses) ↔ QueueDisciplined next presses := by
  rw [QueueDisciplined, QueueDisciplined, run_cons, stepped, Option.bind_some]

/-- The queue is disciplined exactly when the outcomes are in order. -/
theorem queueDisciplined_iff_inOrder {failures : Nat} {state : Requests}
    (pending : Pending failures state.client) (past : ∀ written ∈ state.gets, WritesEachOnce written)
    (presses : List Press) :
    QueueDisciplined state presses ↔
      InOrder failures (presses.map fun press => press.exchange.connects) := by
  induction presses generalizing failures state with
  | nil => exact ⟨fun _ => trivial, fun _ => ⟨state, rfl, past⟩⟩
  | cons press presses inductionHypothesis =>
    have bounded := pending_le pending
    by_cases full : failures = 3
    case pos =>
      subst full
      -- this press writes outside the array, whatever becomes of its request
      have overrun : ¬ QueueDisciplined state (press :: presses) := by
        rintro ⟨final, finished, -⟩
        rw [run_cons, pressStep_of_full pending] at finished
        cases finished
      refine ⟨fun disciplined => absurd disciplined overrun, fun inOrder => ?_⟩
      cases connects : press.exchange.connects with
      | true => rw [List.map_cons, connects] at inOrder; exact absurd inOrder.1 (by omega)
      | false => rw [List.map_cons, connects] at inOrder; exact absurd inOrder.1 (by omega)
    have room : failures ≤ 2 := by omega
    cases connects : press.exchange.connects with
    | false =>
      obtain ⟨next, stepped, pendingNext, gets⟩ := pressStep_of_failure pending room connects
      rw [queueDisciplined_cons stepped, inductionHypothesis pendingNext (gets ▸ past),
        List.map_cons, connects]
      exact ⟨fun rest => ⟨room, rest⟩, fun inOrder => inOrder.2⟩
    | true =>
      obtain ⟨next, written, stepped, pendingNext, gets, counts⟩ :=
        pressStep_of_connection pending room connects
      rw [queueDisciplined_cons stepped, List.map_cons, connects]
      by_cases none : failures = 0
      · subst none
        have pastNext : ∀ written ∈ next.gets, WritesEachOnce written := by
          intro get member
          rw [gets, List.mem_append, List.mem_singleton] at member
          rcases member with before | rfl
          · exact past get before
          · exact counts
        rw [inductionHypothesis pendingNext pastNext]
        exact ⟨fun rest => ⟨rfl, rest⟩, fun inOrder => inOrder.2⟩
      · -- the queue still holds the headers of a failed request, so they are repeated
        refine ⟨fun disciplined => ?_, fun inOrder => absurd inOrder.1 none⟩
        obtain ⟨final, finished, each⟩ := disciplined
        obtain ⟨later, logged⟩ := gets_run finished
        have repeated := each written (by rw [logged, gets]; simp) contentTypeHeader (by decide)
        rw [counts contentTypeHeader (by decide)] at repeated
        omega

/-- The header queue of a run is in order exactly when its requests connect at
    first, and then fail at most three times without another request connecting. -/
theorem queueDisciplined_iff (presses : List Press) :
    QueueDisciplined switchedOn presses ↔ ∃ connections failures, failures ≤ 3 ∧
      presses.map (fun press => press.exchange.connects) =
        List.replicate connections true ++ List.replicate failures false := by
  rw [queueDisciplined_iff_inOrder pending_switchedOn (fun _ member => by cases member) presses,
    inOrder_zero_iff]

/-- Four failed requests in a row, or a failed one before one that connects, break
    the discipline. -/
theorem queue_not_disciplined :
    ¬ QueueDisciplined switchedOn (List.replicate 4 ⟨0, ⟨false, []⟩⟩) ∧
      ¬ QueueDisciplined switchedOn [⟨0, ⟨false, []⟩⟩, ⟨0, ⟨true, []⟩⟩] := by
  constructor
  · rintro ⟨final, finished, -⟩
    cases finished
  · rintro ⟨final, finished, each⟩
    cases finished
    exact absurd (each _ (List.mem_singleton.mpr rfl)) (by decide)

end HomeAutomation.LightSwitch
