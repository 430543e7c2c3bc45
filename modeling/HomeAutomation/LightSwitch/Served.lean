import HomeAutomation.Lib.Http
import Mathlib.Data.List.Forall2
import HomeAutomation.LightSwitch.HeaderQueue

/-! # What the server reads

`request` writes its text piece by piece.  A server that reads the request line, the headers
and as many bytes as `Content-Length` says gets back what the request was made of; the two
line ends behind a body are left over.  In a run of the sketch it reads the presses whose
requests connected, in order, with the headers of those that did not connect before them.
-/

namespace HomeAutomation.LightSwitch

open HomeAutomation.Lib HomeAutomation.Lib.Transition RestClient

namespace RestClient

/-- The characters that are sent. -/
def sentText (written : List String) : List Char := written.flatMap String.toList

def contentLengthLine (body : String) : String := "Content-Length: " ++ toString body.utf8ByteSize

/-- The request as it is meant. -/
def httpRequest (client : RestClient) (method path : String) (body : Option String) :
    Http.Request where
  method := method.toList
  path := path.toList
  version := "HTTP/1.1".toList
  headers := (client.headers ++ ["Host: " ++ client.host, "Connection: close"] ++
    match body with
    | some body => [contentLengthLine body, "Content-Type: " ++ client.contentType]
    | none => []).map String.toList
  body := (body.getD "").toList

/-- What is written behind a body. -/
def trailer : Option String → List Char
  | some _ => Http.crlf ++ Http.crlf
  | none => []

theorem flatMap_headerLines (headers : List String) :
    (headers.flatMap fun header => [header, "\r\n"]).flatMap String.toList =
      (headers.map String.toList).flatMap (· ++ Http.crlf) := by
  induction headers with
  | nil => rfl
  | cons header headers inductionHypothesis =>
    rw [List.flatMap_cons, List.flatMap_append, inductionHypothesis, List.map_cons,
      List.flatMap_cons]
    simp [Http.crlf]

theorem sentText_requestText (client : RestClient) (method path : String) (body : Option String) :
    sentText (client.requestText method path body) =
      (client.httpRequest method path body).render ++ trailer body := by
  have lines := flatMap_headerLines client.headers
  -- the strings that are written, as characters
  have blank : " ".toList = [' '] := by decide
  have lineEnd : "\r\n".toList = Http.crlf := by decide
  have version : " HTTP/1.1\r\n".toList = ' ' :: ("HTTP/1.1".toList ++ Http.crlf) := by decide
  have close : "Connection: close\r\n".toList = "Connection: close".toList ++ Http.crlf := by decide
  have host : ("Host: " ++ client.host).toList = "Host: ".toList ++ client.host.toList :=
    String.toList_append
  cases body with
  | none =>
    simp only [sentText, requestText, httpRequest, Http.Request.render, trailer, List.flatMap_append,
      lines, List.map_append, List.flatMap_cons, List.flatMap_nil, List.map_cons, List.map_nil,
      host, blank, lineEnd, version, close, List.append_assoc, List.cons_append,
      List.nil_append, List.append_nil, Option.getD_none, String.toList_empty]
  | some body =>
    have length : ("Content-Length: " ++ toString body.utf8ByteSize ++ "\r\n").toList =
        (contentLengthLine body).toList ++ Http.crlf := String.toList_append
    have type : ("Content-Type: " ++ client.contentType).toList =
        "Content-Type: ".toList ++ client.contentType.toList := String.toList_append
    simp only [sentText, requestText, httpRequest, Http.Request.render, trailer, List.flatMap_append,
      lines, List.map_append, List.flatMap_cons, List.flatMap_nil, List.map_cons, List.map_nil,
      host, length, type, blank, lineEnd, version, close, List.append_assoc, List.cons_append,
      List.nil_append, List.append_nil, Option.getD_some]

/-! ## Requests that can be read back -/

/-- Nothing contains what ends it, and no header that is queued gives a length. -/
structure Sendable (client : RestClient) (method path : String) (body : Option String) : Prop where
  method : ' ' ∉ method.toList ∧ '\n' ∉ method.toList
  path : ' ' ∉ path.toList ∧ '\n' ∉ path.toList
  headers : ∀ header ∈ client.headers, Http.HeaderLine header.toList ∧
    Http.fieldName header.toList ≠ Http.contentLengthName
  host : '\n' ∉ client.host.toList
  contentType : body ≠ none → '\n' ∉ client.contentType.toList

theorem byteSize_toList (text : String) : Http.byteSize text.toList = text.utf8ByteSize := by
  rw [← String.size_toByteArray, ← String.utf8Encode_toList, Http.byteSize, List.utf8Encode]
  simp [List.length_flatMap]

theorem decimal_toDigits (n : Nat) : Http.decimal (Nat.toDigits 10 n) = some n := by
  have digits : (Nat.toDigits 10 n).all Char.isDigit = true := by
    rw [List.all_eq_true]
    exact fun c member => CString.isdigit_of_mem_toDigits member
  rw [Http.decimal, if_pos ⟨Nat.toDigits_ne_nil, digits⟩, Nat.ofDigitChars_ten_toDigits]

theorem toList_contentLengthLine (body : String) :
    (contentLengthLine body).toList =
      "Content-Length".toList ++ ':' :: ' ' :: Nat.toDigits 10 body.utf8ByteSize := by
  have name : "Content-Length: ".toList = "Content-Length".toList ++ [':', ' '] := by decide
  have digits : (toString body.utf8ByteSize).toList = Nat.toDigits 10 body.utf8ByteSize := by
    rw [Nat.toString_eq_ofList_toDigits, String.toList_ofList]
  have text : (contentLengthLine body).toList =
      "Content-Length: ".toList ++ (toString body.utf8ByteSize).toList := String.toList_append
  rw [text, name, digits, List.append_assoc]
  rfl

theorem fieldValue_contentLengthLine (body : String) :
    Http.fieldValue (contentLengthLine body).toList = Nat.toDigits 10 body.utf8ByteSize := by
  rw [toList_contentLengthLine]
  refine Http.fieldValue_append (by decide) fun c first => ?_
  rintro rfl
  have digit := CString.isdigit_of_mem_toDigits (List.mem_of_mem_head? first)
  exact absurd digit (by decide)

theorem fieldName_contentLengthLine (body : String) :
    Http.fieldName (contentLengthLine body).toList = Http.contentLengthName := by
  rw [toList_contentLengthLine, Http.fieldName_append (by decide)]
  decide

/-- A header of the client itself, with a value. -/
theorem headerLine_append {name : String} (oneLine : '\n' ∉ name.toList) (notBlank : name ≠ "")
    {value : String} (oneLineValue : '\n' ∉ value.toList) :
    Http.HeaderLine (name ++ value).toList where
  oneLine := by
    rw [String.toList_append, List.mem_append, not_or]
    exact ⟨oneLine, oneLineValue⟩
  notBlank := by
    simp [notBlank]

theorem headerLine_contentLengthLine (body : String) :
    Http.HeaderLine (contentLengthLine body).toList := by
  refine headerLine_append (by decide) (by decide) fun member => ?_
  have digit : '\n' ∈ Nat.toDigits 10 body.utf8ByteSize := by
    rwa [Nat.toString_eq_ofList_toDigits, String.toList_ofList] at member
  exact absurd (CString.isdigit_of_mem_toDigits digit) (by decide)

theorem fieldName_host (host : String) :
    Http.fieldName ("Host: " ++ host).toList = "host".toList := by
  have name : "Host: ".toList = "Host".toList ++ [':', ' '] := by decide
  have text : ("Host: " ++ host).toList = "Host: ".toList ++ host.toList := String.toList_append
  rw [text, name, List.append_assoc, List.cons_append, Http.fieldName_append (by decide)]
  decide

/-- Before the client's own `Content-Length` there is none. -/
theorem contentLength_httpRequest {client : RestClient} {method path : String}
    {body : Option String} (sendable : Sendable client method path body) :
    Http.contentLength (client.httpRequest method path body).headers =
      some (Http.byteSize (client.httpRequest method path body).body) := by
  have others : ∀ line ∈ (client.headers ++ ["Host: " ++ client.host, "Connection: close"]).map
      String.toList, Http.fieldName line ≠ Http.contentLengthName := by
    intro line member
    obtain ⟨header, among, rfl⟩ := List.mem_map.mp member
    rcases List.mem_append.mp among with queued | own
    · exact (sendable.headers header queued).2
    · rw [List.mem_cons, List.mem_singleton] at own
      rcases own with rfl | rfl
      · rw [fieldName_host]
        decide
      · decide
  have split : (client.httpRequest method path body).headers = _ := List.map_append
  rw [split, Http.contentLength_append others]
  cases body with
  | none => rfl
  | some body =>
    rw [List.map_cons, Http.contentLength_cons (fieldName_contentLengthLine body),
      fieldValue_contentLengthLine, decimal_toDigits]
    exact congrArg Option.some (byteSize_toList body).symm

theorem wellFormed_httpRequest {client : RestClient} {method path : String}
    {body : Option String} (sendable : Sendable client method path body) :
    (client.httpRequest method path body).WellFormed where
  method := sendable.method
  path := sendable.path
  version := show '\n' ∉ "HTTP/1.1".toList by decide
  headers := by
    intro line member
    obtain ⟨header, among, rfl⟩ := List.mem_map.mp member
    rcases List.mem_append.mp among with before | own
    · rcases List.mem_append.mp before with queued | own
      · exact (sendable.headers header queued).1
      · rw [List.mem_cons, List.mem_singleton] at own
        rcases own with rfl | rfl
        · exact headerLine_append (by decide) (by decide) sendable.host
        · exact ⟨by decide, by decide⟩
    · cases body with
      | none => cases own
      | some body =>
        rcases List.mem_pair.mp own with rfl | rfl
        · exact headerLine_contentLengthLine body
        · exact headerLine_append (by decide) (by decide) (sendable.contentType (Option.some_ne_none body))
  length := contentLength_httpRequest sendable

theorem readRequest_requestText {client : RestClient} {method path : String}
    {body : Option String} (sendable : Sendable client method path body) :
    Http.readRequest (sentText (client.requestText method path body)) =
      some (client.httpRequest method path body, trailer body) := by
  rw [sentText_requestText]
  exact Http.Request.readRequest_render (wellFormed_httpRequest sendable) (trailer body)

/-- A request is read back with its method, path and body, behind the headers that were
    queued and those of the client. -/
theorem readRequest_request {client : RestClient} {method path : String}
    {body : Option String} (sendable : Sendable client method path body)
    (response : Option (List Char)) {exchange : Exchange} (connects : exchange.connects = true) :
    Http.readRequest (sentText (client.request method path body response exchange).written) =
      some (client.httpRequest method path body, trailer body) := by
  rw [request, if_pos connects]
  exact readRequest_requestText sendable

/-- The length counts bytes: the first character takes two. -/
theorem readRequest_request_umlaut :
    Http.readRequest (sentText ((RestClient.new "h" 80).request "PUT" "/r" (some "ü1") none
        ⟨true, []⟩).written) =
      some ((RestClient.new "h" 80).httpRequest "PUT" "/r" (some "ü1"), trailer (some "ü1")) :=
  readRequest_request ⟨by decide, by decide, List.forall_mem_nil _, by decide, fun _ => by decide⟩
    none rfl

end RestClient

/-! ## The requests of the sketch -/

/-- The request of a button, with the three headers so many times. -/
def apiRequest (button repeated : Nat) : Http.Request where
  method := "GET".toList
  path := (lightsUrlByButtonNumber button).toList
  version := "HTTP/1.1".toList
  headers := ((List.replicate repeated apiHeaders).flatten ++
    ["Host: 192.168.2.3", "Connection: close"]).map String.toList
  body := []

def hostLines (request : Http.Request) : Nat :=
  request.headers.countP fun line => Http.fieldName line == "host".toList

/-- Each of the sketch's headers names the host once, and the client names it again. -/
theorem hostLines_apiRequest (button repeated : Nat) :
    hostLines (apiRequest button repeated) = repeated + 1 := by
  have once : (apiHeaders.map String.toList).countP
      (fun line => Http.fieldName line == "host".toList) = 1 := by decide
  have own : (["Host: 192.168.2.3", "Connection: close"].map String.toList).countP
      (fun line => Http.fieldName line == "host".toList) = 1 := by decide
  rw [hostLines, apiRequest, List.map_append, List.countP_append, own, List.map_flatten,
    List.map_replicate, List.countP_flatten, List.map_replicate, once, List.sum_replicate_nat,
    Nat.mul_one]

theorem sendable_get {failures : Nat} {client : RestClient} (pending : Pending failures client)
    (button : Nat) : Sendable client "GET" (lightsUrlByButtonNumber button) none where
  method := by decide
  path := by
    unfold lightsUrlByButtonNumber
    split <;> decide
  headers := by
    have each : ∀ header ∈ apiHeaders, Http.HeaderLine header.toList ∧
        Http.fieldName header.toList ≠ Http.contentLengthName := by
      intro header member
      simp only [apiHeaders, List.mem_cons, List.not_mem_nil, or_false] at member
      rcases member with rfl | rfl | rfl <;> exact ⟨⟨by decide, by decide⟩, by decide⟩
    intro header queued
    rw [pending.headers] at queued
    obtain ⟨headers, copy, member⟩ := List.mem_flatten.mp queued
    rw [List.eq_of_mem_replicate copy] at member
    exact each header member
  host := by
    rw [pending.host]
    decide
  contentType := fun some => absurd rfl some

/-- Each press with how often the headers have then been set since the last success. -/
def headersSet : Nat → List Press → List (Press × Nat)
  | _, [] => []
  | failures, press :: presses =>
    (press, failures + 1) ::
      headersSet (if press.exchange.connects then 0 else failures + 1) presses

/-- What the server reads for a press. -/
def ReadBack (served : Press × Nat) (written : List String) : Prop :=
  Http.readRequest (sentText written) = some (apiRequest served.1.button served.2, []) ∧
    hostLines (apiRequest served.1.button served.2) = served.2 + 1

theorem served_pressStep {failures : Nat} {state : Requests} {press : Press}
    (pending : Pending failures state.client) (room : failures ≤ 2)
    (connects : press.exchange.connects = true) :
    ∃ next written, pressStep state press = some next ∧ Pending 0 next.client ∧
      next.gets = state.gets ++ [written] ∧ ReadBack (press, failures + 1) written := by
  obtain ⟨next, _, stepped, pendingEmptied, _⟩ := pressStep_of_connection pending room connects
  obtain ⟨client, queued, pendingNext⟩ := setHeaders_of_room pending room
  have sendable := sendable_get pendingNext press.button
  have meant : client.httpRequest "GET" (lightsUrlByButtonNumber press.button) none =
      apiRequest press.button (failures + 1) := by
    rw [httpRequest, pendingNext.headers, pendingNext.host, List.append_nil]
    rfl
  have read := readRequest_requestText sendable
  rw [meant] at read
  have logged := stepped
  simp only [pressStep, sendRequestToApi, queued, Option.bind_eq_bind, Option.bind_some,
    RestClient.get, request, connects, if_true] at logged
  cases logged
  exact ⟨_, _, stepped, pendingEmptied, rfl, read, hostLines_apiRequest press.button (failures + 1)⟩

/-- From a queue that some failures have filled. -/
theorem served_from {failures : Nat} {state : Requests} {presses : List Press}
    (pending : Pending failures state.client)
    (room : ∀ served ∈ headersSet failures presses, served.2 ≤ 3) :
    ∃ final later, run pressStep state presses = some final ∧ final.gets = state.gets ++ later ∧
      List.Forall₂ ReadBack
        ((headersSet failures presses).filter fun served => served.1.exchange.connects) later := by
  induction presses generalizing failures state with
  | nil => exact ⟨state, [], rfl, (List.append_nil _).symm, List.Forall₂.nil⟩
  | cons press presses inductionHypothesis =>
    -- the queue holds the headers of the failures, and the press adds its own
    rw [headersSet] at room ⊢
    have here : failures ≤ 2 := Nat.le_of_succ_le_succ (room _ List.mem_cons_self)
    have others := fun served among => room served (List.mem_cons_of_mem _ among)
    rw [run_cons]
    cases connects : press.exchange.connects with
    | false =>
      obtain ⟨next, stepped, pendingNext, gets⟩ := pressStep_of_failure pending here connects
      rw [connects, if_neg Bool.false_ne_true] at others
      obtain ⟨final, later, finished, logged, each⟩ := inductionHypothesis pendingNext others
      refine ⟨final, later, ?_, gets ▸ logged, ?_⟩
      · rw [stepped, Option.bind_some, finished]
      · rw [List.filter_cons_of_neg (by simp [connects])]
        exact each
    | true =>
      obtain ⟨next, written, stepped, pendingNext, gets, readBack⟩ :=
        served_pressStep pending here connects
      rw [connects, if_pos rfl] at others
      obtain ⟨final, later, finished, logged, each⟩ := inductionHypothesis pendingNext others
      refine ⟨final, written :: later, ?_, ?_, ?_⟩
      · rw [stepped, Option.bind_some, finished]
      · rw [logged, gets, List.append_assoc, List.singleton_append]
      · rw [List.filter_cons_of_pos (by simp [connects])]
        exact List.Forall₂.cons readBack each

/-- As long as the headers fit in the queue, the server reads the presses whose requests connect,
    in order, each with its headers as often as they were set since the success before it. -/
theorem run_served {presses : List Press}
    (room : ∀ served ∈ headersSet 0 presses, served.2 ≤ 3) :
    ∃ final, run pressStep switchedOn presses = some final ∧
      List.Forall₂ ReadBack
        ((headersSet 0 presses).filter fun served => served.1.exchange.connects) final.gets := by
  obtain ⟨final, later, finished, logged, each⟩ := served_from pending_switchedOn room
  have nothing : switchedOn.gets = [] := rfl
  rw [nothing, List.nil_append] at logged
  exact ⟨final, finished, logged ▸ each⟩

/-- The third request carries the headers of the two before it, which did not connect, and the
    fourth only its own. -/
theorem run_served_repeated :
    ∃ final, run pressStep switchedOn
        [⟨0, ⟨false, []⟩⟩, ⟨1, ⟨false, []⟩⟩, ⟨4, ⟨true, []⟩⟩, ⟨2, ⟨true, []⟩⟩] = some final ∧
      List.Forall₂ ReadBack [(⟨4, ⟨true, []⟩⟩, 3), (⟨2, ⟨true, []⟩⟩, 1)] final.gets :=
  run_served (by decide)

end HomeAutomation.LightSwitch
