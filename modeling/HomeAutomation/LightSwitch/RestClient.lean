import HomeAutomation.Lib.CString

/-! # The REST client of the wired light switch

`RestClient` from the sketch's library, and the part of the sketch that uses it.
What is written to the socket is the list of the strings handed to `write`; how a
connection attempt ends and what the server replies is an `Exchange`.
-/

namespace HomeAutomation.LightSwitch

open HomeAutomation.Lib

/-! ## The library -/

/-- The first `num_headers` entries of `const char* headers[10]`, with the rest of
    the object. -/
structure RestClient where
  host : String
  port : Nat
  headers : List String
  slots : headers.length ≤ 10
  contentType : String
  deriving DecidableEq

namespace RestClient

def new (host : String) (port : Nat) : RestClient where
  host
  port
  headers := []
  slots := Nat.zero_le 10
  contentType := "x-www-form-urlencoded"

def numHeaders (client : RestClient) : Nat := client.headers.length

/-- `headers[num_headers++] = header`; `none` is the write outside the array. -/
def setHeader (header : String) (client : RestClient) : Option RestClient :=
  if free : client.numHeaders < 10 then
    some { client with
      headers := client.headers ++ [header]
      slots := by rw [List.length_append]; exact free }
  else none

/-- The outcome of `connect`, and the characters received until the server closes. -/
structure Exchange where
  connects : Bool
  reply : List Char
  deriving DecidableEq

/-- The local variables of `readResponse`; `statusCode` is filled up to three
    characters, `response` is the text behind the pointer, if there is one. -/
structure Reader where
  currentLineIsBlank : Bool
  httpBody : Bool
  inStatus : Bool
  statusCode : List Char
  code : Int
  response : Option (List Char)

def readChar (r : Reader) (c : Char) : Reader :=
  let inStatus := r.inStatus || c == ' '
  let statusCode :=
    if inStatus && decide (r.statusCode.length < 3) && c != ' ' then r.statusCode ++ [c]
    else r.statusCode
  let code := if statusCode.length = 3 then CString.atoi (CString.ofChars statusCode) else r.code
  if r.httpBody then
    { r with inStatus, statusCode, code, response := r.response.map (· ++ [c]) }
  else
    { r with
      inStatus, statusCode, code
      httpBody := c == '\n' && r.currentLineIsBlank
      currentLineIsBlank := if c = '\n' then true else if c ≠ '\r' then false
        else r.currentLineIsBlank }

/-- The status code, and the response with the body appended. -/
def readResponse (reply : List Char) (response : Option (List Char)) :
    Int × Option (List Char) :=
  let r := reply.foldl readChar ⟨true, false, false, [], 0, response⟩
  (r.code, r.response)

/-- What `request` writes, in order. -/
def requestText (client : RestClient) (method path : String) (body : Option String) :
    List String :=
  [method, " ", path, " HTTP/1.1\r\n"] ++
    client.headers.flatMap (fun header => [header, "\r\n"]) ++
    ["Host: ", client.host, "\r\n", "Connection: close\r\n"] ++
    (match body with
      | some body => ["Content-Length: " ++ toString body.utf8ByteSize ++ "\r\n",
          "Content-Type: ", client.contentType, "\r\n"]
      | none => []) ++
    ["\r\n"] ++
    match body with
      | some body => [body, "\r\n", "\r\n"]
      | none => []

/-- What a request leaves behind: the object, the strings written, the status code
    and the response. -/
structure Result where
  client : RestClient
  written : List String
  statusCode : Int
  response : Option (List Char)

def request (method path : String) (body : Option String) (response : Option (List Char))
    (exchange : Exchange) (client : RestClient) : Result :=
  if exchange.connects then
    let (statusCode, response) := readResponse exchange.reply response
    -- num_headers = 0
    ⟨{ client with headers := [], slots := Nat.zero_le 10 }, client.requestText method path body,
      statusCode, response⟩
  else ⟨client, [], 0, response⟩

def get (path : String) (exchange : Exchange) (client : RestClient) : Result :=
  client.request "GET" path none none exchange

end RestClient

/-! ## The sketch -/

open RestClient

def openhabHost : String := "192.168.2.3"
def openhabPort : Nat := 8080

def contentTypeHeader : String := "Content-Type:text/plain"
def acceptHeader : String := "Accept:application/json"
def hostHeader : String := "Host:192.168.2.3:8080"

/-- `CONTENT_TYPE`, `ACCEPT` and `HOST` -/
def apiHeaders : List String := [contentTypeHeader, acceptHeader, hostHeader]

def lightsUrlByButtonNumber (buttonNumber : Nat) : String :=
  match buttonNumber with
  | 0 => "/basicui/CMD?Light_1=TOGGLE"
  | 1 => "/basicui/CMD?Light_2=TOGGLE"
  | 2 => "/basicui/CMD?Light_3=TOGGLE"
  | 3 => "/basicui/CMD?Power_3=TOGGLE"
  | 4 => "/basicui/CMD?Virtual_Switch_5=TOGGLE"
  | _ => ""

def setHeaders (client : RestClient) : Option RestClient := do
  let client ← client.setHeader contentTypeHeader
  let client ← client.setHeader acceptHeader
  client.setHeader hostHeader

/-- `none` when queueing the headers writes outside the array. -/
def sendRequestToApi (bNumber : Nat) (exchange : Exchange) (client : RestClient) :
    Option Result := do
  let client ← setHeaders client
  return client.get (lightsUrlByButtonNumber bNumber) exchange

end HomeAutomation.LightSwitch
