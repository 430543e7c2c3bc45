import HomeAutomation.LightSwitch.RestClient
import Mathlib.Data.List.Induction
import Mathlib.Data.List.TakeWhile

/-! # What the client makes of a reply

`readResponse` looks at one character at a time and keeps six variables.  Here is what
it computes, as a function of the reply as a whole: `statusText` are the characters
it takes for the status code, `behindBlankLine` is the text behind the first blank line.
A reply that is written as the protocol asks is read back.
-/

namespace HomeAutomation.LightSwitch

open HomeAutomation.Lib RestClient

/-! ## The status code -/

/-- The first three characters other than blanks, from the first blank on. -/
def statusText (reply : List Char) : List Char :=
  ((reply.dropWhile (· != ' ')).filter (· != ' ')).take 3

def statusOf (reply : List Char) : Int :=
  if (statusText reply).length = 3 then CString.atoi (CString.ofChars (statusText reply)) else 0

theorem statusText_snoc (reply : List Char) (c : Char) :
    statusText (reply ++ [c]) =
      if ' ' ∈ reply ++ [c] ∧ (statusText reply).length < 3 ∧ c ≠ ' ' then statusText reply ++ [c]
      else statusText reply := by
  unfold statusText
  by_cases started : ' ' ∈ reply
  case pos =>
    have behind : (reply ++ [c]).dropWhile (· != ' ') = reply.dropWhile (· != ' ') ++ [c] := by
      have kept : reply.dropWhile (· != ' ') ≠ [] := by
        rw [ne_eq, List.dropWhile_eq_nil_iff]
        intro none
        simpa using none ' ' started
      rw [List.dropWhile_append, if_neg (by simpa using kept)]
    rw [behind, List.filter_append]
    by_cases blank : c = ' '
    · simp [blank]
    · generalize (reply.dropWhile (· != ' ')).filter (· != ' ') = text
      by_cases room : text.length < 3
      · have short : text.length ≤ 3 := Nat.le_of_lt room
        simp [blank, started, room, List.take_append, List.take_of_length_le short,
          List.take_of_length_le (show [c].length ≤ 3 - text.length by simp; omega)]
      · have full : ¬ min 3 text.length < 3 := by omega
        simp [full, List.take_append, show 3 - text.length = 0 by omega]
  case neg =>
    have all : ∀ d ∈ reply, (d != ' ') = true := by
      intro d member
      simpa using ne_of_mem_of_not_mem member started
    have none : reply.dropWhile (· != ' ') = [] := List.dropWhile_eq_nil_iff.mpr all
    rw [List.dropWhile_append_of_pos all, none]
    by_cases blank : c = ' '
    · simp [blank]
    · simp [blank, started, Ne.symm blank]

/-- The variables that decide the status code, after any part of a reply. -/
theorem foldl_readChar_status (response : Option (List Char)) (reply : List Char) :
    (reply.foldl readChar ⟨true, false, false, [], 0, response⟩).inStatus =
        decide (' ' ∈ reply) ∧
      (reply.foldl readChar ⟨true, false, false, [], 0, response⟩).statusCode = statusText reply ∧
      (reply.foldl readChar ⟨true, false, false, [], 0, response⟩).code = statusOf reply := by
  induction reply using List.reverseRecOn with
  | nil => exact ⟨rfl, rfl, rfl⟩
  | append_singleton reply c inductionHypothesis =>
    rw [List.foldl_append, List.foldl_cons, List.foldl_nil]
    generalize reply.foldl readChar ⟨true, false, false, [], 0, response⟩ = r
      at inductionHypothesis ⊢
    obtain ⟨inStatus, statusCode, code⟩ := inductionHypothesis
    have started : (readChar r c).inStatus = decide (' ' ∈ reply ++ [c]) := by
      by_cases blank : c = ' '
      · cases body : r.httpBody <;> simp [readChar, body, blank]
      · cases body : r.httpBody <;> simp [readChar, body, inStatus, blank, Ne.symm blank]
    have text : (readChar r c).statusCode = statusText (reply ++ [c]) := by
      rw [statusText_snoc]
      by_cases blank : c = ' '
      · cases body : r.httpBody <;> simp [readChar, body, statusCode, blank]
      · cases body : r.httpBody <;>
          simp [readChar, body, inStatus, statusCode, blank, Ne.symm blank]
    refine ⟨started, text, ?_⟩
    have number : (readChar r c).code =
        if (readChar r c).statusCode.length = 3 then
          CString.atoi (CString.ofChars (readChar r c).statusCode)
        else r.code := by
      cases body : r.httpBody <;> simp only [readChar, body] <;> rfl
    rw [number, text, statusOf]
    split
    · rfl
    · -- a code that is not complete yet was not complete before
      rename_i short
      have shorter : (statusText reply).length ≠ 3 := by
        intro full
        rw [statusText_snoc, full] at short
        simp at short
        exact short full
      rw [code, statusOf, if_neg shorter]

/-! ## The body -/

/-- The text behind the first blank line; `blank` says that the present line has had no
    character but carriage returns. -/
def behindBlankLine : Bool → List Char → Option (List Char)
  | _, [] => none
  | blank, c :: rest =>
    if c = '\n' then if blank then some rest else behindBlankLine true rest
    else behindBlankLine (blank && c == '\r') rest

theorem response_foldl_of_httpBody {r : Reader} (body : r.httpBody = true) (text : List Char) :
    (text.foldl readChar r).response = r.response.map (· ++ text) := by
  induction text generalizing r with
  | nil => cases present : r.response <;> simp [present]
  | cons c text inductionHypothesis =>
    have step : (readChar r c).response = r.response.map (· ++ [c]) := by simp [readChar, body]
    have still : (readChar r c).httpBody = true := by simp [readChar, body]
    rw [List.foldl_cons, inductionHypothesis still, step]
    cases r.response <;> simp

theorem response_foldl {r : Reader} (head : r.httpBody = false) (text : List Char) :
    (text.foldl readChar r).response =
      r.response.map (· ++ (behindBlankLine r.currentLineIsBlank text).getD []) := by
  induction text generalizing r with
  | nil => cases present : r.response <;> simp [behindBlankLine, present]
  | cons c text inductionHypothesis =>
    have kept : (readChar r c).response = r.response := by simp [readChar, head]
    have enters : (readChar r c).httpBody = (c == '\n' && r.currentLineIsBlank) := by
      simp [readChar, head]
    have line : (readChar r c).currentLineIsBlank =
        if c = '\n' then true else if c ≠ '\r' then false else r.currentLineIsBlank := by
      simp [readChar, head]
    rw [List.foldl_cons, behindBlankLine]
    by_cases newline : c = '\n'
    · subst newline
      cases blank : r.currentLineIsBlank with
      | true =>
        -- the blank line ends here, what follows is the body
        rw [response_foldl_of_httpBody (by simp [enters, blank]), kept]
        simp
      | false =>
        rw [inductionHypothesis (by simp [enters, blank]), kept, line]
        simp
    · rw [inductionHypothesis (by simp [enters, newline]), kept, line, if_neg newline,
        if_neg newline]
      by_cases carriageReturn : c = '\r'
      · simp [carriageReturn]
      · have other : (c == '\r') = false := by simpa using carriageReturn
        rw [other, Bool.and_false, if_pos carriageReturn]

/-- Every reply, well-formed or not: the code is that of `statusText`, and what stands
    behind the first blank line is appended to the response. -/
theorem readResponse_eq (reply : List Char) (response : Option (List Char)) :
    readResponse reply response =
      (statusOf reply, response.map (· ++ (behindBlankLine true reply).getD [])) := by
  rw [readResponse, (foldl_readChar_status response reply).2.2, response_foldl rfl]

/-! ## Replies of a server -/

/-- A line of text that is not blank. -/
structure HeaderLine where
  chars : List Char
  oneLine : '\n' ∉ chars
  notBlank : ∃ c ∈ chars, c ≠ '\r'

/-- A reply with its status line, its headers and its body. -/
structure ServerReply where
  version : List Char
  code : Nat
  reason : List Char
  headers : List HeaderLine
  body : List Char
  oneWord : ' ' ∉ version ∧ '\n' ∉ version
  threeDigits : 100 ≤ code ∧ code ≤ 999
  oneLine : '\n' ∉ reason

namespace ServerReply

def crlf : List Char := ['\r', '\n']

def statusLine (reply : ServerReply) : List Char :=
  reply.version ++ ' ' :: (Nat.toDigits 10 reply.code ++ ' ' :: reply.reason)

/-- What the server sends. -/
def render (reply : ServerReply) : List Char :=
  reply.statusLine ++ crlf ++ reply.headers.flatMap (fun line => line.chars ++ crlf) ++ crlf ++
    reply.body

theorem length_digits (reply : ServerReply) : (Nat.toDigits 10 reply.code).length = 3 := by
  have upper := (Nat.length_toDigits_le_iff (n := reply.code) (k := 3) (show 1 < 10 by decide)
    (by decide)).mpr (Nat.lt_succ_of_le reply.threeDigits.2)
  have lower := Nat.length_toDigits_le_iff (n := reply.code) (k := 2) (show 1 < 10 by decide)
    (by decide)
  have notTwo : ¬ reply.code < 10 ^ 2 := Nat.not_lt_of_le reply.threeDigits.1
  rw [← lower] at notTwo
  omega

theorem statusText_render (reply : ServerReply) :
    statusText reply.render = Nat.toDigits 10 reply.code := by
  have version : ∀ c ∈ reply.version, (c != ' ') = true := by
    intro c member
    simpa using ne_of_mem_of_not_mem member reply.oneWord.1
  have digits : (Nat.toDigits 10 reply.code).filter (· != ' ') = Nat.toDigits 10 reply.code := by
    apply List.filter_eq_self.mpr
    intro c member
    have digit := CString.isdigit_of_mem_toDigits member
    have notBlank : c ≠ ' ' := by
      rintro rfl
      exact absurd digit (by decide)
    simpa using notBlank
  simp only [statusText, render, statusLine, List.append_assoc, List.cons_append]
  rw [List.dropWhile_append_of_pos version, List.dropWhile_cons_of_neg (by simp),
    List.filter_cons_of_neg (by simp), List.filter_append, digits, List.take_append,
    reply.length_digits, List.take_of_length_le (Nat.le_of_eq reply.length_digits)]
  simp

theorem statusOf_render (reply : ServerReply) : statusOf reply.render = reply.code := by
  have text : CString.ofChars (Nat.toDigits 10 reply.code) = CString.itoa reply.code := by
    apply CString.ext
    rw [CString.chars_ofChars (CString.nul_notMem_toDigits _)]
    have nonnegative : ¬ ((reply.code : Int) < 0) := by omega
    simp [CString.itoa, nonnegative]
  rw [statusOf, statusText_render, if_pos reply.length_digits, text, CString.atoi_itoa]

/-- A line that is not blank is passed over, with its end. -/
theorem behindBlankLine_line {chars : List Char} (oneLine : '\n' ∉ chars) (blank : Bool)
    (rest : List Char) :
    behindBlankLine blank (chars ++ '\n' :: rest) =
      if blank && chars.all (· == '\r') then some rest else behindBlankLine true rest := by
  induction chars generalizing blank with
  | nil => cases blank <;> simp [behindBlankLine]
  | cons c chars inductionHypothesis =>
    rw [List.mem_cons, not_or] at oneLine
    rw [List.cons_append, behindBlankLine, if_neg (Ne.symm oneLine.1),
      inductionHypothesis oneLine.2, List.all_cons, Bool.and_assoc]

theorem behindBlankLine_of_notBlank {chars : List Char} (oneLine : '\n' ∉ chars)
    (notBlank : ∃ c ∈ chars, c ≠ '\r') (rest : List Char) :
    behindBlankLine true (chars ++ crlf ++ rest) = behindBlankLine true rest := by
  obtain ⟨c, member, differs⟩ := notBlank
  have ended : '\n' ∉ chars ++ ['\r'] := by simpa using oneLine
  have line := behindBlankLine_line ended true rest
  have kept : (chars ++ ['\r']).all (· == '\r') = false := by
    rw [List.all_eq_false]
    exact ⟨c, List.mem_append_left _ member, by simpa using differs⟩
  rw [kept] at line
  simpa [crlf] using line

theorem behindBlankLine_headers (headers : List HeaderLine) (body : List Char) :
    behindBlankLine true (headers.flatMap (fun line => line.chars ++ crlf) ++ (crlf ++ body)) =
      some body := by
  induction headers with
  | nil => simp [crlf, behindBlankLine]
  | cons line headers inductionHypothesis =>
    rw [List.flatMap_cons, List.append_assoc,
      behindBlankLine_of_notBlank line.oneLine line.notBlank, inductionHypothesis]

theorem behindBlankLine_render (reply : ServerReply) :
    behindBlankLine true reply.render = some reply.body := by
  have digits : '\n' ∉ Nat.toDigits 10 reply.code := by
    intro member
    exact absurd (CString.isdigit_of_mem_toDigits member) (by decide)
  have oneLine : '\n' ∉ reply.statusLine := by
    simp [statusLine, reply.oneWord.2, digits, reply.oneLine]
  have notBlank : ∃ c ∈ reply.statusLine, c ≠ '\r' := ⟨' ', by simp [statusLine], by decide⟩
  rw [render, List.append_assoc, List.append_assoc,
    behindBlankLine_of_notBlank oneLine notBlank, behindBlankLine_headers]

/-- The code and the body of a reply are read back, whatever its headers are. -/
theorem readResponse_render (reply : ServerReply) (response : Option (List Char)) :
    readResponse reply.render response = ((reply.code : Int), response.map (· ++ reply.body)) := by
  rw [readResponse_eq, statusOf_render, behindBlankLine_render, Option.getD_some]

/-- A reply with two headers, and a blank line within its body. -/
def switched : ServerReply where
  version := "HTTP/1.1".toList
  code := 200
  reason := "OK".toList
  headers := [⟨"Server: Jetty".toList, by decide, ⟨'S', by decide, by decide⟩⟩,
    ⟨"Content-Length: 6".toList, by decide, ⟨'C', by decide, by decide⟩⟩]
  body := "ON\r\n\r\n".toList
  oneWord := by decide
  threeDigits := by decide
  oneLine := by decide

theorem readResponse_render_switched :
    readResponse "HTTP/1.1 200 OK\r\nServer: Jetty\r\nContent-Length: 6\r\n\r\nON\r\n\r\n".toList
        (some []) =
      (200, some "ON\r\n\r\n".toList) :=
  have sent : switched.render =
      "HTTP/1.1 200 OK\r\nServer: Jetty\r\nContent-Length: 6\r\n\r\nON\r\n\r\n".toList := by
    decide
  sent ▸ readResponse_render switched (some [])

end ServerReply

end HomeAutomation.LightSwitch
