import Mathlib

/-! # Reading an HTTP request

What a server makes of the text that arrives on a connection: the request line, the header
lines up to the blank one, and as much of the rest as `Content-Length` says, counted in
bytes of UTF-8.  A request that is written out is read back, and what follows is left.
-/

namespace HomeAutomation.Lib.Http

def crlf : List Char := ['\r', '\n']

/-! ## Lines -/

/-- The text before the first line end, and the text behind it. -/
def takeLine : List Char → Option (List Char × List Char)
  | [] => none
  | c :: rest =>
    if c = '\r' ∧ rest.head? = some '\n' then some ([], rest.tail)
    else (takeLine rest).map fun (line, rest) => (c :: line, rest)

theorem takeLine_append {line : List Char} (oneLine : '\n' ∉ line) (rest : List Char) :
    takeLine (line ++ crlf ++ rest) = some (line, rest) := by
  induction line with
  | nil => simp [crlf, takeLine]
  | cons c line inductionHypothesis =>
    rw [List.mem_cons, not_or] at oneLine
    have next : (line ++ crlf ++ rest).head? ≠ some '\n' := by
      cases line with
      | nil => simp [crlf]
      | cons d line =>
        rw [List.mem_cons, not_or] at oneLine
        simpa using Ne.symm oneLine.2.1
    rw [List.cons_append, List.cons_append, takeLine, if_neg fun ends => next ends.2,
      inductionHypothesis oneLine.2]
    rfl

/-- The text before the first blank, and the text behind it. -/
def takeWord : List Char → Option (List Char × List Char)
  | [] => none
  | c :: rest =>
    if c = ' ' then some ([], rest) else (takeWord rest).map fun (word, rest) => (c :: word, rest)

theorem takeWord_append {word : List Char} (oneWord : ' ' ∉ word) (rest : List Char) :
    takeWord (word ++ ' ' :: rest) = some (word, rest) := by
  induction word with
  | nil => simp [takeWord]
  | cons c word inductionHypothesis =>
    rw [List.mem_cons, not_or] at oneWord
    rw [List.cons_append, takeWord, if_neg (Ne.symm oneWord.1), inductionHypothesis oneWord.2]
    rfl

/-! ## Header lines -/

/-- The header lines, and the text behind the blank line. -/
def takeHeaders : (lines : Nat) → List Char → Option (List (List Char) × List Char)
  | 0, _ => none
  | lines + 1, text => do
    let (line, rest) ← takeLine text
    if line = [] then return ([], rest)
    else
      let (headers, rest) ← takeHeaders lines rest
      return (line :: headers, rest)

/-- A line that can stand among the headers. -/
structure HeaderLine (line : List Char) : Prop where
  oneLine : '\n' ∉ line
  notBlank : line ≠ []

theorem takeHeaders_append {headers : List (List Char)} (lines : ∀ line ∈ headers, HeaderLine line)
    {count : Nat} (enough : headers.length < count) (rest : List Char) :
    takeHeaders count (headers.flatMap (· ++ crlf) ++ crlf ++ rest) = some (headers, rest) := by
  induction headers generalizing count with
  | nil =>
    obtain ⟨count, rfl⟩ := Nat.exists_eq_succ_of_ne_zero (Nat.ne_of_gt enough)
    have blank : takeLine ([] ++ crlf ++ rest) = some ([], rest) :=
      takeLine_append List.not_mem_nil rest
    rw [List.flatMap_nil, takeHeaders, blank]
    rfl
  | cons line headers inductionHypothesis =>
    obtain ⟨count, rfl⟩ := Nat.exists_eq_succ_of_ne_zero (Nat.ne_of_gt (Nat.zero_lt_of_lt enough))
    have first := lines line List.mem_cons_self
    have taken := takeLine_append first.oneLine (headers.flatMap (· ++ crlf) ++ crlf ++ rest)
    have others := inductionHypothesis (fun line member => lines line (List.mem_cons_of_mem _ member))
      (Nat.lt_of_succ_lt_succ enough)
    simp only [List.flatMap_cons, List.append_assoc] at taken others ⊢
    rw [takeHeaders, taken]
    simp only [Option.bind_eq_bind, Option.bind_some, if_neg first.notBlank, others]
    rfl

def fieldName (line : List Char) : List Char := (line.takeWhile (· != ':')).map Char.toLower

def fieldValue (line : List Char) : List Char :=
  (line.dropWhile (· != ':')).tail.dropWhile (· == ' ')

theorem fieldName_append {name value : List Char} (noColon : ':' ∉ name) :
    fieldName (name ++ ':' :: value) = name.map Char.toLower := by
  have all : ∀ c ∈ name, (c != ':') = true := by
    intro c member
    simpa using ne_of_mem_of_not_mem member noColon
  rw [fieldName, List.takeWhile_append_of_pos all, List.takeWhile_cons_of_neg (by simp),
    List.append_nil]

theorem fieldValue_append {name value : List Char} (noColon : ':' ∉ name)
    (starts : ∀ c ∈ value.head?, c ≠ ' ') :
    fieldValue (name ++ ':' :: ' ' :: value) = value := by
  have all : ∀ c ∈ name, (c != ':') = true := by
    intro c member
    simpa using ne_of_mem_of_not_mem member noColon
  rw [fieldValue, List.dropWhile_append_of_pos all, List.dropWhile_cons_of_neg (by simp),
    List.tail_cons, List.dropWhile_cons_of_pos (by simp)]
  cases value with
  | nil => rfl
  | cons c value => exact List.dropWhile_cons_of_neg (by simpa using starts c rfl)

/-! ## The body -/

def contentLengthName : List Char := "content-length".toList

def decimal (digits : List Char) : Option Nat :=
  if digits ≠ [] ∧ digits.all Char.isDigit then some (Nat.ofDigitChars 10 digits 0) else none

/-- Without the header there is no body. -/
def contentLength (headers : List (List Char)) : Option Nat :=
  match headers.find? fun line => fieldName line == contentLengthName with
  | none => some 0
  | some line => decimal (fieldValue line)

theorem contentLength_append {first : List (List Char)}
    (others : ∀ line ∈ first, fieldName line ≠ contentLengthName) (rest : List (List Char)) :
    contentLength (first ++ rest) = contentLength rest := by
  have none : (first.find? fun line => fieldName line == contentLengthName) = none := by
    rw [List.find?_eq_none]
    intro line member
    simpa using others line member
  rw [contentLength, contentLength, List.find?_append, none, Option.none_or]

theorem contentLength_cons {line : List Char} (named : fieldName line = contentLengthName)
    (rest : List (List Char)) : contentLength (line :: rest) = decimal (fieldValue line) := by
  rw [contentLength, List.find?_cons_of_pos (by simp [named])]

/-- So many bytes of the text, and the rest; no character is taken apart. -/
def takeBytes : (bytes : Nat) → List Char → Option (List Char × List Char)
  | 0, text => some ([], text)
  | _ + 1, [] => none
  | bytes + 1, c :: rest =>
    if c.utf8Size ≤ bytes + 1 then
      (takeBytes (bytes + 1 - c.utf8Size) rest).map fun (body, rest) => (c :: body, rest)
    else none

def byteSize (text : List Char) : Nat := (text.map Char.utf8Size).sum

theorem takeBytes_append (body rest : List Char) :
    takeBytes (byteSize body) (body ++ rest) = some (body, rest) := by
  induction body with
  | nil => rw [show byteSize [] = 0 from rfl, List.nil_append, takeBytes]
  | cons c body inductionHypothesis =>
    have size : byteSize (c :: body) = (c.utf8Size + byteSize body - 1) + 1 := by
      have positive := Char.utf8Size_pos c
      rw [byteSize, List.map_cons, List.sum_cons, byteSize]
      omega
    have positive := Char.utf8Size_pos c
    rw [size, List.cons_append, takeBytes, if_pos (by omega),
      show c.utf8Size + byteSize body - 1 + 1 - c.utf8Size = byteSize body by omega,
      inductionHypothesis]
    rfl

/-! ## Requests -/

structure Request where
  method : List Char
  path : List Char
  version : List Char
  headers : List (List Char)
  body : List Char
  deriving DecidableEq

/-- The request, and the text that follows it. -/
def readRequest (text : List Char) : Option (Request × List Char) := do
  let (line, rest) ← takeLine text
  let (method, line) ← takeWord line
  let (path, version) ← takeWord line
  let (headers, rest) ← takeHeaders rest.length rest
  let length ← contentLength headers
  let (body, rest) ← takeBytes length rest
  return (⟨method, path, version, headers, body⟩, rest)

namespace Request

def render (request : Request) : List Char :=
  request.method ++ ' ' :: (request.path ++ ' ' :: request.version) ++ crlf ++
    request.headers.flatMap (· ++ crlf) ++ crlf ++ request.body

/-- The parts do not contain what ends them, and the header gives the length of the body. -/
structure WellFormed (request : Request) : Prop where
  method : ' ' ∉ request.method ∧ '\n' ∉ request.method
  path : ' ' ∉ request.path ∧ '\n' ∉ request.path
  version : '\n' ∉ request.version
  headers : ∀ line ∈ request.headers, HeaderLine line
  length : contentLength request.headers = some (byteSize request.body)

theorem length_le_flatMap (headers : List (List Char)) :
    headers.length ≤ (headers.flatMap (· ++ crlf)).length := by
  induction headers with
  | nil => exact Nat.le_refl 0
  | cons line headers inductionHypothesis =>
    rw [List.flatMap_cons, List.length_cons, List.length_append, List.length_append]
    have two : crlf.length = 2 := rfl
    omega

theorem readRequest_render {request : Request} (wellFormed : request.WellFormed)
    (rest : List Char) : readRequest (request.render ++ rest) = some (request, rest) := by
  have startLine : '\n' ∉ request.method ++ ' ' :: (request.path ++ ' ' :: request.version) := by
    simp [wellFormed.method.2, wellFormed.path.2, wellFormed.version]
  have enough : request.headers.length <
      (request.headers.flatMap (· ++ crlf) ++ crlf ++ (request.body ++ rest)).length := by
    have least := length_le_flatMap request.headers
    have two : crlf.length = 2 := rfl
    rw [List.length_append, List.length_append]
    omega
  have text : request.render ++ rest =
      (request.method ++ ' ' :: (request.path ++ ' ' :: request.version)) ++ crlf ++
        (request.headers.flatMap (· ++ crlf) ++ crlf ++ (request.body ++ rest)) := by
    simp [render]
  rw [text, readRequest, takeLine_append startLine]
  simp only [Option.bind_eq_bind, Option.bind_some]
  rw [takeWord_append wellFormed.method.1]
  simp only [Option.bind_some]
  rw [takeWord_append wellFormed.path.1]
  simp only [Option.bind_some]
  rw [takeHeaders_append wellFormed.headers enough]
  simp only [Option.bind_some]
  rw [wellFormed.length, Option.bind_some, takeBytes_append]
  rfl

end Request

end HomeAutomation.Lib.Http
