import ComputeIntelligence.Dialogues
import ComputeIntelligence.PlatformConfig

/-! # The limit on request bodies

`RequestBodyLimitMiddleware` (`api/app.py`) stands between the server and the rest of the
application.  Both sides are ASGI: the application is handed the scope of a request, a `receive`
and a `send`, and is a `Dialogue` here, so that every application is covered, also one that answers
before it has read the body or that handles what `receive` raises.

For a `POST` to one of the ingestion paths a declared length over the limit is refused at once;
otherwise the middleware counts the bytes as they come, and raises in the middle of the
application's `receive` when they pass the limit.  What it sends then is a second response, if the
application has begun one.
-/
namespace ComputeIntelligence

/-! ### ASGI -/

abbrev Bytes := List UInt8

/-- A message of `receive`: a piece of the body, which may be missing, or any other message. -/
inductive ReceiveMessage where
  | request (body : Option Bytes) (moreBody : Bool)
  | other (type : String)
deriving DecidableEq

/-- A message of `send`. -/
inductive SendMessage where
  | start (status : Nat) (headers : List (Bytes × Bytes))
  | body (body : Bytes) (moreBody : Bool)
  | other (type : String)
deriving DecidableEq

/-- `_RequestBodyTooLargeError`, or any other exception. -/
inductive AppExn (ε : Type) where
  | requestBodyTooLarge
  | other (e : ε)
deriving DecidableEq

/-- An ASGI application that has been handed the scope of one request. -/
abbrev AsgiApp (ε : Type) := Dialogue ReceiveMessage SendMessage (AppExn ε)

/-- What `receive` answers in the course of a request. -/
abbrev Received (ε : Type) := List (Except (AppExn ε) ReceiveMessage)

/-- The part of the ASGI scope that is read; `maxRequestBytes` is `api_max_request_bytes` of the
configuration behind `scope["app"]`, when that is a FastAPI application. -/
structure Scope where
  type : String
  method : String := ""
  path : String := ""
  headers : List (Bytes × Bytes) := []
  maxRequestBytes : Option Int := none

/-- `b.lower()`: only the ASCII letters have a lower case. -/
def lowerBytes (b : Bytes) : Bytes := b.map fun x => if 65 ≤ x ∧ x ≤ 90 then x + 32 else x

/-- `s.encode()` of an ASCII text. -/
def encodeAscii (s : String) : Bytes := s.toList.map fun c => c.toNat.toUInt8

/-- `b.decode("latin-1")`. -/
def decodeLatin1 (b : Bytes) : String := String.ofList (b.map fun x => Char.ofNat x.toNat)

/-- `RequestBodyLimitMiddleware`, without the application it wraps. -/
structure RequestBodyLimitMiddleware where
  defaultMaxBodyBytes : Int := 1048576

namespace RequestBodyLimitMiddleware

def limitedPaths : List String := ["/v1/events/ingest", "/v1/events/ingest/batch"]

/-- `_resolve_limit`. -/
def resolveLimit (m : RequestBodyLimitMiddleware) (scope : Scope) : Int :=
  scope.maxRequestBytes.getD m.defaultMaxBodyBytes

/-- `_content_length`: the first header of that name counts, and says nothing if it is no
integer. -/
def contentLength (scope : Scope) : Option Int :=
  match scope.headers.find? fun header => lowerBytes header.1 = encodeAscii "content-length" with
  | some (_, value) => (PyVal.toInt (.str (decodeLatin1 value))).toOption
  | none => none

def tooLargeText (maxBodyBytes : Int) : String :=
  "\x7b\"detail\":\"request body exceeds configured max " ++ toString maxBodyBytes ++
    " bytes\"\x7d"

/-- The two messages of `_send_too_large`. -/
def tooLargeMessages (maxBodyBytes : Int) : List SendMessage :=
  let body := encodeAscii (tooLargeText maxBodyBytes)
  [.start 413 [(encodeAscii "content-type", encodeAscii "application/json"),
      (encodeAscii "content-length", encodeAscii (toString body.length))],
    .body body false]

/-- `_send_too_large`. -/
def sendTooLarge {ε : Type} (maxBodyBytes : Int) : AsgiApp ε :=
  (tooLargeMessages maxBodyBytes).foldr .say .done

/-- The size of a message, which only a piece of the body has. -/
def size : ReceiveMessage → Nat
  | .request body _ => (body.getD []).length
  | .other _ => 0

/-- One message through `limited_receive`, with the bytes counted so far. -/
def countBody {ε : Type} (maxBodyBytes : Int) (totalBodyBytes : Nat) (message : ReceiveMessage) :
    Nat × Option (AppExn ε) :=
  match message with
  | .request _ _ =>
      let total := totalBodyBytes + size message
      (total, if maxBodyBytes < total then some .requestBodyTooLarge else none)
  | .other _ => (totalBodyBytes, none)

/-- The `except` clause of `__call__`. -/
def onTooLarge {ε : Type} (maxBodyBytes : Int) : AppExn ε → Option (AsgiApp ε)
  | .requestBodyTooLarge => some (sendTooLarge maxBodyBytes)
  | .other _ => none

/-- The application behind `limited_receive`, inside the `try`. -/
def limited {ε : Type} (maxBodyBytes : Int) (app : AsgiApp ε) : AsgiApp ε :=
  (app.monitored (countBody maxBodyBytes) 0).catching (onTooLarge maxBodyBytes)

/-- The request is one whose body is limited. -/
def Limits (scope : Scope) : Prop :=
  scope.type = "http" ∧ PyText.upperCase scope.method = "POST" ∧ scope.path ∈ limitedPaths

instance (scope : Scope) : Decidable (Limits scope) :=
  inferInstanceAs (Decidable (_ ∧ _ ∧ _))

/-- `__call__`. -/
def call {ε : Type} (m : RequestBodyLimitMiddleware) (scope : Scope) (app : AsgiApp ε) :
    AsgiApp ε :=
  if scope.type ≠ "http" then app
  else if PyText.upperCase scope.method ≠ "POST" ∨ scope.path ∉ limitedPaths then app
  else
    match contentLength scope with
    | some n => if m.resolveLimit scope < n then sendTooLarge (m.resolveLimit scope)
        else limited (m.resolveLimit scope) app
    | none => limited (m.resolveLimit scope) app

/-! ### What the application gets to read -/

variable {ε : Type}

/-- The bytes of the body in these answers. -/
def bodyBytes (answers : Received ε) : Nat :=
  (answers.map fun answer => match answer with
    | .ok message => size message
    | .error _ => 0).sum

@[simp] theorem bodyBytes_nil : bodyBytes ([] : Received ε) = 0 := rfl

@[simp] theorem bodyBytes_ok (message : ReceiveMessage) (answers : Received ε) :
    bodyBytes (.ok message :: answers) = size message + bodyBytes answers := rfl

@[simp] theorem bodyBytes_error (e : AppExn ε) (answers : Received ε) :
    bodyBytes (.error e :: answers) = bodyBytes answers := by
  simp [bodyBytes]

theorem bodyBytes_append (first second : Received ε) :
    bodyBytes (first ++ second) = bodyBytes first + bodyBytes second := by
  simp [bodyBytes]

theorem bodyBytes_take_le (k : Nat) (answers : Received ε) :
    bodyBytes (answers.take k) ≤ bodyBytes answers := by
  conv_rhs => rw [← List.take_append_drop k answers, bodyBytes_append]
  omega

/-- The answers as the application gets them, when `total` bytes are counted already. -/
def given (maxBodyBytes : Int) (total : Nat) (answers : Received ε) : Received ε :=
  Dialogue.screened (countBody maxBodyBytes) total answers

@[simp] theorem length_given (maxBodyBytes : Int) (total : Nat) (answers : Received ε) :
    (given maxBodyBytes total answers).length = answers.length :=
  Dialogue.length_screened total answers

theorem given_request (maxBodyBytes : Int) (total : Nat) (body : Option Bytes) (more : Bool)
    (answers : Received ε) :
    given maxBodyBytes total (.ok (.request body more) :: answers) =
      (if maxBodyBytes < (total + size (.request body more) : Nat) then .error .requestBodyTooLarge
        else .ok (.request body more)) ::
        given maxBodyBytes (total + size (.request body more)) answers := by
  rw [given, Dialogue.screened, given]
  by_cases h : maxBodyBytes < (total + size (.request body more) : Nat)
  · simp only [countBody, if_pos h]
  · simp only [countBody, if_neg h]

theorem given_other (maxBodyBytes : Int) (total : Nat) (type : String) (answers : Received ε) :
    given maxBodyBytes total (.ok (.other type) :: answers) =
      .ok (.other type) :: given maxBodyBytes total answers := rfl

theorem given_error (maxBodyBytes : Int) (total : Nat) (e : AppExn ε) (answers : Received ε) :
    given maxBodyBytes total (.error e :: answers) =
      .error e :: given maxBodyBytes total answers := rfl

/-- The answer is a piece of the body, and with the answers before it the limit is passed. -/
def Passes (maxBodyBytes : Int) (total : Nat) (answers : Received ε) (i : Nat) : Prop :=
  ∃ body more, answers[i]? = some (.ok (.request body more)) ∧
    maxBodyBytes < (total + bodyBytes (answers.take (i + 1)) : Nat)

/-- **The screen, answer by answer.**  Each answer is handed over as it is, but for the pieces of
the body that come once the limit is passed: in their place the exception is raised. -/
theorem given_getElem? (maxBodyBytes : Int) (total : Nat) (answers : Received ε) (i : Nat) :
    (Passes maxBodyBytes total answers i →
      (given maxBodyBytes total answers)[i]? = some (.error .requestBodyTooLarge)) ∧
    (¬ Passes maxBodyBytes total answers i →
      (given maxBodyBytes total answers)[i]? = answers[i]?) := by
  induction answers generalizing total i with
  | nil => exact ⟨fun ⟨_, _, hat, _⟩ => (by cases hat), fun _ => rfl⟩
  | cons answer answers ih =>
    match answer, i with
    | .error e, 0 => exact ⟨fun ⟨_, _, hat, _⟩ => (by cases hat), fun _ => rfl⟩
    | .ok (.other type), 0 => exact ⟨fun ⟨_, _, hat, _⟩ => (by cases hat), fun _ => rfl⟩
    | .ok (.request body more), 0 =>
      -- the first piece is measured with what is counted already
      have hiff : Passes maxBodyBytes total (.ok (.request body more) :: answers) 0 ↔
          maxBodyBytes < (total + size (.request body more) : Nat) := by
        simp [Passes]
      rw [hiff, given_request]
      constructor
      · intro h
        rw [if_pos h]
        rfl
      · intro h
        rw [if_neg h]
        rfl
    | .error e, i + 1 =>
      have hiff : Passes maxBodyBytes total (.error e :: answers) (i + 1) ↔
          Passes maxBodyBytes total answers i := by
        simp [Passes]
      rw [hiff, given_error, List.getElem?_cons_succ, List.getElem?_cons_succ]
      exact ih total i
    | .ok (.other type), i + 1 =>
      have hiff : Passes maxBodyBytes total (.ok (.other type) :: answers) (i + 1) ↔
          Passes maxBodyBytes total answers i := by
        simp [Passes, size]
      rw [hiff, given_other, List.getElem?_cons_succ, List.getElem?_cons_succ]
      exact ih total i
    | .ok (.request body more), i + 1 =>
      have hiff : Passes maxBodyBytes total (.ok (.request body more) :: answers) (i + 1) ↔
          Passes maxBodyBytes (total + size (.request body more)) answers i := by
        simp [Passes, Nat.add_assoc]
      rw [hiff, given_request, List.getElem?_cons_succ, List.getElem?_cons_succ]
      exact ih _ i

/-- Once the limit is passed, no piece of the body is handed over. -/
theorem bodyBytes_given_of_passed {maxBodyBytes : Int} {total : Nat} (h : maxBodyBytes < total)
    (answers : Received ε) : bodyBytes (given maxBodyBytes total answers) = 0 := by
  induction answers generalizing total with
  | nil => rfl
  | cons answer answers ih =>
    match answer with
    | .error e => rw [given_error, bodyBytes_error, ih h]
    | .ok (.other type) => rw [given_other, bodyBytes_ok, ih h]; rfl
    | .ok (.request body more) =>
      have hnext : maxBodyBytes < (total + size (.request body more) : Nat) := by omega
      rw [given_request, if_pos hnext, bodyBytes_error, ih hnext]

/-- **The application is never handed more than the limit.** -/
theorem bodyBytes_given_le (maxBodyBytes : Int) (total : Nat) (answers : Received ε) :
    bodyBytes (given maxBodyBytes total answers) ≤ maxBodyBytes.toNat - total := by
  induction answers generalizing total with
  | nil => exact Nat.zero_le _
  | cons answer answers ih =>
    match answer with
    | .error e => rw [given_error, bodyBytes_error]; exact ih total
    | .ok (.other type) =>
      rw [given_other, bodyBytes_ok, size, Nat.zero_add]
      exact ih total
    | .ok (.request body more) =>
      rw [given_request]
      by_cases h : maxBodyBytes < (total + size (.request body more) : Nat)
      · rw [if_pos h, bodyBytes_error, bodyBytes_given_of_passed h]
        exact Nat.zero_le _
      · have hrest := ih (total + size (.request body more))
        rw [if_neg h, bodyBytes_ok]
        omega

/-- As long as the limit is not passed, the answers are handed over as they are. -/
theorem given_take_of_fits {maxBodyBytes : Int} {total k : Nat} {answers : Received ε}
    (h : (total + bodyBytes (answers.take k) : Nat) ≤ maxBodyBytes) :
    (given maxBodyBytes total answers).take k = answers.take k := by
  apply List.ext_getElem?
  intro i
  by_cases hi : i < k
  · rw [List.getElem?_take_of_lt hi, List.getElem?_take_of_lt hi]
    apply (given_getElem? maxBodyBytes total answers i).2
    rintro ⟨body, more, -, hover⟩
    have htake : bodyBytes (answers.take (i + 1)) ≤ bodyBytes (answers.take k) := by
      have hmin : answers.take (i + 1) = (answers.take k).take (i + 1) := by
        rw [List.take_take, Nat.min_eq_left (by omega)]
      rw [hmin]
      exact bodyBytes_take_le _ _
    omega
  · rw [List.getElem?_take_eq_none (by omega), List.getElem?_take_eq_none (by omega)]

/-! ### The run of a limited request -/

/-- What becomes of the application's own run: the exception, if it comes out, is answered. -/
def answered (maxBodyBytes : Int) (talk : Dialogue.Talk SendMessage (AppExn ε)) :
    Dialogue.Talk SendMessage (AppExn ε) :=
  match talk.ending with
  | .raised .requestBodyTooLarge =>
      ⟨talk.turns ++ (tooLargeMessages maxBodyBytes).map .said, .returned⟩
  | _ => talk

/-- The response `_send_too_large` makes on its own. -/
theorem run_sendTooLarge (maxBodyBytes : Int) (answers : Received ε) :
    (sendTooLarge maxBodyBytes).run answers =
      ⟨(tooLargeMessages maxBodyBytes).map .said, .returned⟩ := rfl

theorem run_limited (maxBodyBytes : Int) (app : AsgiApp ε) (answers : Received ε) :
    (limited maxBodyBytes app).run answers =
      answered maxBodyBytes (app.run (given maxBodyBytes 0 answers)) := by
  rw [limited, Dialogue.run_catching, Dialogue.run_monitored]
  change _ = answered maxBodyBytes (app.run (Dialogue.screened (countBody maxBodyBytes) 0 answers))
  obtain ⟨turns, ending⟩ := app.run (Dialogue.screened (countBody maxBodyBytes) 0 answers)
  match ending with
  | .returned => rfl
  | .waiting => rfl
  | .raised .requestBodyTooLarge => rfl
  | .raised (.other e) => rfl

/-- The request declares a length over the limit. -/
def DeclaresTooMuch (m : RequestBodyLimitMiddleware) (scope : Scope) : Prop :=
  ∃ n, contentLength scope = some n ∧ m.resolveLimit scope < n

theorem call_of_declaresTooMuch {m : RequestBodyLimitMiddleware} {scope : Scope}
    (hl : Limits scope) (h : m.DeclaresTooMuch scope) (app : AsgiApp ε) :
    m.call scope app = sendTooLarge (m.resolveLimit scope) := by
  obtain ⟨n, hn, hlt⟩ := h
  rw [call, if_neg (not_not.2 hl.1), if_neg (by simp [hl.2.1, hl.2.2]), hn]
  exact if_pos hlt

theorem call_of_not_declaresTooMuch {m : RequestBodyLimitMiddleware} {scope : Scope}
    (hl : Limits scope) (h : ¬ m.DeclaresTooMuch scope) (app : AsgiApp ε) :
    m.call scope app = limited (m.resolveLimit scope) app := by
  rw [call, if_neg (not_not.2 hl.1), if_neg (by simp [hl.2.1, hl.2.2])]
  cases hn : contentLength scope with
  | none => rfl
  | some n => exact if_neg fun hlt => h ⟨n, hn, hlt⟩

/-- **A limited request.**  A declared length over the limit is refused before anything is read.
Otherwise the application runs as it would on the screened answers, in which at most the limit is
left of the body, and its exception is answered if it comes out. -/
theorem limited_request (m : RequestBodyLimitMiddleware) (scope : Scope) (hl : Limits scope)
    (app : AsgiApp ε) (answers : Received ε) :
    (m.DeclaresTooMuch scope → (m.call scope app).run answers =
      ⟨(tooLargeMessages (m.resolveLimit scope)).map .said, .returned⟩) ∧
    (¬ m.DeclaresTooMuch scope → ∃ read : Received ε, (m.call scope app).run answers =
        answered (m.resolveLimit scope) (app.run read) ∧
      read.length = answers.length ∧
      bodyBytes read ≤ (m.resolveLimit scope).toNat ∧
      ∀ i, (Passes (m.resolveLimit scope) 0 answers i →
          read[i]? = some (.error .requestBodyTooLarge)) ∧
        (¬ Passes (m.resolveLimit scope) 0 answers i → read[i]? = answers[i]?)) := by
  constructor
  · intro h
    rw [call_of_declaresTooMuch hl h, run_sendTooLarge]
  · intro h
    refine ⟨given (m.resolveLimit scope) 0 answers, ?_, length_given _ _ _, ?_, ?_⟩
    · rw [call_of_not_declaresTooMuch hl h, run_limited]
    · exact bodyBytes_given_le _ 0 answers
    · exact given_getElem? _ 0 answers

/-- A `POST` of a batch in chunks, with a limit of `64` bytes. -/
def chunkedPost : Scope :=
  { type := "http", method := "post", path := "/v1/events/ingest/batch"
    maxRequestBytes := some 64 }

theorem not_declaresTooMuch_chunkedPost :
    ¬ RequestBodyLimitMiddleware.DeclaresTooMuch {} chunkedPost := by
  rintro ⟨n, hn, -⟩
  cases hn

/-- Reads one message and answers; what `receive` raises is answered with a `400`. -/
def parsingApp : AsgiApp Unit :=
  .ask (fun _ => .say (.start 200 []) (.say (.body [] false) .done))
    (fun _ => .say (.start 400 []) (.say (.body [] false) .done))

/-- A piece of 70 bytes, more than the 64 of the route, with more to come. -/
def longPiece : Received Unit :=
  [.ok (.request (some (List.replicate 70 7)) true)]

theorem limited_request_chunkedPost :
    ∃ read : Received Unit, (call {} chunkedPost parsingApp).run longPiece =
      answered 64 (parsingApp.run read) ∧ bodyBytes read ≤ 64 := by
  obtain ⟨read, hrun, -, hbytes, -⟩ :=
    (limited_request {} chunkedPost (by decide) parsingApp longPiece).2
      not_declaresTooMuch_chunkedPost
  exact ⟨read, hrun, hbytes⟩

/-! ### One response, or two -/

/-- How far a response has come. -/
inductive ResponsePhase where
  | idle | started | complete
deriving DecidableEq

/-- What ASGI allows: one start, pieces of the body after it, and nothing after the last piece.
Messages of other types do not move a response on. -/
def ResponsePhase.send : ResponsePhase → SendMessage → Option ResponsePhase
  | phase, .other _ => some phase
  | .idle, .start _ _ => some .started
  | .started, .body _ true => some .started
  | .started, .body _ false => some .complete
  | _, _ => none

/-- How far these messages take a response, if they are allowed. -/
def responsePhase (messages : List SendMessage) : Option ResponsePhase :=
  messages.foldlM ResponsePhase.send .idle

/-- The messages are one whole response. -/
def WholeResponse (messages : List SendMessage) : Prop :=
  responsePhase messages = some .complete

/-- The `413` can be the response only if none has begun. -/
theorem wholeResponse_append_tooLarge (maxBodyBytes : Int) {messages : List SendMessage}
    {phase : ResponsePhase} (h : responsePhase messages = some phase) :
    WholeResponse (messages ++ tooLargeMessages maxBodyBytes) ↔ phase = .idle := by
  rw [WholeResponse, responsePhase, List.foldlM_append, ← responsePhase, h]
  cases phase <;> simp [tooLargeMessages, ResponsePhase.send]

theorem given_of_fits {maxBodyBytes : Int} {answers : Received ε}
    (h : bodyBytes answers ≤ maxBodyBytes) : given maxBodyBytes 0 answers = answers := by
  have htake := @given_take_of_fits ε maxBodyBytes 0 answers.length answers
    (by rwa [Nat.zero_add, List.take_length])
  rwa [List.take_length, List.take_of_length_le (length_given _ _ _).le] at htake

/-- The exception takes the place of the piece that passes the limit. -/
theorem given_append_of_passed {maxBodyBytes : Int} {total : Nat} {before rest : Received ε}
    {body : Option Bytes} {more : Bool} (hfit : (total + bodyBytes before : Nat) ≤ maxBodyBytes)
    (hover : maxBodyBytes < (total + bodyBytes before + size (.request body more) : Nat)) :
    ∃ screened, given maxBodyBytes total (before ++ .ok (.request body more) :: rest) =
      before ++ .error .requestBodyTooLarge :: screened := by
  induction before generalizing total with
  | nil =>
    rw [List.nil_append, given_request, if_pos (by simpa using hover)]
    exact ⟨_, rfl⟩
  | cons answer before ih =>
    match answer with
    | .error e =>
      obtain ⟨screened, h⟩ := ih (by simpa using hfit) (by simpa using hover)
      exact ⟨screened, by rw [List.cons_append, given_error, h]; rfl⟩
    | .ok (.other type) =>
      obtain ⟨screened, h⟩ := ih (by simpa [size] using hfit) (by simpa [size] using hover)
      exact ⟨screened, by rw [List.cons_append, given_other, h]; rfl⟩
    | .ok (.request body' more') =>
      rw [bodyBytes_ok] at hfit hover
      obtain ⟨screened, h⟩ := @ih (total + size (.request body' more')) (by omega) (by omega)
      refine ⟨screened, ?_⟩
      rw [List.cons_append, given_request, if_neg (by omega), h]
      rfl

theorem answered_of_ne {maxBodyBytes : Int} {talk : Dialogue.Talk SendMessage (AppExn ε)}
    (h : talk.ending ≠ .raised .requestBodyTooLarge) : answered maxBodyBytes talk = talk := by
  obtain ⟨turns, ending⟩ := talk
  match ending with
  | .returned => rfl
  | .waiting => rfl
  | .raised .requestBodyTooLarge => exact absurd rfl h
  | .raised (.other e) => rfl

/-- What a limited request comes to, when no length over the limit is declared. -/
structure Exact (m : RequestBodyLimitMiddleware) (scope : Scope) (app : AsgiApp ε) : Prop where
  /-- A body that fits, as far as it is read, is not touched. -/
  unchanged : ∀ answers : Received ε, .error .requestBodyTooLarge ∉ answers →
    bodyBytes (answers.take (app.run answers).heard) ≤ m.resolveLimit scope →
    (m.call scope app).run answers = app.run answers
  /-- An application that does not come to ask for the piece that passes the limit is not cut. -/
  early : ∀ (before rest : Received ε) body more, .error .requestBodyTooLarge ∉ before →
    bodyBytes before ≤ m.resolveLimit scope →
    m.resolveLimit scope < (bodyBytes before + size (.request body more) : Nat) →
    (app.run before).ending ≠ .waiting →
    (m.call scope app).run (before ++ .ok (.request body more) :: rest) = app.run before
  /-- One that does is stopped there, and the refusal follows what it has sent. -/
  cut : ∀ (before rest : Received ε) body more,
    bodyBytes before ≤ m.resolveLimit scope →
    m.resolveLimit scope < (bodyBytes before + size (.request body more) : Nat) →
    (app.run before).ending = .waiting →
    (m.call scope app).run (before ++ .ok (.request body more) :: rest) =
      ⟨(app.run before).turns ++
        .heard :: (tooLargeMessages (m.resolveLimit scope)).map .said, .returned⟩
  /-- The client then gets one whole response exactly if the application had begun none. -/
  whole : ∀ (before rest : Received ε) body more phase,
    bodyBytes before ≤ m.resolveLimit scope →
    m.resolveLimit scope < (bodyBytes before + size (.request body more) : Nat) →
    (app.run before).ending = .waiting →
    responsePhase (app.run before).outputs = some phase →
    (WholeResponse ((m.call scope app).run
      (before ++ .ok (.request body more) :: rest)).outputs ↔ phase = .idle)

theorem outputs_cut (maxBodyBytes : Int) (talk : Dialogue.Talk SendMessage (AppExn ε)) :
    (⟨talk.turns ++ .heard :: (tooLargeMessages maxBodyBytes).map .said, .returned⟩ :
      Dialogue.Talk SendMessage (AppExn ε)).outputs =
      talk.outputs ++ tooLargeMessages maxBodyBytes := by
  simp [Dialogue.Talk.outputs, tooLargeMessages]

/-- **The limit is exact** for an application that neither makes up nor handles the exception. -/
theorem limited_exact (m : RequestBodyLimitMiddleware) (scope : Scope) (app : AsgiApp ε)
    (hl : Limits scope) (hd : ¬ m.DeclaresTooMuch scope)
    (hborrows : app.Borrows .requestBodyTooLarge)
    (hlets : app.LetsOut .requestBodyTooLarge) : m.Exact scope app := by
  have hrun : ∀ answers : Received ε, (m.call scope app).run answers =
      answered (m.resolveLimit scope) (app.run (given (m.resolveLimit scope) 0 answers)) := by
    intro answers
    rw [call_of_not_declaresTooMuch hl hd, run_limited]
  have hcut : ∀ (before rest : Received ε) body more,
      bodyBytes before ≤ m.resolveLimit scope →
      m.resolveLimit scope < (bodyBytes before + size (.request body more) : Nat) →
      (app.run before).ending = .waiting →
      (m.call scope app).run (before ++ .ok (.request body more) :: rest) =
        ⟨(app.run before).turns ++
          .heard :: (tooLargeMessages (m.resolveLimit scope)).map .said, .returned⟩ := by
    intro before rest body more hfit hover hwaiting
    obtain ⟨screened, hgiven⟩ := @given_append_of_passed ε (m.resolveLimit scope) 0
      before rest body more (by rwa [Nat.zero_add]) (by rwa [Nat.zero_add])
    rw [hrun, hgiven, hlets.run_append hwaiting]
    simp [answered]
  refine ⟨?_, ?_, hcut, ?_⟩
  · intro answers hown hfit
    have hsame : app.run (given (m.resolveLimit scope) 0 answers) = app.run answers := by
      apply Dialogue.run_congr (length_given _ _ _).symm
      rw [given_take_of_fits (by rwa [Nat.zero_add])]
    rw [hrun, hsame]
    exact answered_of_ne (hborrows.ending_ne fun hmem => hown (List.mem_of_mem_take hmem))
  · intro before rest body more hown hfit hover hsettled
    obtain ⟨screened, hgiven⟩ := @given_append_of_passed ε (m.resolveLimit scope) 0
      before rest body more (by rwa [Nat.zero_add]) (by rwa [Nat.zero_add])
    rw [hrun, hgiven, Dialogue.run_append_of_settled hsettled]
    exact answered_of_ne (hborrows.ending_ne fun hmem => hown (List.mem_of_mem_take hmem))
  · intro before rest body more phase hfit hover hwaiting hphase
    rw [hcut before rest body more hfit hover hwaiting, outputs_cut]
    exact wholeResponse_append_tooLarge _ hphase

/-- Begins its response, then reads one message and ends it. -/
def eagerApp : AsgiApp Unit :=
  .say (.start 200 []) (.ask (fun _ => .say (.body [] false) .done) .raise)

theorem eagerApp_exact : Exact {} chunkedPost eagerApp :=
  limited_exact {} chunkedPost eagerApp (by decide) not_declaresTooMuch_chunkedPost
    ⟨fun _ => trivial, fun _ h => h⟩ ⟨fun _ => trivial, rfl, fun _ => trivial⟩

example : ((limited 1 eagerApp).run [.ok (.request (some [7, 7]) false)]).outputs =
    .start 200 [] :: tooLargeMessages 1 := by rw [run_limited]; rfl

end RequestBodyLimitMiddleware
end ComputeIntelligence
