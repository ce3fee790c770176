import S3Gateway.S3gw.Serve
import S3Gateway.S3gw.StatusWriter

/-! # Answering and observing a request

`wrapHandler` around a handler that may return, fail or panic, before or after it began the
response: `report` answers and calls the observer, on the way back and again from the deferred
recovery, and a flag keeps it to one call.  The flag is set first, so what panics inside `report`
is not reported. -/

namespace S3Gateway.S3gw

open Go S3err

/-! ## What a handler can do -/

/-- What a handler and the hooks in it do with the writer. -/
inductive WriterAction where
  | writeHeader (status : Nat)
  | write (p : Bytes)
  | setLimiter (limiter : Nat → Wait)

/-- Performs an action.  One that panics ends the handler, or is recovered by a hook. -/
def WriterAction.perform (sw : StatusWriter) : WriterAction → StatusWriter
  | .writeHeader status => (sw.writeHeader status).1
  | .write p => (sw.write p).1
  | .setLimiter limiter => { sw with limiter := some limiter }

def nilDereference : Panic := .other (str "invalid memory address or nil pointer dereference")

/-- An error as `errors.As` sees it: with an `*s3err.Error` in its chain, with one that is nil, with
    none, or with one whose own `As` or `Unwrap` panics. -/
inductive HandlerError where
  | s3 (e : S3Error)
  | nilS3
  | other (text : Bytes)
  | panics (value : Panic)

def HandlerError.unreadable : HandlerError → Option Panic
  | .s3 _ | .other _ => none
  -- `errors.As` finds it, and `errors.Unwrap` reads its cause
  | .nilS3 => some nilDereference
  | .panics value => some value

inductive Ending where
  | returned (err : Option HandlerError)
  | panicked (value : Panic)

/-- Everything `wrapHandler` sees of a handler and its hooks. -/
structure Behaviour where
  actions : List WriterAction
  ending : Ending

def Behaviour.writer (b : Behaviour) : StatusWriter := b.actions.foldl WriterAction.perform {}

/-! ## Reporting -/

/-- `errors.Unwrap(s3e)`: what the observer learns of a failure. -/
inductive Reason where
  | none
  | cause (c : Cause)
  | other (text : Bytes)
  | panicked (value : Panic)
deriving DecidableEq

/-- The part of `RequestInfo` that `wrapHandler` fills in, without the times and `BytesIn`. -/
structure RequestInfo where
  method : Bytes
  path : Bytes
  remoteAddr : Bytes
  rawQuery : Bytes
  requestID : Bytes
  status : Nat
  code : Bytes
  err : Reason
  bytesOut : Nat

def redactQuery [Unicode] (q : Values) : Bytes :=
  let masked : Values := q.filterMap fun (k, v) =>
    if toLower k = str "x-amz-signature" ∨ toLower k = str "x-amz-security-token" then none else some (k, v)
  let credentials := q.keys.filter fun k =>
    toLower k = str "x-amz-signature" ∨ toLower k = str "x-amz-security-token"
  Values.encode (masked ++ credentials.map (·, str "REDACTED"))

/-- `xml.Header`. -/
def xmlHeader : Bytes := str "<?xml version=\"1.0\" encoding=\"UTF-8\"?>\n"

/-- The gateway as far as `wrapHandler` reads it, with `marshal` for `xml.Marshal` of an error. -/
structure Boundary where
  marshal : ErrorDocument → Bytes
  observer : Option (RequestInfo → Option Panic)
  /-- the hook of `SetRequestID` -/
  requestID : Option (Request → Except Panic Bytes)
  randomRequestID : Bytes

def Boundary.newRequestID (g : Boundary) (r : Request) : Except Panic Bytes :=
  match g.requestID with
  | none => .ok g.randomRequestID
  | some hook => (hook r).map fun id => if id ≠ [] then id else g.randomRequestID

/-- An error as it is marshalled, with the fields `Write` sets. -/
def errorDocument (e : S3Error) (r : Request) (requestID : Bytes) : ErrorDocument :=
  { code := e.code, message := e.message, resource := if e.resource = [] then r.url.path else e.resource, requestID }

/-- `s3err.Write(w, r, e, requestID)`. -/
def Boundary.writeError (g : Boundary) (sw : StatusWriter) (r : Request) (e : S3Error) (requestID : Bytes) : Writing :=
  if r.method = str "HEAD" ∨ e.status = 304 then sw.writeHeader e.status
  else
    (sw.writeHeader e.status).andThen fun sw =>
      (sw.write xmlHeader).andThen fun sw => sw.write (g.marshal (errorDocument e r requestID))

/-- The state of one request: the writer, the flag `reported`, and what the observer was called
    with. -/
structure Exchange where
  sw : StatusWriter
  reported : Bool := false
  observed : List RequestInfo := []

section Report

variable [Unicode] (g : Boundary) (r : Request) (requestID : Bytes)

/-- The end of `report`.  A panic of the observer is recovered there. -/
def Exchange.observe (s : Exchange) (code : Bytes) (err : Reason) : Exchange :=
  match g.observer with
  | none => s
  | some observer =>
    let info : RequestInfo :=
      { method := r.method, path := r.url.path, remoteAddr := r.remoteAddr, rawQuery := redactQuery r.url.query,
        requestID, status := s.sw.status, code, err, bytesOut := s.sw.written }
    match observer info with
    | some _ | none => { s with observed := s.observed ++ [info] }

/-- `report` from the error it has found on. -/
def Exchange.reportError (s : Exchange) (e : S3Error) (err : Reason) : Exchange × Option Panic :=
  if s.sw.started then (s.observe g r requestID [] err, none)
  else
    match g.writeError s.sw r e requestID with
    | (sw, some p) => ({ s with sw }, some p)
    | (sw, none) => (Exchange.observe g r requestID { s with sw } e.code err, none)

def internalMessage : Bytes := str "We encountered an internal error. Please try again."

/-- `report(err)`, where the error of a recovered panic is a `PanicError`. -/
def Exchange.report (s : Exchange) (err : Option (HandlerError ⊕ Panic)) : Exchange × Option Panic :=
  if s.reported then (s, none)
  else
    let s := { s with reported := true }
    match err with
    | none => (s.observe g r requestID [] .none, none)
    | some (.inl (.s3 e)) => s.reportError g r requestID e (if e.cause = .none then .none else .cause e.cause)
    | some (.inl .nilS3) => (s, some nilDereference)
    | some (.inl (.panics value)) => (s, some value)
    | some (.inl (.other text)) => s.reportError g r requestID (internalError .other internalMessage) (.other text)
    | some (.inr p) => s.reportError g r requestID (internalError .other internalMessage) (.panicked p)

/-- How `wrapHandler` ends: with the request as it is then, and with a panic if it panics. -/
structure Ended where
  exchange : Exchange
  panic : Option Panic

/-- The deferred function, on a panic. -/
def Exchange.recovered (s : Exchange) (p : Panic) : Ended :=
  if p = .abortHandler then ⟨s, some p⟩
  else
    match s.report g r requestID (some (.inr p)) with
    | (s', some q) => ⟨s', some q⟩
    | (s', none) => ⟨s', if s.sw.started then some .abortHandler else none⟩

/-- `wrapHandler(h)` on a request, for a handler with this behaviour. -/
def Boundary.wrapHandler (b : Behaviour) : Ended :=
  match g.newRequestID r with
  -- the recovery is not set up yet
  | .error p => ⟨{ sw := {} }, some p⟩
  | .ok requestID =>
    let s : Exchange := { sw := b.writer }
    match b.ending with
    | .panicked p => s.recovered g r requestID p
    | .returned err =>
      match s.report g r requestID (err.map .inl) with
      | (s, none) => ⟨s, none⟩
      | (s, some p) => s.recovered g r requestID p

end Report

/-! ## What writing an error leaves -/

section WriteError

variable (g : Boundary) (r : Request) (e : S3Error) (requestID : Bytes)

def Boundary.errorBody : Bytes :=
  if r.method = str "HEAD" ∨ e.status = 304 then [] else xmlHeader ++ g.marshal (errorDocument e r requestID)

def Boundary.errorAnswer : ResponseWriter :=
  { final := some e.status, sent := .status e.status :: (g.errorBody r e requestID).map .byte }

theorem errorAnswer_of_writeError {header header' : Header} {status : Nat} {document : Option ErrorDocument}
    (h : writeError header r e requestID = .failed status header' document) :
    g.errorAnswer r e requestID =
      { final := some status,
        sent := .status status :: (document.elim [] fun d => xmlHeader ++ g.marshal d).map .byte } := by
  unfold writeError at h
  by_cases hb : r.method = str "HEAD" ∨ e.status = 304
  · simp only [if_pos hb, ClientResponse.failed.injEq] at h
    obtain ⟨rfl, -, rfl⟩ := h
    simp [Boundary.errorAnswer, Boundary.errorBody, hb]
  · simp only [if_neg hb, ClientResponse.failed.injEq] at h
    obtain ⟨rfl, -, rfl⟩ := h
    simp [Boundary.errorAnswer, Boundary.errorBody, hb, errorDocument]

/-- The waits that writing the body takes: it is written in two calls. -/
def Boundary.errorWaits : Nat :=
  if r.method = str "HEAD" ∨ e.status = 304 then 0
  else StatusWriter.waitsFor xmlHeader + StatusWriter.waitsFor (g.marshal (errorDocument e r requestID))

/-- What it takes to answer an error: a status that ends the header and allows the body, and a limiter
    that lets all of it through. -/
structure Boundary.CanAnswer (limiter : Option (Nat → Wait)) : Prop where
  final : ResponseWriter.isFinal e.status = true
  body : g.errorBody r e requestID ≠ [] → ResponseWriter.bodyAllowed e.status = true
  waits : ∀ l, limiter = some l → StatusWriter.Grants l 0 (g.errorWaits r e requestID)

theorem xmlHeader_ne_nil : xmlHeader ≠ [] := by decide +kernel

theorem writeError_of_not_isFinal {sw : StatusWriter} (hw : sw.w = {}) (h : ResponseWriter.isFinal e.status = false) :
    (g.writeError sw r e requestID).2 ≠ none ∨ (g.writeError sw r e requestID).1.w.final ≠ some e.status := by
  rcases ResponseWriter.writeHeader_of_not_isFinal h with hpanic | ⟨hlt, hinfo⟩
  · left
    have hheader : (sw.writeHeader e.status).2 = some invalidWriteHeader := by
      simp [StatusWriter.writeHeader, hw, hpanic]
    unfold Boundary.writeError
    split
    · simp [hheader]
    · simp [Writing.andThen, hheader]
  · right
    have hheader : sw.writeHeader e.status =
        ({ sw with status := e.status, started := true, w := { sent := [.status e.status] } }, none) := by
      simp [StatusWriter.writeHeader, hw, hinfo]
    -- the first bytes write a header of their own, with 200
    have hlater : ∀ (sw' : StatusWriter) (p : Bytes), sw'.w.final = none ∨ sw'.w.final = some 200 →
        (sw'.write p).1.w.final = none ∨ (sw'.write p).1.w.final = some 200 := by
      intro sw' p hsw
      rcases StatusWriter.write_final sw' p with heq | heq <;> rcases hsw with hn | hn <;> simp [heq, hn]
    have hne : ∀ final : Option Nat, final = none ∨ final = some 200 → final ≠ some e.status := by
      rintro final (rfl | rfl)
      · simp
      · simp only [ne_eq, Option.some.injEq]
        omega
    apply hne
    simp only [Boundary.writeError, Writing.andThen, hheader]
    split
    · exact .inl rfl
    · split
      · exact hlater _ _ (.inl rfl)
      · exact hlater _ _ (hlater _ _ (.inl rfl))

def StatusWriter.answering (sw : StatusWriter) (status : Nat) : StatusWriter :=
  { sw with status, started := true, w := { final := some status, sent := [.status status] } }

theorem writeHeader_answering {sw : StatusWriter} (hw : sw.w = {}) {status : Nat}
    (h : ResponseWriter.isFinal status = true) : sw.writeHeader status = (sw.answering status, none) := by
  simp [StatusWriter.writeHeader, hw, ResponseWriter.writeHeader_of_isFinal h, StatusWriter.answering]

theorem writeError_of_canAnswer {sw : StatusWriter} (hw : sw.w = {}) (hwaits : sw.waits = 0)
    (h : g.CanAnswer r e requestID sw.limiter) :
    (g.writeError sw r e requestID).2 = none ∧ (g.writeError sw r e requestID).1.w = g.errorAnswer r e requestID := by
  have hheader := writeHeader_answering hw h.final
  by_cases hb : r.method = str "HEAD" ∨ e.status = 304
  · simp [Boundary.writeError, Boundary.errorAnswer, Boundary.errorBody, hb, hheader, StatusWriter.answering]
  · have hbody : ResponseWriter.bodyAllowed e.status = true := h.body (by simp [Boundary.errorBody, hb, xmlHeader_ne_nil])
    have hgrants := h.waits
    simp only [Boundary.errorWaits, if_neg hb, StatusWriter.grants_add] at hgrants
    -- the declaration goes through, and the document after it
    have hfirst := StatusWriter.write_of_takes (sw.answering e.status) (p := xmlHeader) rfl
      ⟨.inr hbody, fun l hl => by simpa [StatusWriter.answering, hwaits] using (hgrants l hl).1⟩
    have hsecond := StatusWriter.write_of_takes
      (StatusWriter.wrote { sw.answering e.status with started := true } xmlHeader
        (if (sw.answering e.status).limiter.isSome then StatusWriter.waitsFor xmlHeader else 0))
      (p := g.marshal (errorDocument e r requestID)) rfl
      ⟨.inr hbody, fun l hl => by
        have hl' : sw.limiter = some l := hl
        simpa [StatusWriter.wrote, StatusWriter.answering, hl', hwaits] using (hgrants l hl').2⟩
    simp only [Boundary.writeError, if_neg hb, Writing.andThen, hheader, hfirst, hsecond]
    simp [StatusWriter.wrote, StatusWriter.answering, Boundary.errorAnswer, Boundary.errorBody, hb]

theorem canAnswer_of_writeError {sw : StatusWriter} (hw : sw.w = {}) (hwaits : sw.waits = 0)
    (hreturns : (g.writeError sw r e requestID).2 = none)
    (hanswer : (g.writeError sw r e requestID).1.w = g.errorAnswer r e requestID) :
    g.CanAnswer r e requestID sw.limiter := by
  -- the answer starts with the status of the error, so the header was taken as final
  have hfinal : ResponseWriter.isFinal e.status = true := by
    by_contra hnot
    rcases writeError_of_not_isFinal g r e requestID hw (by simpa using hnot) with hpanic | hother
    · exact hpanic hreturns
    · exact hother (by rw [hanswer]; rfl)
  have hheader := writeHeader_answering hw hfinal
  by_cases hb : r.method = str "HEAD" ∨ e.status = 304
  · refine ⟨hfinal, ?_, ?_⟩
    · simp [Boundary.errorBody, hb]
    · simp [Boundary.errorWaits, hb, StatusWriter.Grants]
  · -- as many bytes arrive as the body has, so no write and no wait was refused
    set declared := (sw.answering e.status).write xmlHeader with hdeclared
    have hnone : declared.2 = none := by
      by_contra hsome
      obtain ⟨v, hv⟩ := Option.ne_none_iff_exists'.mp hsome
      simp [Boundary.writeError, hb, Writing.andThen, hheader, ← hdeclared, hv] at hreturns
    have hrun : g.writeError sw r e requestID = declared.1.write (g.marshal (errorDocument e r requestID)) := by
      simp [Boundary.writeError, hb, Writing.andThen, hheader, ← hdeclared, hnone]
    have hlength : (declared.1.write (g.marshal (errorDocument e r requestID))).1.w.sent.length =
        1 + xmlHeader.length + (g.marshal (errorDocument e r requestID)).length := by
      rw [← hrun, hanswer]
      simp only [Boundary.errorAnswer, Boundary.errorBody, if_neg hb, List.length_cons, List.length_map, List.length_append]
      omega
    obtain ⟨hle, hfull⟩ := StatusWriter.write_length (sw.answering e.status) (c := e.status) rfl xmlHeader
    have hkept := StatusWriter.write_final_some (sw.answering e.status) (c := e.status) rfl xmlHeader
    obtain ⟨hle', hfull'⟩ := StatusWriter.write_length declared.1 hkept (g.marshal (errorDocument e r requestID))
    have hone : (sw.answering e.status).w.sent.length = 1 := rfl
    rw [← hdeclared, hone] at hle hfull
    have hfirst : (sw.answering e.status).Takes e.status xmlHeader := hfull (by omega)
    have hsecond := hfull' (by omega)
    have hwrote := StatusWriter.write_of_takes (sw.answering e.status) rfl hfirst
    refine ⟨hfinal, fun _ => hfirst.1.resolve_left xmlHeader_ne_nil, fun l hl => ?_⟩
    have hgrants := hfirst.2 l hl
    have hgrants' := hsecond.2 l (by rw [hdeclared, hwrote]; exact hl)
    simp only [Boundary.errorWaits, if_neg hb, StatusWriter.grants_add, Nat.zero_add]
    refine ⟨by simpa [StatusWriter.answering, hwaits] using hgrants, ?_⟩
    rw [hdeclared, hwrote] at hgrants'
    simpa [StatusWriter.wrote, StatusWriter.answering, hl, hwaits] using hgrants'

end WriteError

/-! ## Every request once -/

/-- A response that has not begun has sent nothing, and waited for nothing. -/
structure StatusWriter.Fresh (sw : StatusWriter) : Prop where
  sends : sw.started = false → sw.w = {}
  waited : sw.started = false → sw.waits = 0

theorem StatusWriter.Fresh.of_started {sw : StatusWriter} (h : sw.started = true) : sw.Fresh :=
  ⟨fun hnot => absurd (h.symm.trans hnot) (by decide), fun hnot => absurd (h.symm.trans hnot) (by decide)⟩

theorem WriterAction.perform_fresh {sw : StatusWriter} (h : sw.Fresh) (a : WriterAction) : (a.perform sw).Fresh := by
  cases a with
  | writeHeader status => exact .of_started (StatusWriter.writeHeader_started sw status)
  | write p => exact .of_started (StatusWriter.write_started sw p)
  | setLimiter limiter => exact ⟨h.sends, h.waited⟩

theorem Behaviour.writer_fresh (b : Behaviour) : b.writer.Fresh := by
  have hrun : ∀ (actions : List WriterAction) (sw : StatusWriter), sw.Fresh → (actions.foldl WriterAction.perform sw).Fresh := by
    intro actions
    induction actions with
    | nil => exact fun sw h => h
    | cons a rest ih => exact fun sw h => ih (a.perform sw) (WriterAction.perform_fresh h a)
  exact hrun b.actions {} ⟨fun _ => rfl, fun _ => rfl⟩

def Ending.failure : Ending → Option S3Error
  | .returned none => none
  | .returned (some (.s3 e)) => some e
  | .returned (some _) | .panicked _ => some (internalError .other internalMessage)

theorem Ending.eq_of_failure_eq_none {ending : Ending} (h : ending.failure = none) : ending = .returned none := by
  rcases ending with (_ | (_ | _ | _ | _)) | _
  · rfl
  all_goals simp [Ending.failure] at h

section Once

variable [Unicode] (g : Boundary) (r : Request) (b : Behaviour)

/-- The handler fails with `e` before it began the response. -/
def Behaviour.FailsEarly (b : Behaviour) (e : S3Error) : Prop := b.ending.failure = some e ∧ b.writer.started = false

/-- What the client gets of a request, and whether the connection is dropped. -/
def Boundary.response : ResponseWriter × Option Panic :=
  ((g.wrapHandler r b).exchange.sw.w, (g.wrapHandler r b).panic)

/-- The request is observed once, and an error answered where the handler failed before it began the
    response, whatever becomes of the observer. -/
structure Boundary.AnswersOnce : Prop where
  observed : (g.wrapHandler r b).exchange.observed.length = 1
  answered : ∀ e, b.FailsEarly e → ∃ requestID, g.newRequestID r = .ok requestID ∧
    (g.wrapHandler r b).exchange.sw.w = g.errorAnswer r e requestID
  untouched : (∀ e, ¬ b.FailsEarly e) → (g.wrapHandler r b).exchange.sw.w = b.writer.w
  observer_apart : ∀ observer, Boundary.response { g with observer := some observer } r b = g.response r b

/-- No hook panics outside the recovery, the error of the handler can be read, and what is to be
    answered can be. -/
structure Boundary.Answerable : Prop where
  identified : ∃ requestID, g.newRequestID r = .ok requestID
  readable : ∀ err, b.ending = .returned (some err) → err.unreadable = none
  canAnswer : ∀ e requestID, b.FailsEarly e → g.newRequestID r = .ok requestID →
    g.CanAnswer r e requestID b.writer.limiter

@[simp]
theorem observe_sw (requestID : Bytes) (s : Exchange) (code : Bytes) (err : Reason) :
    (s.observe g r requestID code err).sw = s.sw := by
  unfold Exchange.observe
  split
  · rfl
  · dsimp only
    split <;> rfl

@[simp]
theorem observe_reported (requestID : Bytes) (s : Exchange) (code : Bytes) (err : Reason) :
    (s.observe g r requestID code err).reported = s.reported := by
  unfold Exchange.observe
  split
  · rfl
  · dsimp only
    split <;> rfl

theorem observe_length {g : Boundary} (hg : g.observer.isSome = true) (requestID : Bytes) (s : Exchange) (code : Bytes)
    (err : Reason) : (s.observe g r requestID code err).observed.length = s.observed.length + 1 := by
  obtain ⟨observer, ho⟩ := Option.isSome_iff_exists.mp hg
  simp only [Exchange.observe, ho]
  split <;> simp

section ReportError

variable (requestID : Bytes) (s : Exchange) (e : S3Error) (err : Reason)

theorem reportError_started (hs : s.sw.started = true) :
    s.reportError g r requestID e err = (s.observe g r requestID [] err, none) := by
  simp [Exchange.reportError, hs]

theorem reportError_sw (hs : s.sw.started = false) :
    (s.reportError g r requestID e err).1.sw = (g.writeError s.sw r e requestID).1 := by
  rcases hw : g.writeError s.sw r e requestID with ⟨sw', _ | p⟩
  · simp [Exchange.reportError, hs, hw]
  · simp [Exchange.reportError, hs, hw]

theorem reportError_reported : (s.reportError g r requestID e err).1.reported = s.reported := by
  unfold Exchange.reportError
  split
  · simp
  · split
    · rfl
    · simp

theorem reportError_observed {g : Boundary} (hg : g.observer.isSome = true) (hs : s.sw.started = false) :
    (s.reportError g r requestID e err).1.observed.length = s.observed.length + 1 ↔
      (g.writeError s.sw r e requestID).2 = none := by
  rcases hw : g.writeError s.sw r e requestID with ⟨sw', _ | p⟩
  · simp [Exchange.reportError, hs, hw, observe_length r hg]
  · simp [Exchange.reportError, hs, hw]

end ReportError

/-! The response does not depend on the observer: two requests that differ in what was observed go on
alike, under any two observers. -/

section Alike

variable {g} (observer : RequestInfo → Option Panic) (requestID : Bytes)

def Exchange.Alike (s s' : Exchange) : Prop := s.sw = s'.sw ∧ s.reported = s'.reported

/-- Alike after a part of `report`. -/
def ReportsAlike (x x' : Exchange × Option Panic) : Prop := x.1.Alike x'.1 ∧ x.2 = x'.2

theorem reportError_alike {s s' : Exchange} (h : s.Alike s') (e : S3Error) (err : Reason) :
    ReportsAlike (s.reportError { g with observer := some observer } r requestID e err)
      (s'.reportError g r requestID e err) := by
  obtain ⟨sw, reported, observed⟩ := s
  obtain ⟨sw', reported', observed'⟩ := s'
  obtain ⟨rfl, rfl⟩ : sw = sw' ∧ reported = reported' := h
  have hsame : Boundary.writeError { g with observer := some observer } sw r e requestID = g.writeError sw r e requestID := rfl
  by_cases hs : sw.started = true
  · simp [ReportsAlike, Exchange.Alike, Exchange.reportError, hs]
  · rcases hw : g.writeError sw r e requestID with ⟨sw', _ | p⟩
    · simp [ReportsAlike, Exchange.Alike, Exchange.reportError, hs, hsame, hw]
    · simp [ReportsAlike, Exchange.Alike, Exchange.reportError, hs, hsame, hw]

theorem report_alike {s s' : Exchange} (h : s.Alike s') (err : Option (HandlerError ⊕ Panic)) :
    ReportsAlike (s.report { g with observer := some observer } r requestID err) (s'.report g r requestID err) := by
  have hset : Exchange.Alike { s with reported := true } { s' with reported := true } := ⟨h.1, rfl⟩
  unfold Exchange.report
  rw [h.2]
  by_cases hr : s'.reported = true
  · simp only [hr, if_true]
    exact ⟨h, rfl⟩
  · simp only [hr]
    rcases err with _ | (e | _ | text | value) | p
    · simpa [ReportsAlike, Exchange.Alike] using h.1
    · exact reportError_alike r observer requestID hset e _
    · exact ⟨hset, rfl⟩
    · exact reportError_alike r observer requestID hset _ _
    · exact ⟨hset, rfl⟩
    · exact reportError_alike r observer requestID hset _ _

theorem recovered_alike {s s' : Exchange} (h : s.Alike s') (p : Panic) :
    (s.recovered { g with observer := some observer } r requestID p).exchange.sw = (s'.recovered g r requestID p).exchange.sw ∧
      (s.recovered { g with observer := some observer } r requestID p).panic = (s'.recovered g r requestID p).panic := by
  unfold Exchange.recovered
  by_cases hp : p = .abortHandler
  · simp [hp, h.1]
  · obtain ⟨hs, hq⟩ := report_alike r observer requestID h (some (.inr p))
    simp only [hp, if_false]
    rcases hx : s.report { g with observer := some observer } r requestID (some (.inr p)) with ⟨t, q⟩
    rcases hx' : s'.report g r requestID (some (.inr p)) with ⟨t', q'⟩
    rw [hx, hx'] at hs hq
    obtain rfl : q = q' := hq
    cases q with
    | none => exact ⟨hs.1, by simp only [h.1]⟩
    | some q => exact ⟨hs.1, rfl⟩

theorem response_observer : Boundary.response { g with observer := some observer } r b = g.response r b := by
  have hid : Boundary.newRequestID { g with observer := some observer } r = g.newRequestID r := rfl
  suffices hboth : (Boundary.wrapHandler { g with observer := some observer } r b).exchange.sw = (g.wrapHandler r b).exchange.sw ∧
      (Boundary.wrapHandler { g with observer := some observer } r b).panic = (g.wrapHandler r b).panic by
    simp only [Boundary.response, hboth.1, hboth.2]
  unfold Boundary.wrapHandler
  rw [hid]
  cases g.newRequestID r with
  | error p => exact ⟨rfl, rfl⟩
  | ok requestID =>
    dsimp only
    cases b.ending with
    | panicked p => exact recovered_alike r observer requestID ⟨rfl, rfl⟩ p
    | returned err =>
      obtain ⟨hs, hq⟩ := report_alike r observer requestID (g := g) (s := { sw := b.writer }) ⟨rfl, rfl⟩ (err.map .inl)
      rcases hx : Exchange.report { g with observer := some observer } r requestID { sw := b.writer } (err.map .inl) with ⟨t, q⟩
      rcases hx' : Exchange.report g r requestID { sw := b.writer } (err.map .inl) with ⟨t', q'⟩
      rw [hx, hx'] at hs hq
      obtain rfl : q = q' := hq
      simp only [hx, hx']
      cases q with
      | none => exact ⟨hs.1, rfl⟩
      | some p => exact recovered_alike r observer requestID hs p

end Alike

theorem recovered_of_reported {s : Exchange} (hs : s.reported = true) (requestID : Bytes) (p : Panic) :
    (s.recovered g r requestID p).exchange = s := by
  unfold Exchange.recovered
  split
  · rfl
  · simp [Exchange.report, hs]

/-- Where the handler fails with `e`, the request is left as reporting `e` leaves it, however it ends. -/
theorem wrapHandler_failure {requestID : Bytes} {e : S3Error} (hid : g.newRequestID r = .ok requestID)
    (habort : b.ending ≠ .panicked .abortHandler)
    (hreadable : ∀ err, b.ending = .returned (some err) → err.unreadable = none)
    (he : b.ending.failure = some e) :
    ∃ err, (g.wrapHandler r b).exchange =
      (Exchange.reportError g r requestID { sw := b.writer, reported := true } e err).1 := by
  -- the way back from `report`, and the way out of it
  have hreturned : ∀ (herr : HandlerError) (err : Reason),
      b.ending = .returned (some herr) →
      Exchange.report g r requestID { sw := b.writer } (some (.inl herr)) =
        Exchange.reportError g r requestID { sw := b.writer, reported := true } e err →
      (g.wrapHandler r b).exchange =
        (Exchange.reportError g r requestID { sw := b.writer, reported := true } e err).1 := by
    intro herr err hending hreport
    have hflag := reportError_reported g r requestID { sw := b.writer, reported := true } e err
    rcases hx : Exchange.reportError g r requestID { sw := b.writer, reported := true } e err with ⟨s, _ | p⟩
    · simp [Boundary.wrapHandler, hid, hending, hreport, hx]
    · rw [hx] at hflag
      simp [Boundary.wrapHandler, hid, hending, hreport, hx, recovered_of_reported g r hflag]
  cases hending : b.ending with
  | panicked p =>
    have hp : p ≠ .abortHandler := fun h => habort (h ▸ hending)
    simp only [hending, Ending.failure, Option.some.injEq] at he
    subst he
    refine ⟨.panicked p, ?_⟩
    simp only [Boundary.wrapHandler, hid, hending, Exchange.recovered, hp, if_false, Exchange.report]
    rcases hx : Exchange.reportError g r requestID { sw := b.writer, reported := true } (internalError .other internalMessage)
      (.panicked p) with ⟨s, _ | q⟩
    · simp
    · simp
  | returned herr =>
    rcases herr with _ | (e' | _ | text | value)
    · simp [hending, Ending.failure] at he
    · obtain rfl : e' = e := by simpa [hending, Ending.failure] using he
      exact ⟨_, hreturned (.s3 e') _ hending rfl⟩
    · cases hreadable _ hending
    · obtain rfl : internalError .other internalMessage = e := by simpa [hending, Ending.failure] using he
      exact ⟨_, hreturned (.other text) _ hending rfl⟩
    · cases hreadable _ hending

/-- A handler that returns no error is observed, and its response left as it is. -/
theorem wrapHandler_success {g : Boundary} (hg : g.observer.isSome = true) {requestID : Bytes}
    (hid : g.newRequestID r = .ok requestID) (hending : b.ending = .returned none) :
    (g.wrapHandler r b).exchange.observed.length = 1 ∧ (g.wrapHandler r b).exchange.sw.w = b.writer.w := by
  simp [Boundary.wrapHandler, hid, hending, Exchange.report, observe_length r hg]

/-- An error that cannot be read panics inside `report`, and the flag is set by then. -/
theorem wrapHandler_unreadable {requestID : Bytes} {err : HandlerError} {p : Panic}
    (hid : g.newRequestID r = .ok requestID) (hending : b.ending = .returned (some err))
    (hp : err.unreadable = some p) : (g.wrapHandler r b).exchange.observed = [] := by
  have hflag : Exchange.reported { sw := b.writer, reported := true } = true := rfl
  cases err with
  | s3 e => cases hp
  | other text => cases hp
  | nilS3 => simp [Boundary.wrapHandler, hid, hending, Exchange.report, recovered_of_reported g r hflag]
  | panics value => simp [Boundary.wrapHandler, hid, hending, Exchange.report, recovered_of_reported g r hflag]

/-- A handler that fails is answered and observed once iff it began the response or its error can be
    answered. -/
theorem answersOnce_of_failure {g : Boundary} (hg : g.observer.isSome = true) {requestID : Bytes} {e : S3Error}
    (hid : g.newRequestID r = .ok requestID) (habort : b.ending ≠ .panicked .abortHandler)
    (hreadable : ∀ err, b.ending = .returned (some err) → err.unreadable = none)
    (he : b.ending.failure = some e) :
    g.AnswersOnce r b ↔ (b.writer.started = false → g.CanAnswer r e requestID b.writer.limiter) := by
  obtain ⟨err, hexchange⟩ := wrapHandler_failure g r b hid habort hreadable he
  cases hs : b.writer.started with
  | true =>
    rw [reportError_started _ _ _ _ _ _ hs] at hexchange
    have hnever : ∀ e', ¬ b.FailsEarly e' := fun e' h => by simp [h.2] at hs
    refine iff_of_true ⟨?_, fun e' h => absurd h (hnever e'), fun _ => ?_, fun observer => response_observer r b observer⟩ (by simp)
    · rw [hexchange, observe_length r hg]
      rfl
    · rw [hexchange, observe_sw]
  | false =>
    -- nothing was sent yet, so what the client gets is what writing the error leaves
    have hw := b.writer_fresh.sends hs
    have hwaits := b.writer_fresh.waited hs
    have hsw := reportError_sw g r requestID { sw := b.writer, reported := true } e err hs
    have hobserved := reportError_observed r requestID { sw := b.writer, reported := true } e err hg hs
    rw [← hexchange] at hsw hobserved
    constructor
    · intro h _
      obtain ⟨id, hid', hanswer⟩ := h.answered e ⟨he, hs⟩
      obtain rfl : requestID = id := by simpa [hid] using hid'
      rw [hsw] at hanswer
      exact canAnswer_of_writeError g r e requestID hw hwaits (hobserved.mp h.observed) hanswer
    · intro h
      obtain ⟨hreturns, hanswer⟩ := writeError_of_canAnswer g r e requestID hw hwaits (h rfl)
      refine ⟨hobserved.mpr hreturns, ?_, ?_, fun observer => response_observer r b observer⟩
      · rintro e' ⟨he', -⟩
        obtain rfl : e = e' := by simpa [he] using he'
        exact ⟨requestID, hid, by rw [hsw, hanswer]⟩
      · exact fun hnever => absurd ⟨he, hs⟩ (hnever e)

/-- For every handler and every hook: a request is observed once, and an error answered where the
    handler failed before it began the response, whatever the observer does, iff no hook panics
    outside the recovery, the error is not a nil one nor panics when it is looked into, and its answer
    can be written. -/
theorem answersOnce_iff_answerable (hg : g.observer.isSome = true) (habort : b.ending ≠ .panicked .abortHandler) :
    g.AnswersOnce r b ↔ g.Answerable r b := by
  cases hid : g.newRequestID r with
  | error p =>
    -- a panic of the hook is before the recovery
    have hunseen : (g.wrapHandler r b).exchange.observed = [] := by simp [Boundary.wrapHandler, hid]
    refine iff_of_false (fun h => ?_) (fun h => ?_)
    · have := h.observed
      simp [hunseen] at this
    · obtain ⟨requestID, hid'⟩ := h.identified
      simp [hid] at hid'
  | ok requestID =>
    -- `report` sets its flag first, so a panic inside it is not reported
    by_cases hlost : ∃ err p, b.ending = .returned (some err) ∧ err.unreadable = some p
    · obtain ⟨err, p, hending, hp⟩ := hlost
      refine iff_of_false (fun h => ?_) (fun h => ?_)
      · have := h.observed
        simp [wrapHandler_unreadable g r b hid hending hp] at this
      · simp [h.readable err hending] at hp
    · have hreadable : ∀ err, b.ending = .returned (some err) → err.unreadable = none := by
        intro err hending
        exact Option.eq_none_iff_forall_ne_some.mpr fun p hp => hlost ⟨err, p, hending, hp⟩
      cases he : b.ending.failure with
      | none =>
        have hnever : ∀ e, ¬ b.FailsEarly e := fun e h => by simp [he, Behaviour.FailsEarly] at h
        obtain ⟨hobserved, hw⟩ := wrapHandler_success r b hg hid (Ending.eq_of_failure_eq_none he)
        exact iff_of_true
          ⟨hobserved, fun e h => absurd h (hnever e), fun _ => hw, fun observer => response_observer r b observer⟩
          ⟨⟨requestID, hid⟩, hreadable, fun e _ h _ => absurd h (hnever e)⟩
      | some e =>
        rw [answersOnce_of_failure r b hg hid habort hreadable he]
        constructor
        · intro h
          refine ⟨⟨requestID, hid⟩, hreadable, fun e' id hfails hid' => ?_⟩
          obtain rfl : requestID = id := by simpa [hid] using hid'
          obtain rfl : e = e' := by simpa [he] using hfails.1
          exact h hfails.2
        · exact fun h hs => h.canAnswer e requestID ⟨he, hs⟩ hid

end Once

def reportRequest : Request :=
  { method := str "GET", requestURI := str "/b/k", url := { path := str "/b/k" }, host := str "s3.example", header := [],
    contentLength := 0, remoteAddr := str "192.0.2.1:50000" }

/-- A gateway with an observer that panics at each call. -/
def observedBoundary : Boundary :=
  { marshal := fun d => str "<Error><Code>" ++ d.code ++ str "</Code></Error>",
    observer := some fun _ => some (.other (str "observer")),
    requestID := none, randomRequestID := str "0011223344556677" }

/-- A handler that panics before it begins the response. -/
def panickingHandler : Behaviour := { actions := [], ending := .panicked (.other (str "hook")) }

theorem panickingHandler_answersOnce :
    let _ := asciiTables
    observedBoundary.observer.isSome = true ∧ panickingHandler.ending ≠ .panicked .abortHandler ∧
      observedBoundary.AnswersOnce reportRequest panickingHandler := by
  intro _
  have hending : panickingHandler.ending ≠ .panicked .abortHandler := by simp [panickingHandler]
  refine ⟨rfl, hending, (answersOnce_iff_answerable _ _ _ rfl hending).mpr ⟨⟨_, rfl⟩, by simp [panickingHandler], ?_⟩⟩
  rintro e requestID ⟨he, -⟩ -
  obtain rfl : internalError .other internalMessage = e := by simpa [panickingHandler, Ending.failure] using he
  exact ⟨by decide, fun _ => by decide, fun l hl => absurd hl (by simp [panickingHandler, Behaviour.writer])⟩

/-- An error built without a status, as a hook outside the package builds one. -/
def statuslessHandler : Behaviour :=
  { actions := [], ending := .returned (some (.s3 { status := 0, code := str "SlowDown", message := str "try later" })) }

/-- An error without a status is neither answered nor observed: the header panics after the flag is
    set, and the connection is dropped. -/
theorem statuslessHandler_unobserved :
    let _ := asciiTables
    (observedBoundary.wrapHandler reportRequest statuslessHandler).exchange.observed.length = 0 ∧
      (observedBoundary.wrapHandler reportRequest statuslessHandler).exchange.sw.w = {} ∧
      (observedBoundary.wrapHandler reportRequest statuslessHandler).panic = some .abortHandler ∧
      ¬ observedBoundary.AnswersOnce reportRequest statuslessHandler := by
  intro _
  have hunseen : (observedBoundary.wrapHandler reportRequest statuslessHandler).exchange.observed.length = 0 := by decide +kernel
  refine ⟨hunseen, by decide +kernel, by decide +kernel, fun h => ?_⟩
  have hseen := h.observed
  omega

end S3Gateway.S3gw
