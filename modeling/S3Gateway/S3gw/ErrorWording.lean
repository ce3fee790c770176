import S3Gateway.Library.TwoRuns
import S3Gateway.S3gw.Serve

/-! # The backend's wording

Two runs of a request whose replies differ only in the wording of errors.  Errors of the
backend client are reported without their wording; the errors of a `DeleteObjects` result
are copied. -/

namespace S3Gateway.S3gw

open Go S3err S3op Interaction TwoRuns

/-! ## Replies without their wording -/

/-- What a reply says apart from the wording of its errors. -/
def unworded : BackendReply → BackendReply
  | .error e => .error { e with apiMessage := [] }
  | .ok out => .ok { out with errors := out.errors.map fun e => { e with message := [] } }

def keyMessages : BackendReply → List Bytes
  | .error _ => []
  | .ok out => out.errors.map (·.message)

def DifferInWording (reply reply' : BackendReply) : Prop := unworded reply = unworded reply'

/-- The errors of single keys are worded alike, where there are any. -/
def SameToClient (call : BackendCall) (reply reply' : BackendReply) : Prop :=
  DifferInWording reply reply' ∧ (call.input.objects ≠ [] → keyMessages reply = keyMessages reply')

theorem continued_alike {α : Type} {k : BackendReply → α} (hk : ∀ reply, k reply = k (unworded reply))
    {reply reply' : BackendReply} (h : DifferInWording reply reply') : k reply = k reply' := by
  rw [hk reply, hk reply', h]

theorem errors_eq {errors errors' : List DeleteError}
    (hrest : errors.map (fun e => { e with message := [] }) = errors'.map fun e => { e with message := [] })
    (hmessages : errors.map (·.message) = errors'.map (·.message)) : errors = errors' := by
  have hinjective : Function.Injective fun e : DeleteError => ({ e with message := [] }, e.message) := by
    rintro ⟨key, versionId, code, message⟩ ⟨key', versionId', code', message'⟩ h
    simpa [and_assoc] using h
  apply List.map_injective_iff.mpr hinjective
  rw [← List.zip_map', ← List.zip_map', hrest, hmessages]

/-! ## Every step of a request -/

section Steps

variable [Unicode]

/-- How `proxied` goes on. -/
def proxiedReply (c : OpCtx) (reply : BackendReply) : HandlerProg :=
  match reply with
  | .error e => refuse (fromSDKError e c.r.url.path)
  | .ok _ => .pure (.ok .rendered)

/-- How `deleteForward` goes on. -/
def deleteReply (c : OpCtx) (p : DeleteProgress) (reply : BackendReply) : HandlerProg :=
  match reply with
  | .error e => refuse (fromSDKError e c.r.url.path)
  | .ok out => .pure (.ok (.deleteResult { deleted := out.deleted, errors := p.errors ++ out.errors } p.denials))

variable {P : BackendCall → (BackendReply → HandlerProg) → Prop}

omit [Unicode] in
theorem proxied_eachStep {c : OpCtx} {input : Except S3Error BackendInput}
    (h : ∀ i, input = .ok i → P ⟨c.cfg.backend, i⟩ (proxiedReply c)) : (proxied c input).EachStep P := by
  cases input with
  | error e => trivial
  | ok i =>
    refine ⟨h i rfl, fun reply => ?_⟩
    cases reply <;> trivial

theorem deleteObjects_eachStep {c : OpCtx}
    (h : ∀ (call : BackendCall) (p : DeleteProgress), call.input.objects ≠ [] → P call (deleteReply c p)) :
    (deleteObjects c).EachStep P := by
  unfold deleteObjects
  split
  · trivial
  · split
    · trivial
    · split
      · trivial
      · rename_i p _
        unfold deleteForward
        split
        · trivial
        · rename_i hsome
          refine ⟨h _ p (fun hnone => hsome (List.length_eq_zero_iff.mpr hnone)), fun reply => ?_⟩
          cases reply <;> trivial

theorem run_eq_proxied (c : OpCtx) {h : Handler} {f : Forwards} (hf : h.forwards = some f) :
    ∃ input, h.run c = proxied c input := by
  cases h <;> cases hf <;> simp only [Handler.run] <;> exact ⟨_, rfl⟩

theorem Handler.run_eachStep {c : OpCtx}
    (hproxied : ∀ i : BackendInput, i.objects = [] → P ⟨c.cfg.backend, i⟩ (proxiedReply c))
    (hdelete : ∀ (call : BackendCall) (p : DeleteProgress), call.input.objects ≠ [] → P call (deleteReply c p))
    (h : Handler) : (h.run c).EachStep P := by
  -- every handler but one passes on a single call, or none
  by_cases hdel : h = .deleteObjects
  · rw [hdel]
    exact deleteObjects_eachStep hdelete
  · cases hf : h.forwards with
    | none => exact Prog.eachStep_of_silent (run_silent hf hdel _)
    | some f =>
      obtain ⟨input, hrun⟩ := run_eq_proxied c hf
      have hcalls := run_forwards (c := c) hf
      rw [hrun] at hcalls ⊢
      apply proxied_eachStep
      intro i hi
      exact hproxied i (proxied_eachCall.mp hcalls i hi).2.objects

/-- The base of a request's steps: one call that is passed on, one that deletes, one that
    uploads a form's file. -/
structure StepRules (P : BackendCall → (BackendReply → HandlerProg) → Prop) (g : Gateway) : Prop where
  proxied : ∀ (c : OpCtx) (i : BackendInput), i.objects = [] → P ⟨c.cfg.backend, i⟩ (proxiedReply c)
  delete : ∀ (c : OpCtx) (call : BackendCall) (p : DeleteProgress), call.input.objects ≠ [] →
    P call (deleteReply c p)
  upload : ∀ (c : OpCtx) (pp : Sigv4.PostPolicy) (i : PutObjectInput),
    P ⟨c.cfg.backend, .putObject i⟩ (postPutReply c pp)
  undo : ∀ (c : OpCtx) (out : BackendOutput), P (undoInput c out) fun _ => refuse entityTooSmall
  hooks : ∀ (op : Op) (run : HandlerProg), run.EachStep P → (runOp g op run).EachStep P

variable {g : Gateway} {dec : Decoding} {r : Request} {form : Form}

theorem postPutObject_eachStep (hP : StepRules P g) (c : OpCtx) (fields : Sigv4.Fields) (pp : Sigv4.PostPolicy) :
    (postPutObject c fields pp).EachStep P := by
  unfold postPutObject
  split
  · trivial
  · refine ⟨hP.upload c pp _, fun reply => ?_⟩
    unfold postPutReply
    split
    · trivial
    · split
      · exact ⟨hP.undo c _, fun _ => trivial⟩
      · trivial

theorem dispatch_eachStep {c : OpCtx} (hP : StepRules P c.g) (routes : List Route) :
    (dispatch c routes).EachStep P := by
  unfold dispatch
  split
  · trivial
  · split
    · trivial
    · split
      · trivial
      · rename_i rt _ c' hroute
        obtain ⟨actions, hpassed⟩ := checkRoute_eq_ok hroute
        have hg : c'.g = c.g := by rw [hpassed.context]
        rw [hg]
        exact hP.hooks _ _ (Handler.run_eachStep (hP.proxied c') (hP.delete c') _)

theorem handleService_eachStep (hP : StepRules P g) (vr : VerifiedRequest) : (handleService g r vr).EachStep P := by
  unfold handleService
  dsimp only
  split
  · trivial
  · split
    · trivial
    · split
      · trivial
      · exact hP.hooks _ _ trivial

theorem handleBucket_eachStep (hP : StepRules P g) (vr : VerifiedRequest) (t : Target) :
    (handleBucket g dec r vr t).EachStep P := by
  unfold handleBucket
  split
  · trivial
  · split
    · trivial
    · unfold handleTarget handleBucketRequest handleObjectRequest
      split
      · split
        · trivial
        · exact dispatch_eachStep hP _
      · split
        · trivial
        · exact dispatch_eachStep hP _

theorem handleSigned_eachStep (hP : StepRules P g) : (handleSigned g dec r).EachStep P := by
  unfold handleSigned
  split
  · trivial
  · dsimp only
    split
    · trivial
    · split
      · trivial
      · split
        · exact handleService_eachStep hP _
        · exact handleBucket_eachStep hP _ _

theorem handleRequest_eachStep (hP : StepRules P g) : (handleRequest g dec r form).EachStep P := by
  unfold handleRequest
  split
  · trivial
  · split
    · trivial
    · unfold handlePostObject
      split
      · trivial
      · exact hP.hooks _ _ (postPutObject_eachStep hP _ _ _)
    · exact handleSigned_eachStep hP

end Steps

/-! ## What reaches the client -/

section Client

variable [Unicode] {g : Gateway} {dec : Decoding} {r : Request} {form : Form}

omit [Unicode] in
theorem runOp_blind {A : BackendCall → BackendReply → BackendReply → Prop} (op : Op) {run : HandlerProg}
    (h : Blind A run) : Blind A (runOp g op run) := by
  unfold runOp
  split
  · trivial
  · induction g.interceptors with
    | nil => exact h
    | cons i rest ih => exact Blind.subst (fun _ => ih) (i op)

omit [Unicode] in
theorem deleteReply_eq (c : OpCtx) (p : DeleteProgress) {reply reply' : BackendReply}
    (hrest : DifferInWording reply reply') (hmessages : keyMessages reply = keyMessages reply') :
    deleteReply c p reply = deleteReply c p reply' := by
  cases reply with
  | error e =>
    cases reply' with
    | ok out => cases hrest
    | error e' =>
      -- `fromSDKError` does not read the message
      have hsame : fromSDKError { e with apiMessage := [] } c.r.url.path =
          fromSDKError { e' with apiMessage := [] } c.r.url.path := by
        rw [Except.error.inj hrest]
      exact congrArg refuse hsame
  | ok out =>
    cases reply' with
    | error e => cases hrest
    | ok out' =>
      have hout := Except.ok.inj hrest
      have herrors : out.errors = out'.errors := errors_eq (congrArg BackendOutput.errors hout) hmessages
      have hdeleted : out.deleted = out'.deleted := (BackendOutput.mk.inj hout).2.2.1
      rw [deleteReply, deleteReply, herrors, hdeleted]

omit [Unicode] in
theorem sameToClient_steps :
    StepRules (fun call k => ∀ reply reply', SameToClient call reply reply' → k reply = k reply') g where
  proxied c i _ reply reply' h := by
    refine continued_alike (k := proxiedReply c) (fun reply => ?_) h.1
    cases reply <;> rfl
  delete c call p hobjects reply reply' h := deleteReply_eq c p h.1 (h.2 hobjects)
  upload c pp i reply reply' h := by
    refine continued_alike (k := postPutReply c pp) (fun reply => ?_) h.1
    cases reply <;> rfl
  undo c out _ _ _ := rfl
  hooks op run h := runOp_blind op h

omit [Unicode] in
/-- A deletion passes on the errors of single keys as they are, if no hook is in between. -/
theorem relays_steps (hg : g.interceptors = []) :
    StepRules (fun call k => call.input.objects ≠ [] → ∃ errors denials, ∀ out : BackendOutput, k (.ok out) =
      .pure (.ok (.deleteResult { deleted := out.deleted, errors := errors ++ out.errors } denials))) g where
  proxied _ _ hnone hobjects := absurd hnone hobjects
  delete _ _ p _ _ := ⟨p.errors, p.denials, fun _ => rfl⟩
  upload _ _ _ hobjects := absurd rfl hobjects
  undo _ _ hobjects := absurd rfl hobjects
  hooks op run h := by
    unfold runOp
    split
    · trivial
    · rw [hg]
      exact h

variable (g dec r form) in
/-- What the client receives: the response, and what the replies say apart from the wording
    of errors, of which its body and headers are made. -/
def received (requestID : Bytes) (replies : List BackendReply) : Option (ClientResponse × List BackendReply) :=
  ((serve g dec r form requestID).answer replies).map fun (response, used) => (response, used.map unworded)

theorem received_eq (requestID : Bytes) (replies : List BackendReply) :
    received g dec r form requestID replies =
      (((handleRequest g dec r form).answer replies).map fun (result, used) => (result, used.map unworded)).map
        fun (result, used) => (report g dec r form requestID result, used) := by
  rw [received, serve, Prog.answer_map, Option.map_map, Option.map_map]
  rfl

theorem received_congr {B : BackendReply → BackendReply → Prop}
    (hB : ∀ reply reply', B reply reply' → DifferInWording reply reply')
    (hmessages : ∀ call, (handleRequest g dec r form).Issues call → call.input.objects ≠ [] →
      ∀ reply reply', B reply reply' → keyMessages reply = keyMessages reply')
    (requestID : Bytes) {replies replies' : List BackendReply} (h : List.Forall₂ B replies replies') :
    received g dec r form requestID replies = received g dec r form requestID replies' := by
  have hblind : Blind SameToClient (handleRequest g dec r form) := handleRequest_eachStep sameToClient_steps
  rw [received_eq, received_eq, hblind.answer_eq (fun call hcall reply reply' hreply =>
    ⟨hB reply reply' hreply, fun hobjects => hmessages call hcall hobjects reply reply' hreply⟩) h hB]

/-- The errors of single keys that a response lists. -/
def keyErrors : ClientResponse → List DeleteError
  | .rendered _ _ (.deleteResult result _) => result.errors
  | _ => []

def oneError (message : Bytes) : BackendOutput := { errors := [⟨[], [], [], message⟩] }

theorem received_ne (hg : g.interceptors = []) {call : BackendCall}
    (hcall : (handleRequest g dec r form).Issues call) (hobjects : call.input.objects ≠ []) (requestID : Bytes) :
    ∃ replies replies', List.Forall₂ DifferInWording replies replies' ∧
      received g dec r form requestID replies ≠ received g dec r form requestID replies' := by
  -- up to the call both runs get the same replies
  obtain ⟨replies, k, hreaches⟩ := Prog.exists_reaches hcall
  obtain ⟨errors, denials, hk⟩ := hreaches.step (handleRequest_eachStep (relays_steps hg)) hobjects
  refine ⟨replies ++ [.ok (oneError (str "a"))], replies ++ [.ok (oneError (str "b"))], ?_, ?_⟩
  · have hlast : List.Forall₂ DifferInWording [.ok (oneError (str "a"))] [.ok (oneError (str "b"))] :=
      .cons rfl .nil
    have hbefore : List.Forall₂ DifferInWording replies replies := List.forall₂_same.mpr fun _ _ => rfl
    exact List.rel_append hbefore hlast
  · rw [received_eq, received_eq, hreaches.answer (hk _), hreaches.answer (hk _)]
    intro hsame
    simp only [Option.map_some, Option.some.injEq, Prod.mk.injEq] at hsame
    have herrors := congrArg keyErrors hsame.1
    simp only [keyErrors, report, oneError] at herrors
    cases List.append_cancel_left herrors

variable (g dec r form) in
/-- The wording of an error reaches the client only as the message of a single key in a reply to
    `DeleteObjects`. Unless a hook is in between, it does so for every request that makes such a call. -/
theorem serve_hides_wording_iff (requestID : Bytes) :
    (∀ replies replies', List.Forall₂ (fun reply reply' => DifferInWording reply reply' ∧
        keyMessages reply = keyMessages reply') replies replies' →
      received g dec r form requestID replies = received g dec r form requestID replies') ∧
    (g.interceptors = [] →
      ((∀ replies replies', List.Forall₂ DifferInWording replies replies' →
        received g dec r form requestID replies = received g dec r form requestID replies') ↔
      ∀ call, (handleRequest g dec r form).Issues call → call.input.objects = [])) := by
  refine ⟨fun replies replies' h => ?_, fun hg => ⟨fun hall call hcall => ?_, fun hnone replies replies' h => ?_⟩⟩
  · exact received_congr (fun _ _ h => h.1) (fun _ _ _ _ _ h => h.2) requestID h
  · by_contra hobjects
    obtain ⟨replies, replies', hdiffer, hne⟩ := received_ne hg hcall hobjects requestID
    exact hne (hall replies replies' hdiffer)
  · exact received_congr (fun _ _ h => h) (fun call hcall hobjects => absurd (hnone call hcall) hobjects) requestID h

end Client

/-! ## A message with a name in it -/

/-- A reply that refuses `tmp/1`. -/
def refusedKey (message : Bytes) : BackendReply :=
  .ok { errors := [⟨str "tmp/1", [], str "AccessDenied", message⟩] }

/-- What the client reads about `tmp/1`. -/
def readOfKey (reply : BackendReply) : Option (List Bytes) :=
  let _ := asciiTables
  (received sharedGateway sharedDeleteCtx.dec sharedDeleteRequest (.ok []) [] [reply]).map fun answer =>
    ((keyErrors answer.1).filter (·.key = str "tmp/1")).map (·.message)

/-- The client of a deletion reads the name that the backend knows the gateway by. -/
theorem refusedKey_relayed :
    let message := str "User: arn:aws:iam::123456789012:user/gateway is not authorized"
    DifferInWording (refusedKey message) (refusedKey (str "Access Denied")) ∧
    readOfKey (refusedKey message) = some [message] ∧
    readOfKey (refusedKey (str "Access Denied")) = some [str "Access Denied"] :=
  ⟨rfl, by decide +kernel, by decide +kernel⟩

end S3Gateway.S3gw
