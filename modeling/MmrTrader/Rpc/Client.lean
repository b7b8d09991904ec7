import MmrTrader.Rpc.Replay

/-!
# The typed RPC client

Executable model of `ServiceIdentity.verify_response` and `TypedRpcClient.call`, and of the replies of
`TypedRpcServer` (`trader/messaging/typed_rpc.py`).

* `verifyResponse` — every check of a reply; `awaitReply`, `call` — the loop over what the socket delivers.
* `replyTo` — what a server signs of a request that it was sent.
* `calls_are_answered` — a call returns only what the dialled server answered to this very request.

The socket delivers any frames at all.  `requestDigest` is sha256; a reply model other than `dict` is left to the caller.
-/

set_option autoImplicit false

namespace MmrTrader.Rpc

open Lib.CanonicalJson

variable {F : Type}

/-! ## Replies -/

/-- A reply as it comes; the signature is not among the fields it covers. -/
structure Reply (F : Type) where
  response : TypedRpcResponse F
  signature : Option String

/-- What the client raises on its own. -/
inductive LocalError where
  | unreachable
  | timeout
  | unparseable
  | authentication (message : String)
  | typeError

inductive CallError (F : Type) where
  | local (e : LocalError)
  | remote (problem : RpcProblem F)

/-- `model_dump` of a request. -/
def TypedRpcRequest.dump (r : TypedRpcRequest F) : Body F := .field "signature" (.str r.signature) r.signedFields

/-- `_handle_request` and `_reply`: what cannot be decoded is answered without an id and a digest. -/
def replyTo (requestDigest : ByteArray → String) (server : String) (raw : ByteArray) (request : Option (TypedRpcRequest F))
    (ok : Bool) (body : Option (Body F)) (problem : Option (RpcProblem F)) : TypedRpcResponse F :=
  match request with
  | none =>
    { requestId := "", ok := false, body := none, problem := problem, server := server, requestDigest := "" }
  | some request =>
    { requestId := request.requestId
      ok := ok
      body := if ok then body else none
      problem := problem
      server := server
      requestDigest := requestDigest raw }

/-! ## The wait -/

/-- What one `poll` of 50 ms finds: nothing, or a frame that `decode_response` reads or refuses. -/
inductive Poll (F : Type) where
  | nothing
  | frame (reply : Option (Reply F))

/-- The loop of `call`; none while it goes on. -/
def awaitReply (requestId : String) (deadlineMs : ℚ) : ℚ → List (Poll F) → Option (Except LocalError (Reply F))
  | elapsedMs, [] => if elapsedMs < deadlineMs then none else some (.error .timeout)
  | elapsedMs, poll :: polls =>
    if elapsedMs < deadlineMs then
      match poll with
      | .nothing => awaitReply requestId deadlineMs (elapsedMs + 50) polls
      | .frame none => some (.error .unparseable)
      | .frame (some reply) =>
        if reply.response.requestId ≠ requestId then awaitReply requestId deadlineMs (elapsedMs + 50) polls
        else some (.ok reply)
    else some (.error .timeout)

variable {reply : Reply F} {requestId : String} {deadlineMs elapsedMs : ℚ} {polls : List (Poll F)}

theorem awaitReply_ok (h : awaitReply requestId deadlineMs elapsedMs polls = some (.ok reply)) :
    reply.response.requestId = requestId ∧ .frame (some reply) ∈ polls := by
  induction polls generalizing elapsedMs with
  | nil =>
    rw [awaitReply] at h
    split at h <;> cases h
  | cons poll polls ih =>
    have hlater : ∀ {ms}, awaitReply requestId deadlineMs ms polls = some (.ok reply) →
        reply.response.requestId = requestId ∧ .frame (some reply) ∈ poll :: polls :=
      fun hrest => (ih hrest).imp id (List.mem_cons_of_mem poll)
    unfold awaitReply at h
    split at h
    · split at h
      · exact hlater h
      · cases h
      · split at h
        · exact hlater h
        · rename_i hid
          cases h
          exact ⟨not_not.mp hid, List.mem_cons_self⟩
    · cases h

/-- Every turn that goes on takes 50 ms of the deadline. -/
theorem awaitReply_ends (h : deadlineMs ≤ elapsedMs + 50 * polls.length) :
    (awaitReply requestId deadlineMs elapsedMs polls).isSome := by
  induction polls generalizing elapsedMs with
  | nil =>
    have hover : ¬ elapsedMs < deadlineMs := by simpa using h
    simp [awaitReply, hover]
  | cons poll polls ih =>
    have hlater : (awaitReply requestId deadlineMs (elapsedMs + 50) polls).isSome := by
      refine ih (h.trans (le_of_eq ?_))
      rw [List.length_cons, Nat.cast_succ, mul_add, mul_one, add_comm (50 * _) 50, ← add_assoc]
    unfold awaitReply
    split
    · split
      · exact hlater
      · rfl
      · split
        · exact hlater
        · rfl
    · rfl

/-! ## A call -/

variable [PyFloat F]

/-- The bytes a client sends. -/
def TypedRpcRequest.wire (r : TypedRpcRequest F) : ByteArray := (canonical (.object r.dump)).toUTF8

/-- `verify_response`; `compare_digest` takes no text beyond ASCII. -/
def ServiceIdentity.verifyResponse (S : ServiceIdentity F) (server digest : String) (reply : Reply F) :
    Except LocalError Unit :=
  if reply.signature.getD "" = "" then .error (.authentication "response is missing its signature")
  else if reply.response.server ≠ server then .error (.authentication "response names the wrong server")
  else
    match S.keyring server with
    | none => .error (.authentication "no trusted key for server")
    | some key =>
      if S.verifyBytes key (responseSigningBytes reply.response) (reply.signature.getD "") = false then
        .error (.authentication "response signature mismatch")
      else if reply.response.requestDigest.toList.any (fun c => 128 ≤ c.toNat) then .error .typeError
      else if reply.response.requestDigest ≠ digest then .error (.authentication "response request digest mismatch")
      else .ok ()

/-- The end of a call, and whether it reset the socket. -/
structure CallEnd (F : Type) where
  result : Except (CallError F) (Body F)
  reset : Bool

/-- What a verified reply makes of the call. -/
def TypedRpcResponse.result (r : TypedRpcResponse F) : Except (CallError F) (Body F) :=
  if r.ok then .ok (r.body.getD .empty)
  else .error (.remote (r.problem.getD ⟨"UNKNOWN_ERROR", "server returned ok=False with no problem detail", none⟩))

/-- What follows the loop: a reply that does not verify is not even read. -/
def ServiceIdentity.settle (S : ServiceIdentity F) (server digest : String) :
    Except LocalError (Reply F) → CallEnd F
  | .error e => ⟨.error (.local e), true⟩
  | .ok reply =>
    match S.verifyResponse server digest reply with
    | .error e => ⟨.error (.local e), true⟩
    | .ok _ => ⟨reply.response.result, false⟩

/-- `call`; `sent` says whether the socket took the request. -/
def ServiceIdentity.call (S : ServiceIdentity F) (requestDigest : ByteArray → String) (server : String)
    (request : TypedRpcRequest F) (deadlineMs : ℚ) (sent : Bool) (polls : List (Poll F)) : Option (CallEnd F) :=
  if sent = false then some ⟨.error (.local .unreachable), true⟩
  else (awaitReply request.requestId deadlineMs 0 polls).map (S.settle server (requestDigest request.wire))

/-! ## What the bytes of an answer say -/

/-- Equal in every field a response's signature covers, dictionaries as dictionaries. -/
structure SameAnswer (r r' : TypedRpcResponse F) : Prop where
  server : r.server = r'.server
  requestId : r.requestId = r'.requestId
  requestDigest : r.requestDigest = r'.requestDigest
  ok : r.ok = r'.ok
  body : sortKeys (ofOptionalBody r.body) = sortKeys (ofOptionalBody r'.body)
  problem : sortKeys ((r.problem.map RpcProblem.toJson).getD .null) = sortKeys ((r'.problem.map RpcProblem.toJson).getD .null)

/-- **The signed bytes determine the answer.** -/
theorem responseSigningBytes_injective {r r' : TypedRpcResponse F} (h : responseSigningBytes r = responseSigningBytes r') :
    SameAnswer r r' := by
  have htext : RPC_RESPONSE_CONTEXT ++ canonical (.object r.signedFields) =
      RPC_RESPONSE_CONTEXT ++ canonical (.object r'.signedFields) := String.toByteArray_inj.mp h
  have hfield := sorted_field (canonical_injective ((String.append_right_inj _).mp htext))
  refine ⟨?_, ?_, ?_, ?_, ?_, ?_⟩
  · simpa [TypedRpcResponse.signedFields, get?, sortKeys] using hfield "server"
  · simpa [TypedRpcResponse.signedFields, get?, sortKeys] using hfield "request_id"
  · simpa [TypedRpcResponse.signedFields, get?, sortKeys] using hfield "request_digest"
  · simpa [TypedRpcResponse.signedFields, get?, sortKeys] using hfield "ok"
  · simpa [TypedRpcResponse.signedFields, get?] using hfield "body"
  · simpa [TypedRpcResponse.signedFields, get?] using hfield "problem"

variable {S : ServiceIdentity F} {server digest : String}

theorem verifyResponse_ok (h : S.verifyResponse server digest reply = .ok ()) :
    reply.response.requestDigest = digest ∧ ∃ r, S.signed server (.response r) ∧ SameAnswer r reply.response := by
  unfold ServiceIdentity.verifyResponse at h
  split at h
  · cases h
  split at h
  · cases h
  cases hkey : S.keyring server with
  | none =>
    rw [hkey] at h
    cases h
  | some key =>
    rw [hkey] at h
    dsimp only at h
    split at h
    · cases h
    rename_i hverify
    split at h
    · cases h
    split at h
    · cases h
    rename_i hdigest
    refine ⟨not_not.mp hdigest, ?_⟩
    obtain ⟨m, hm, hbytes⟩ := S.unforgeable _ key _ _ hkey (by simpa using hverify)
    cases m with
    | request r => exact absurd hbytes (request_ne_response r _)
    | response r => exact ⟨r, hm, responseSigningBytes_injective hbytes⟩

/-! ## The protocol -/

/-- A server's key signs answers to what the server was sent, and nothing else. -/
def AnswersOnly (S : ServiceIdentity F) (requestDigest : ByteArray → String) (server : String)
    (received : ByteArray → Option (TypedRpcRequest F) → Prop) : Prop :=
  ∀ r, S.signed server (.response r) → ∃ raw request ok body problem, received raw request ∧
    r = replyTo requestDigest server raw request ok body problem

/-- What a call promises: it ends, and it returns an answer of the server to the bytes it sent, or raises an error of
its own and resets the socket. -/
structure CallPromise (S : ServiceIdentity F) (requestDigest : ByteArray → String) (server : String)
    (received : ByteArray → Option (TypedRpcRequest F) → Prop) (request : TypedRpcRequest F) (deadlineMs : ℚ) (sent : Bool)
    (polls : List (Poll F)) : Prop where
  ends : deadlineMs ≤ 50 * polls.length → (S.call requestDigest server request deadlineMs sent polls).isSome
  answered : ∀ e, S.call requestDigest server request deadlineMs sent polls = some e →
    (e.reset = true ∧ ∃ x, e.result = .error (.local x)) ∨
      (e.reset = false ∧ ∃ reply, .frame (some reply) ∈ polls ∧ e.result = reply.response.result ∧
        ∃ decoded ok body problem, received request.wire (some decoded) ∧ decoded.requestId = request.requestId ∧
          SameAnswer (replyTo requestDigest server request.wire (some decoded) ok body problem) reply.response)

/-- **A call returns only what the dialled server answered to this very request**, whatever the socket delivers. -/
theorem calls_are_answered (S : ServiceIdentity F) (requestDigest : ByteArray → String) (server : String)
    (received : ByteArray → Option (TypedRpcRequest F) → Prop) (hserver : AnswersOnly S requestDigest server received)
    (request : TypedRpcRequest F) (hid : request.requestId ≠ "")
    (hdigest : ∀ raw decoded, received raw decoded → requestDigest raw = requestDigest request.wire → raw = request.wire)
    (deadlineMs : ℚ) (sent : Bool) (polls : List (Poll F)) :
    CallPromise S requestDigest server received request deadlineMs sent polls := by
  refine ⟨fun hlong => ?_, fun e he => ?_⟩
  · unfold ServiceIdentity.call
    split
    · rfl
    · rw [Option.isSome_map]
      exact awaitReply_ends (by simpa using hlong)
  · unfold ServiceIdentity.call at he
    split at he
    · cases he
      exact Or.inl ⟨rfl, _, rfl⟩
    · obtain ⟨waited, hwaited, rfl⟩ := Option.map_eq_some_iff.mp he
      cases waited with
      | error x => exact Or.inl ⟨rfl, x, rfl⟩
      | ok reply =>
        obtain ⟨hmine, hmem⟩ := awaitReply_ok hwaited
        cases hverify : S.verifyResponse server (requestDigest request.wire) reply with
        | error x =>
          simp only [ServiceIdentity.settle, hverify]
          exact Or.inl ⟨trivial, x, rfl⟩
        | ok u =>
          simp only [ServiceIdentity.settle, hverify]
          obtain ⟨hdig, r, hsigned, hsame⟩ := verifyResponse_ok hverify
          obtain ⟨raw, decoded, ok, body, problem, hreceived, rfl⟩ := hserver r hsigned
          cases decoded with
          | none => exact absurd (hmine.symm.trans hsame.requestId.symm) hid
          | some decoded =>
            have hraw := hdigest raw _ hreceived (hsame.requestDigest.trans hdig)
            rw [hraw] at hreceived hsame
            exact Or.inr ⟨trivial, reply, hmem, rfl, decoded, ok, body, problem, hreceived, hsame.requestId.trans hmine, hsame⟩

/-- The trader's answer to the sample request. -/
def sampleAnswer : TypedRpcResponse WholeSeconds :=
  replyTo (fun _ => "digest") "trader" sampleRequest.wire (some sampleRequest) true (some .empty) none

/-- A client that knows the trader's key, which has signed the one answer. -/
def sampleClient : ServiceIdentity WholeSeconds where
  principal := "cli"
  Key := Unit
  keyring name := if name = "trader" then some () else none
  verifyBytes _ message _ := @decide _ (ByteArray.instDecidableEq message (responseSigningBytes sampleAnswer))
  signed _ m := m = .response sampleAnswer
  unforgeable _ _ _ _ _ h := ⟨_, rfl, (of_decide_eq_true h).symm⟩

theorem calls_are_answered_sample : CallPromise sampleClient (fun _ => "digest") "trader"
    (fun raw decoded => raw = sampleRequest.wire ∧ decoded = some sampleRequest) sampleRequest 100 true
    [.frame (some ⟨{ sampleAnswer with requestId := "request-0" }, some "late"⟩),
      .frame (some ⟨sampleAnswer, some "signature"⟩)] := by
  refine calls_are_answered sampleClient _ "trader" _ ?_ sampleRequest (by decide) (fun raw decoded h _ => h.1) 100 true _
  rintro r ⟨⟩
  exact ⟨_, _, _, _, _, ⟨rfl, rfl⟩, rfl⟩

end MmrTrader.Rpc
