import Mathlib.Data.Rat.Defs
import MmrTrader.Lib.CanonicalJson
import MmrTrader.Lib.Digits

/-!
# Signed envelopes

The signed bytes of `trader/messaging/typed_rpc.py`.

* `PyFloat`, `PyNumber` — Python's finite floats and its integers, as `json.dumps` writes them.
* `TypedRpcRequest`, `TypedRpcResponse` — the envelopes; a `dict` is a chain of fields.
* `rpcSigningBytes`, `responseSigningBytes` — what a signature covers.
* `SameFields`, `rpcSigningBytes_injective` — the bytes determine every signed field, the body up to the order of its
  keys; `request_ne_response` — no response has the bytes of a request.
-/

set_option autoImplicit false

namespace MmrTrader.Rpc

open Lib.CanonicalJson

/-- Finite floats: their values, and `repr`, which reads back and always shows a point or an exponent. -/
class PyFloat (F : Type) where
  value : F → ℚ
  repr : F → List Char
  repr_injective : ∀ f g, repr f = repr g → f = g
  repr_chars : ∀ f, ∀ c ∈ repr f, isNumberChar c = true
  repr_marked : ∀ f, ∃ c ∈ repr f, c = '.' ∨ c = 'e'

/-- Data without floats. -/
instance : PyFloat Empty where
  value := Empty.elim
  repr := Empty.elim
  repr_injective f := f.elim
  repr_chars f := f.elim
  repr_marked f := f.elim

inductive PyNumber (F : Type) where
  | int (n : Int)
  | float (f : F)

def intText : Int → List Char
  | .ofNat n => Nat.toDigits 10 n
  | .negSucc n => '-' :: Nat.toDigits 10 (n + 1)

variable {c : Char}

theorem isDigit_of_mem_toDigits {n : Nat} (h : c ∈ Nat.toDigits 10 n) : c.isDigit = true :=
  Nat.isDigit_of_mem_toDigits (by decide) (by decide) h

variable {n : Int}

theorem intText_injective {m : Int} (h : intText m = intText n) : m = n := by
  have hsign : ∀ a b : Nat, Nat.toDigits 10 a ≠ '-' :: Nat.toDigits 10 b := by
    intro a b hab
    have hdash : '-' ∈ Nat.toDigits 10 a := hab ▸ List.mem_cons_self
    exact absurd (isDigit_of_mem_toDigits hdash) (by decide)
  cases m with
  | ofNat a =>
    cases n with
    | ofNat b => exact congrArg Int.ofNat (Lib.toDigits_injective h)
    | negSucc b => exact absurd h (hsign _ _)
  | negSucc a =>
    cases n with
    | ofNat b => exact absurd h.symm (hsign _ _)
    | negSucc b => exact congrArg Int.negSucc (Nat.succ_injective (Lib.toDigits_injective (List.cons.inj h).2))

theorem intText_chars (h : c ∈ intText n) : c = '-' ∨ c.isDigit = true := by
  cases n with
  | ofNat a => exact Or.inr (isDigit_of_mem_toDigits h)
  | negSucc a => exact (List.mem_cons.mp h).imp id isDigit_of_mem_toDigits

variable {F : Type}

theorem intText_ne_repr [PyFloat F] (n : Int) (f : F) : intText n ≠ PyFloat.repr f := by
  intro h
  obtain ⟨c, hc, hmark⟩ := PyFloat.repr_marked f
  rw [← h] at hc
  rcases intText_chars hc with rfl | hdigit
  · rcases hmark with hmark | hmark <;> cases hmark
  · rcases hmark with rfl | rfl <;> exact absurd hdigit (by decide)

instance [PyFloat F] : NumberText (PyNumber F) where
  text
    | .int n => intText n
    | .float f => PyFloat.repr f
  text_injective := by
    rintro (m | f) (n | g) h
    · exact congrArg PyNumber.int (intText_injective h)
    · exact absurd h (intText_ne_repr m g)
    · exact absurd h.symm (intText_ne_repr n f)
    · exact congrArg PyNumber.float (PyFloat.repr_injective f g h)
  text_ne_nil := by
    rintro (n | f) h
    · cases n with
      | ofNat a => exact Nat.toDigits_ne_nil h
      | negSucc a => cases h
    · obtain ⟨c, hc, -⟩ := PyFloat.repr_marked f
      have hnil : c ∈ ([] : List Char) := h ▸ hc
      cases hnil
  text_chars := by
    rintro (n | f) c hc
    · rcases intText_chars hc with rfl | hdigit
      · decide
      · simp [isNumberChar, hdigit]
    · exact PyFloat.repr_chars f c hc

/-! ## Envelopes -/

/-- `Dict[str, Any]`. -/
abbrev Body (F : Type) := Node (PyNumber F) .fields

structure TypedRpcRequest (F : Type) where
  method : String
  requestId : String
  timestamp : F
  nonce : String
  body : Body F
  principal : String
  server : String
  role : String
  onBehalfOf : Option String
  signature : String
  controllerEpoch : Option Int

structure RpcProblem (F : Type) where
  code : String
  message : String
  details : Option (Body F)

structure TypedRpcResponse (F : Type) where
  requestId : String
  ok : Bool
  body : Option (Body F)
  problem : Option (RpcProblem F)
  server : String
  requestDigest : String

def ofOptionalText (s : Option String) : Json (PyNumber F) := (s.map Node.str).getD .null

def ofOptionalBody (b : Option (Body F)) : Json (PyNumber F) := (b.map Node.object).getD .null

def ofOptionalInt (n : Option Int) : Json (PyNumber F) := (n.map fun n => Node.num (.int n)).getD .null

def TypedRpcRequest.signedFields (r : TypedRpcRequest F) : Body F :=
  .field "principal" (.str r.principal) <|
  .field "on_behalf_of" (ofOptionalText r.onBehalfOf) <|
  .field "server" (.str r.server) <|
  .field "role" (.str r.role) <|
  .field "method" (.str r.method) <|
  .field "request_id" (.str r.requestId) <|
  .field "timestamp" (.num (.float r.timestamp)) <|
  .field "nonce" (.str r.nonce) <|
  .field "body" (.object r.body) <|
  .field "controller_epoch" (ofOptionalInt r.controllerEpoch) .empty

def RpcProblem.toJson (p : RpcProblem F) : Json (PyNumber F) :=
  .object <|
  .field "code" (.str p.code) <|
  .field "message" (.str p.message) <|
  .field "details" (ofOptionalBody p.details) .empty

def TypedRpcResponse.signedFields (r : TypedRpcResponse F) : Body F :=
  .field "server" (.str r.server) <|
  .field "request_id" (.str r.requestId) <|
  .field "request_digest" (.str r.requestDigest) <|
  .field "ok" (.bool r.ok) <|
  .field "body" (ofOptionalBody r.body) <|
  .field "problem" ((r.problem.map RpcProblem.toJson).getD .null) .empty

def RPC_REQUEST_CONTEXT : String := "mmr.typed-rpc.request.v3\x00"

def RPC_RESPONSE_CONTEXT : String := "mmr.typed-rpc.response.v2\x00"

def rpcSigningBytes [PyFloat F] (r : TypedRpcRequest F) : ByteArray :=
  (RPC_REQUEST_CONTEXT ++ canonical (.object r.signedFields)).toUTF8

def responseSigningBytes [PyFloat F] (r : TypedRpcResponse F) : ByteArray :=
  (RPC_RESPONSE_CONTEXT ++ canonical (.object r.signedFields)).toUTF8

/-- Equal in every field a signature covers, the body as a `dict`. -/
structure SameFields (r r' : TypedRpcRequest F) : Prop where
  principal : r.principal = r'.principal
  onBehalfOf : r.onBehalfOf = r'.onBehalfOf
  server : r.server = r'.server
  role : r.role = r'.role
  method : r.method = r'.method
  requestId : r.requestId = r'.requestId
  timestamp : r.timestamp = r'.timestamp
  nonce : r.nonce = r'.nonce
  body : sortKeys r.body = sortKeys r'.body
  controllerEpoch : r.controllerEpoch = r'.controllerEpoch

theorem ofOptionalText_inj {s t : Option String} (h : sortKeys (ofOptionalText (F := F) s) = sortKeys (ofOptionalText t)) :
    s = t := by
  cases s <;> cases t <;> first | rfl | (cases h; rfl) | cases h

theorem ofOptionalInt_inj {m n : Option Int} (h : sortKeys (ofOptionalInt (F := F) m) = sortKeys (ofOptionalInt n)) :
    m = n := by
  cases m <;> cases n <;> first | rfl | (cases h; rfl) | cases h

theorem sorted_field {a b : Body F} (h : sortKeys (.object a : Json (PyNumber F)) = sortKeys (.object b)) (key : String) :
    (get? key a).map sortKeys = (get? key b).map sortKeys := by
  have hfields : sortKeys a = sortKeys b := by
    simp only [sortKeys] at h
    exact Node.object.inj h
  rw [← get?_sortKeys, ← get?_sortKeys, hfields]

/-- **The signed bytes determine the signed fields.** -/
theorem rpcSigningBytes_injective [PyFloat F] {r r' : TypedRpcRequest F} (h : rpcSigningBytes r = rpcSigningBytes r') :
    SameFields r r' := by
  have htext : RPC_REQUEST_CONTEXT ++ canonical (.object r.signedFields) =
      RPC_REQUEST_CONTEXT ++ canonical (.object r'.signedFields) := String.toByteArray_inj.mp h
  have hfield := sorted_field (canonical_injective ((String.append_right_inj _).mp htext))
  refine ⟨?_, ?_, ?_, ?_, ?_, ?_, ?_, ?_, ?_, ?_⟩
  · simpa [TypedRpcRequest.signedFields, get?, sortKeys] using hfield "principal"
  · exact ofOptionalText_inj (by simpa [TypedRpcRequest.signedFields, get?] using hfield "on_behalf_of")
  · simpa [TypedRpcRequest.signedFields, get?, sortKeys] using hfield "server"
  · simpa [TypedRpcRequest.signedFields, get?, sortKeys] using hfield "role"
  · simpa [TypedRpcRequest.signedFields, get?, sortKeys] using hfield "method"
  · simpa [TypedRpcRequest.signedFields, get?, sortKeys] using hfield "request_id"
  · simpa [TypedRpcRequest.signedFields, get?, sortKeys] using hfield "timestamp"
  · simpa [TypedRpcRequest.signedFields, get?, sortKeys] using hfield "nonce"
  · simpa [TypedRpcRequest.signedFields, get?, sortKeys] using hfield "body"
  · exact ofOptionalInt_inj (by simpa [TypedRpcRequest.signedFields, get?] using hfield "controller_epoch")

/-- **Domain separation**: a response never has the bytes of a request. -/
theorem request_ne_response [PyFloat F] (r : TypedRpcRequest F) (r' : TypedRpcResponse F) :
    rpcSigningBytes r ≠ responseSigningBytes r' := by
  intro h
  have htext : RPC_REQUEST_CONTEXT ++ canonical (.object r.signedFields) =
      RPC_RESPONSE_CONTEXT ++ canonical (.object r'.signedFields) := String.toByteArray_inj.mp h
  have hlist := congrArg (fun s : String => s.toList.take 20) htext
  simp only [String.toList_append] at hlist
  rw [List.take_append_of_le_length (by decide), List.take_append_of_le_length (by decide)] at hlist
  exact absurd hlist (by decide)

end MmrTrader.Rpc
