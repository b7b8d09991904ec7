import Mathlib.Data.Stream.Init
import MmrTrader.Lib.PyJsonKeys
import MmrTrader.Lib.Table

/-!
# The sandbox wire protocol

* `FrameError` — a malformed frame, with the reply code to send.
* `encodeFrame`, `decodeFrameBody` — four bytes of length, and a JSON object.
* `Arrival`, `Socket`, `recv` — a stream that comes in chunks, closes, or lets a read time out; the reader's deadline.
* `Loop`, `Loop.turn`, `recvExact` — the loop that collects the bytes of a frame.
* `recvFrame`, `readFrame` — one frame from a socket, and from an asyncio stream.
-/

set_option autoImplicit false

namespace MmrTrader.Sandbox

open Lib Lib.PyJson

def maxFrameBytes : Nat := 262144

/-- `SANDBOX_ERROR` and `SANDBOX_BAD_REQUEST`, the codes of frame errors. -/
inductive FrameCode where
  | sandboxError
  | sandboxBadRequest
  deriving DecidableEq

inductive FrameError where
  | cannotBeEncoded
  | encodedOverCap (length : Nat)
  | duplicateKey (key : Text)
  | overCap (length : Nat)
  | closedAfter (read expected : Nat)
  | notJson (code : FrameCode)
  | notAnObject (code : FrameCode)
  | childFrameOverCap (length : Nat)
  | childReplyTimedOut
  | childPipeClosed
  deriving DecidableEq

/-! ## Frames -/

/-- `struct.pack(">I", n)`. -/
def packLength (n : Nat) : List UInt8 :=
  [UInt8.ofNat (n / 16777216), UInt8.ofNat (n / 65536), UInt8.ofNat (n / 256), UInt8.ofNat n]

/-- `struct.unpack(">I", header)`. -/
def unpackLength (header : List UInt8) : Nat := header.foldl (fun n b => n * 256 + b.toNat) 0

variable {F : Type} [FloatText F]

/-- What `encode_frame` raises: a `FrameError`, or the interpreter's `RecursionError`, which it does not catch. -/
inductive EncodeError where
  | frame (e : FrameError)
  | recursion
  deriving DecidableEq

/-- `encode_frame`; `limit` is how deeply the interpreter recurses. -/
def encodeFrame (limit : Nat) (obj : Node F .fields) : Except EncodeError (List UInt8) :=
  match dumps (.object obj) limit [] with
  | .error .recursion => .error .recursion
  | .error _ => .error (.frame .cannotBeEncoded)
  | .ok text =>
    match encodeUtf8 text with
    | none => .error (.frame .cannotBeEncoded)
    | some body =>
      if maxFrameBytes < body.length then .error (.frame (.encodedOverCap body.length))
      else .ok (packLength body.length ++ body)

/-- The loop of `_object_without_duplicate_keys`. -/
def insertPairs (out : List (Text × Value F)) : List (Text × Value F) → Except FrameError (List (Text × Value F))
  | [] => .ok out
  | (key, value) :: pairs =>
    if key ∈ out.map Prod.fst then .error (.duplicateKey key) else insertPairs (setItem key value out) pairs

def objectWithoutDuplicateKeys (pairs : List (Text × Value F)) : Except FrameError (Value F) := do
  let out ← insertPairs [] pairs
  return .object (fields out)

def decodeFrameBody (limit : Nat) (body : List UInt8) : Except FrameError (Node F .fields) :=
  match loads objectWithoutDuplicateKeys limit body with
  | .error (.hook e) => .error e
  | .error _ => .error (.notJson .sandboxBadRequest)
  | .ok (.object obj) => .ok obj
  | .ok _ => .error (.notAnObject .sandboxBadRequest)

/-- `reader.readexactly(count)`, of the bytes that come before the end of the stream; asyncio waits for them. -/
def readExactly (bytes : List UInt8) (count : Nat) : Except FrameError (List UInt8 × List UInt8) :=
  if count ≤ bytes.length then .ok (bytes.take count, bytes.drop count) else .error (.closedAfter bytes.length count)

def readFrame (limit : Nat) (bytes : List UInt8) : Except FrameError (Node F .fields × List UInt8) := do
  let (header, afterHeader) ← readExactly bytes 4
  if maxFrameBytes < unpackLength header then .error (.overCap (unpackLength header))
  else do
    let (body, rest) ← readExactly afterHeader (unpackLength header)
    let obj ← decodeFrameBody limit body
    return (obj, rest)

/-! ## The socket -/

/-- Bytes that arrive together. -/
abbrev Chunk := { bytes : List UInt8 // bytes ≠ [] }

/-- What the next read meets: bytes, the end of the stream, or a `TimeoutError`. -/
inductive Arrival where
  | chunk (c : Chunk)
  | closed
  | timeout

/-- A blocking socket: what of the last chunk is not read yet, what is to arrive, and at which of the next turns of
`_recv_exact` the deadline will have passed. -/
structure Socket where
  buffer : List UInt8
  arrivals : Stream' Arrival
  late : Stream' Bool

/-- What `sock.recv(count)` does. -/
inductive Received where
  | bytes (chunk : List UInt8) (rest : Socket)
  | timedOut

/-- `sock.recv(count)`: at most `count` of the bytes at hand; a closed stream stays closed. -/
def Socket.recv (sock : Socket) (count : Nat) : Received :=
  if sock.buffer ≠ [] then .bytes (sock.buffer.take count) { sock with buffer := sock.buffer.drop count }
  else
    match sock.arrivals.head with
    | .chunk c => .bytes (c.val.take count) { sock with buffer := c.val.drop count, arrivals := sock.arrivals.tail }
    | .closed => .bytes [] sock
    | .timeout => .timedOut

/-! ## `_recv_exact` -/

inductive Loop where
  | running (chunks : List (List UInt8)) (count : Nat) (sock : Socket)
  | returned (bytes : List UInt8) (sock : Socket)
  | raised (e : FrameError)

/-- One turn: the test of `while count`, and the body. -/
def Loop.turn : Loop → Loop
  | .running chunks 0 sock => .returned chunks.flatten sock
  | .running chunks (count + 1) sock =>
    if sock.late.head then .raised .childReplyTimedOut
    else
      match { sock with late := sock.late.tail }.recv (count + 1) with
      | .timedOut => .raised .childReplyTimedOut
      | .bytes chunk rest =>
        if chunk = [] then .raised .childPipeClosed
        else .running (chunks ++ [chunk]) (count + 1 - chunk.length) rest
  | .returned bytes sock => .returned bytes sock
  | .raised e => .raised e

def Loop.run (n : Nat) (loop : Loop) : Loop := Loop.turn^[n] loop

/-- `_recv_exact(sock, count, deadline)`. -/
def recvExact (sock : Socket) (count : Nat) : Except FrameError (List UInt8 × Socket) :=
  match (Loop.running [] count sock).run (count + 1) with
  | .returned bytes rest => .ok (bytes, rest)
  | .raised e => .error e
  | .running _ _ _ => .error .childPipeClosed

def recvFrame (limit : Nat) (sock : Socket) : Except FrameError (Node F .fields × Socket) := do
  let (header, afterHeader) ← recvExact sock 4
  if maxFrameBytes < unpackLength header then .error (.childFrameOverCap (unpackLength header))
  else do
    let (body, rest) ← recvExact afterHeader (unpackLength header)
    match loads (E := FrameError) plainObject limit body with
    | .error _ => .error (.notJson .sandboxError)
    | .ok (.object obj) => .ok (obj, rest)
    | .ok _ => .error (.notAnObject .sandboxError)

/-- As many calls of `recv_frame`, one after another. -/
def recvFrames (limit : Nat) : Nat → Socket → Except FrameError (List (Node F .fields) × Socket)
  | 0, sock => .ok ([], sock)
  | n + 1, sock => do
    let (obj, rest) ← recvFrame limit sock
    let (objs, last) ← recvFrames limit n rest
    return (obj :: objs, last)

end MmrTrader.Sandbox

/-!
## Framing is exact

* `Loop.turn_shrinks`, `Loop.run_settled` — each turn of the read loop leaves fewer bytes to read; it ends on every stream.
* `Pending` — what a socket will deliver before something else happens.
* `recvExact_pending`, `recvExact_short` — exactly the asked bytes, or an error.
* `recvFrame_encodeFrame` — a frame is read back, and nothing behind it.
* `decodeFrameBody_distinct` — no repeated key hides a value.
-/

namespace MmrTrader.Sandbox

open Lib Lib.PyJson

/-! ## The read loop -/

def Loop.Settled : Loop → Prop
  | .running _ _ _ => False
  | .returned _ _ => True
  | .raised _ => True

variable {loop : Loop}

theorem Loop.turn_settled (h : loop.Settled) : loop.turn = loop := by
  cases loop with
  | running chunks count sock => exact h.elim
  | returned bytes sock => rfl
  | raised e => rfl

theorem Loop.run_of_settled (h : loop.Settled) (n : Nat) : loop.run n = loop := by
  induction n with
  | zero => rfl
  | succ n ih =>
    rw [Loop.run, Function.iterate_succ_apply, turn_settled h]
    exact ih

@[simp] theorem Loop.run_returned (bytes : List UInt8) (sock : Socket) (n : Nat) :
    (Loop.returned bytes sock).run n = .returned bytes sock := by
  have hsettled : (Loop.returned bytes sock).Settled := trivial
  exact run_of_settled hsettled n

@[simp] theorem Loop.run_raised (e : FrameError) (n : Nat) : (Loop.raised e).run n = .raised e := by
  have hsettled : (Loop.raised e).Settled := trivial
  exact run_of_settled hsettled n

theorem Loop.run_succ (loop : Loop) (n : Nat) : loop.run (n + 1) = loop.turn.run n := Function.iterate_succ_apply _ _ _

variable {count : Nat} {sock : Socket}
variable {chunks chunks' : List (List UInt8)} {count' : Nat} {sock' : Socket}

theorem Loop.turn_running (h : (Loop.running chunks count sock).turn = .running chunks' count' sock') :
    ∃ chunk, chunk ≠ [] ∧ chunks' = chunks ++ [chunk] ∧ count' = count - chunk.length := by
  cases count with
  | zero => cases h
  | succ count =>
    simp only [turn] at h
    split at h
    · cases h
    · split at h
      · cases h
      · split at h
        · cases h
        · rename_i hne
          cases h
          exact ⟨_, hne, rfl, rfl⟩

theorem Loop.turn_shrinks (h : (Loop.running chunks count sock).turn = .running chunks' count' sock') : count' < count := by
  obtain ⟨chunk, hne, -, rfl⟩ := turn_running h
  have hpos := List.length_pos_iff.mpr hne
  cases count with
  | zero => cases h
  | succ count => omega

variable {n : Nat}

theorem Loop.run_settled (chunks : List (List UInt8)) (count : Nat) (sock : Socket) (hn : count < n) :
    ((Loop.running chunks count sock).run n).Settled := by
  induction n generalizing chunks count sock with
  | zero => exact absurd hn (Nat.not_lt_zero _)
  | succ n ih =>
    rw [run_succ]
    cases hturn : (Loop.running chunks count sock).turn with
    | running chunks' count' sock' =>
      have hlt := turn_shrinks hturn
      exact ih chunks' count' sock' (by omega)
    | returned bytes rest =>
      rw [run_returned]
      exact trivial
    | raised e =>
      rw [run_raised]
      exact trivial

/-! ## What a stream delivers -/

/-- The socket delivers these bytes, and then meets the arrivals that follow. -/
def Pending (sock : Socket) (bytes : List UInt8) (future : Stream' Arrival) : Prop :=
  ∃ chunks : List Chunk, sock.arrivals = Stream'.appendStream' (chunks.map .chunk) future ∧
    sock.buffer ++ (chunks.map Subtype.val).flatten = bytes

/-- No deadline passes. -/
def InTime (sock : Socket) : Prop := sock.late = Stream'.const false

/-- Nothing more is delivered: the stream is closed, or the read times out. -/
def Ends (future : Stream' Arrival) : Prop := future.head = .closed ∨ future.head = .timeout

variable {bytes : List UInt8} {future : Stream' Arrival}

theorem recv_pending (h : Pending sock bytes future) (hne : bytes ≠ []) (hcount : 0 < count) :
    ∃ chunk rest after, sock.recv count = .bytes chunk rest ∧ chunk ≠ [] ∧ chunk.length ≤ count ∧ bytes = chunk ++ after ∧
      Pending rest after future ∧ rest.late = sock.late := by
  obtain ⟨chunks, harrivals, rfl⟩ := h
  have htake : ∀ b : List UInt8, b ≠ [] → b.take count ≠ [] := by
    intro b hb htake
    rcases List.take_eq_nil_iff.mp htake with hzero | hnil
    · omega
    · exact hb hnil
  by_cases hbuffer : sock.buffer = []
  · cases chunks with
    | nil => exact absurd (by simp [hbuffer]) hne
    | cons c chunks =>
      have hhead : sock.arrivals.head = .chunk c := by rw [harrivals]; rfl
      have htail : sock.arrivals.tail = Stream'.appendStream' (chunks.map .chunk) future := by rw [harrivals]; rfl
      refine ⟨c.val.take count, { sock with buffer := c.val.drop count, arrivals := sock.arrivals.tail },
        c.val.drop count ++ (chunks.map Subtype.val).flatten, ?_, htake _ c.property, List.length_take_le _ _, ?_, ⟨chunks, htail, rfl⟩, rfl⟩
      · simp [Socket.recv, hbuffer, hhead]
      · rw [← List.append_assoc, List.take_append_drop]
        simp [hbuffer]
  · refine ⟨sock.buffer.take count, { sock with buffer := sock.buffer.drop count },
      sock.buffer.drop count ++ (chunks.map Subtype.val).flatten, ?_, htake _ hbuffer, List.length_take_le _ _, ?_, ⟨chunks, harrivals, rfl⟩, rfl⟩
    · simp [Socket.recv, hbuffer]
    · rw [← List.append_assoc, List.take_append_drop]

/-- A turn with bytes at hand reads some of them, unless the deadline has passed. -/
theorem turn_pending (h : Pending sock bytes future) (hne : bytes ≠ []) (chunks : List (List UInt8)) (count : Nat) :
    (¬ InTime sock ∧ (Loop.running chunks (count + 1) sock).turn = .raised .childReplyTimedOut) ∨
    ∃ chunk rest after, (Loop.running chunks (count + 1) sock).turn = .running (chunks ++ [chunk]) (count + 1 - chunk.length) rest ∧
      chunk ≠ [] ∧ chunk.length ≤ count + 1 ∧ bytes = chunk ++ after ∧ Pending rest after future ∧ (InTime sock → InTime rest) := by
  cases hlate : sock.late.head with
  | true =>
    refine .inl ⟨?_, by simp [Loop.turn, hlate]⟩
    intro htime
    rw [htime] at hlate
    cases hlate
  | false =>
    have hpending : Pending { sock with late := sock.late.tail } bytes future := h
    obtain ⟨chunk, rest, after, hrecv, hchunk, hle, hbytes, hrest, htail⟩ := recv_pending hpending hne (Nat.succ_pos count)
    refine .inr ⟨chunk, rest, after, by simp [Loop.turn, hlate, hrecv, hchunk], hchunk, hle, hbytes, hrest, ?_⟩
    intro htime
    rw [InTime, htail, htime]
    rfl

variable {a b : List UInt8}

theorem run_pending (h : Pending sock (a ++ b) future) (chunks : List (List UInt8)) (hn : a.length < n) :
    (¬ InTime sock ∧ (Loop.running chunks a.length sock).run n = .raised .childReplyTimedOut) ∨
    ∃ rest, (Loop.running chunks a.length sock).run n = .returned (chunks.flatten ++ a) rest ∧ Pending rest b future ∧
      (InTime sock → InTime rest) := by
  induction n generalizing sock a chunks with
  | zero => exact absurd hn (Nat.not_lt_zero _)
  | succ n ih =>
    rw [Loop.run_succ]
    cases ha : a.length with
    | zero =>
      obtain rfl := List.eq_nil_of_length_eq_zero ha
      refine .inr ⟨sock, ?_, h, id⟩
      rw [Loop.turn, Loop.run_returned, List.append_nil]
    | succ count =>
      have hne : a ++ b ≠ [] := by
        intro hnil
        rw [List.append_eq_nil_iff.mp hnil |>.1] at ha
        cases ha
      rcases turn_pending h hne chunks count with ⟨hlate, hturn⟩ | ⟨chunk, rest, after, hturn, hchunk, hle, hbytes, hrest, htime⟩
      · rw [hturn, Loop.run_raised]
        exact .inl ⟨hlate, rfl⟩
      · -- the chunk is a beginning of what is asked for
        obtain ⟨a', rfl⟩ : ∃ a', a = chunk ++ a' := by
          have hpre : chunk <+: a := List.prefix_of_prefix_length_le ⟨after, hbytes.symm⟩ ⟨b, rfl⟩ (by omega)
          exact ⟨hpre.choose, hpre.choose_spec.symm⟩
        rw [List.append_assoc] at hbytes
        obtain rfl := List.append_cancel_left hbytes
        have hpos := List.length_pos_iff.mpr hchunk
        have hcount : count + 1 - chunk.length = a'.length := by
          rw [List.length_append] at ha
          omega
        rw [hturn, hcount]
        rcases ih hrest (chunks ++ [chunk]) (by rw [List.length_append] at hn; omega) with ⟨hlate, hrun⟩ | ⟨last, hrun, hlast, hlastTime⟩
        · exact .inl ⟨fun hin => hlate (htime hin), hrun⟩
        · refine .inr ⟨last, ?_, hlast, fun hin => hlastTime (htime hin)⟩
          rw [hrun]
          simp

/-- Exactly the asked bytes, unless the deadline passes. -/
theorem recvExact_pending (h : Pending sock (a ++ b) future) :
    (¬ InTime sock ∧ recvExact sock a.length = .error .childReplyTimedOut) ∨
    ∃ rest, recvExact sock a.length = .ok (a, rest) ∧ Pending rest b future ∧ (InTime sock → InTime rest) := by
  rcases run_pending h [] (Nat.lt_succ_self a.length) with ⟨hlate, hrun⟩ | ⟨rest, hrun, hrest, htime⟩
  · exact .inl ⟨hlate, by rw [recvExact, hrun]⟩
  · refine .inr ⟨rest, ?_, hrest, htime⟩
    rw [recvExact, hrun]
    rfl

theorem run_short (h : Pending sock bytes future)
    (hends : Ends future) (chunks : List (List UInt8)) (hcount : bytes.length < count) (hn : count < n) :
    ∃ e, (Loop.running chunks count sock).run n = .raised e := by
  induction n generalizing sock bytes chunks count with
  | zero => exact absurd hn (Nat.not_lt_zero _)
  | succ n ih =>
    rw [Loop.run_succ]
    cases count with
    | zero => exact absurd hcount (Nat.not_lt_zero _)
    | succ count =>
      by_cases hne : bytes = []
      · -- nothing is left: the stream is closed, or the read times out
        subst hne
        obtain ⟨pieces, harrivals, hbytes⟩ := h
        obtain ⟨hbuffer, hflatten⟩ := List.append_eq_nil_iff.mp hbytes
        have hpieces : pieces = [] := by
          cases pieces with
          | nil => rfl
          | cons c pieces => exact absurd (List.append_eq_nil_iff.mp hflatten).1 c.property
        subst hpieces
        have harrivals : sock.arrivals = future := harrivals
        have hraised : ∃ e, (Loop.running chunks (count + 1) sock).turn = .raised e := by
          rw [← harrivals] at hends
          cases hlate : sock.late.head with
          | true => exact ⟨.childReplyTimedOut, by simp [Loop.turn, hlate]⟩
          | false =>
            rcases hends with hhead | hhead
            · exact ⟨.childPipeClosed, by simp [Loop.turn, hlate, Socket.recv, hbuffer, hhead]⟩
            · exact ⟨.childReplyTimedOut, by simp [Loop.turn, hlate, Socket.recv, hbuffer, hhead]⟩
        obtain ⟨e, hturn⟩ := hraised
        rw [hturn]
        exact ⟨e, Loop.run_raised e n⟩
      · rcases turn_pending h hne chunks count with ⟨-, hturn⟩ | ⟨chunk, rest, after, hturn, hchunk, -, rfl, hrest, -⟩
        · rw [hturn]
          exact ⟨_, Loop.run_raised _ n⟩
        · have hpos := List.length_pos_iff.mpr hchunk
          rw [List.length_append] at hcount
          rw [hturn]
          exact ih hrest _ (by omega) (by omega)

theorem recvExact_short (h : Pending sock bytes future)
    (hends : Ends future) (hcount : bytes.length < count) : ∃ e, recvExact sock count = .error e := by
  obtain ⟨e, hrun⟩ := run_short h hends [] hcount (Nat.lt_succ_self count)
  exact ⟨e, by rw [recvExact, hrun]⟩

/-! ## Repeated keys -/

variable {F : Type}
variable {out pairs : List (Text × Value F)}

theorem insertPairs_ok {result : List (Text × Value F)} (hout : (out.map Prod.fst).Nodup)
    (h : insertPairs out pairs = .ok result) : result = out ++ pairs ∧ ((out ++ pairs).map Prod.fst).Nodup := by
  induction pairs generalizing out with
  | nil =>
    obtain rfl := Except.ok.inj h
    simpa using hout
  | cons p pairs ih =>
    obtain ⟨key, value⟩ := p
    rw [insertPairs] at h
    split at h
    · cases h
    · rename_i hnew
      rw [setItem_new hnew] at h
      have hnodup : ((out ++ [(key, value)]).map Prod.fst).Nodup := by
        rw [List.map_append, List.nodup_append]
        refine ⟨hout, by simp, ?_⟩
        intro a ha b hb
        obtain rfl : b = key := by simpa using hb
        rintro rfl
        exact hnew ha
      have happend : out ++ (key, value) :: pairs = out ++ [(key, value)] ++ pairs := by simp
      rw [happend]
      exact ih hnodup h

theorem insertPairs_distinct (h : ((out ++ pairs).map Prod.fst).Nodup) : insertPairs out pairs = .ok (out ++ pairs) := by
  induction pairs generalizing out with
  | nil => rw [insertPairs, List.append_nil]
  | cons p pairs ih =>
    obtain ⟨key, value⟩ := p
    have hnew : key ∉ out.map Prod.fst := by
      rw [List.map_append, List.nodup_append] at h
      intro hmem
      exact h.2.2 key hmem key List.mem_cons_self rfl
    have happend : out ++ (key, value) :: pairs = out ++ [(key, value)] ++ pairs := by simp
    rw [happend] at h
    rw [insertPairs, if_neg hnew, setItem_new hnew, ih h, happend]

theorem refuses_objectWithoutDuplicateKeys : Refuses (objectWithoutDuplicateKeys (F := F)) := by
  intro ps v h
  rw [objectWithoutDuplicateKeys] at h
  obtain ⟨out, hout, hobject⟩ := except_bind_ok h
  obtain ⟨rfl, hnodup⟩ := insertPairs_ok (by simp) hout
  obtain rfl := Except.ok.inj hobject
  exact ⟨by simpa using hnodup, rfl⟩

theorem keeps_objectWithoutDuplicateKeys : Keeps (objectWithoutDuplicateKeys (F := F)) := by
  intro ps hnodup
  rw [objectWithoutDuplicateKeys, insertPairs_distinct (by simpa using hnodup)]
  rfl

/-! ## Frames -/

@[simp] theorem packLength_length (n : Nat) : (packLength n).length = 4 := rfl

theorem unpackLength_packLength (h : n < 4294967296) : unpackLength (packLength n) = n := by
  simp only [unpackLength, packLength, List.foldl_cons, List.foldl_nil, UInt8.toNat_ofNat']
  omega

variable [FloatText F]

/-- A dict that a JSON text can spell. -/
structure JsonObject (F : Type) where
  fields : Node F .fields
  isJson : IsJson (Node.object fields)

variable {limit : Nat} {obj : JsonObject F} {frame : List UInt8}

/-- An encoded frame is the length of a body and the body, which `loads` reads back. -/
theorem encodeFrame_ok (h : encodeFrame limit obj.fields = .ok frame) :
    ∃ body, frame = packLength body.length ++ body ∧ body.length ≤ maxFrameBytes ∧
      ∀ {E : Type} {hook : List (Text × Value F) → Except E (Value F)}, Keeps hook → loads hook limit body = .ok (.object obj.fields) := by
  rw [encodeFrame] at h
  split at h
  · cases h
  · cases h
  · rename_i t hdumps
    rw [encodeUtf8_ascii (dumps_ascii .nil hdumps)] at h
    simp only at h
    split at h
    · cases h
    · rename_i hcap
      cases h
      exact ⟨asciiBytes t, rfl, Nat.le_of_not_lt hcap, fun hhook => loads_dumps hhook obj.isJson hdumps⟩

variable {body : List UInt8}

theorem announced (h : body.length ≤ maxFrameBytes) : unpackLength (packLength body.length) = body.length := by
  apply unpackLength_packLength
  rw [maxFrameBytes] at h
  omega

variable {extra : List UInt8}

/-- **A frame is read back, and nothing behind it.** -/
theorem recvFrame_encodeFrame (h : encodeFrame limit obj.fields = .ok frame)
    (hpending : Pending sock (frame ++ extra) future) (htime : InTime sock) :
    ∃ rest, recvFrame limit sock = .ok (obj.fields, rest) ∧ Pending rest extra future ∧ InTime rest := by
  obtain ⟨body, rfl, hcap, hload⟩ := encodeFrame_ok h
  rw [List.append_assoc] at hpending
  rcases recvExact_pending hpending with ⟨hlate, -⟩ | ⟨afterHeader, hheader, hafter, hafterTime⟩
  · exact absurd htime hlate
  rcases recvExact_pending hafter with ⟨hlate, -⟩ | ⟨rest, hbody, hrest, hrestTime⟩
  · exact absurd (hafterTime htime) hlate
  refine ⟨rest, ?_, hrest, hrestTime (hafterTime htime)⟩
  rw [packLength_length] at hheader
  have hnot : ¬ maxFrameBytes < body.length := Nat.not_lt.mpr hcap
  simp only [recvFrame, hheader, bind, Except.bind, announced hcap, hnot, if_false, hbody, hload keeps_plainObject]

def Encoded (limit : Nat) (objs : List (JsonObject F)) (frames : List (List UInt8)) : Prop :=
  List.Forall₂ (fun obj frame => encodeFrame limit obj.fields = .ok frame) objs frames

theorem recvFrames_encoded {objs : List (JsonObject F)} {frames : List (List UInt8)} (h : Encoded limit objs frames)
    (hpending : Pending sock (frames.flatten ++ extra) future) (htime : InTime sock) :
    ∃ rest, recvFrames limit objs.length sock = .ok (objs.map JsonObject.fields, rest) ∧ Pending rest extra future ∧ InTime rest := by
  induction h generalizing sock with
  | nil => exact ⟨sock, rfl, hpending, htime⟩
  | cons hframe _ ih =>
    rw [List.flatten_cons, List.append_assoc] at hpending
    obtain ⟨next, hnext, hpending, htime⟩ := recvFrame_encodeFrame hframe hpending htime
    obtain ⟨rest, hrest, hlast, hlastTime⟩ := ih hpending htime
    refine ⟨rest, ?_, hlast, hlastTime⟩
    simp only [List.length_cons, recvFrames, hnext, bind, Except.bind, hrest]
    rfl

/-- The stream's bytes stop inside a frame: in its length, or before the end of the body that it announces. -/
def StopsInside (bytes : List UInt8) : Prop :=
  bytes.length < 4 ∨ ∃ header body, bytes = header ++ body ∧ header.length = 4 ∧ body.length < unpackLength header

def AnnouncesLonger (bytes : List UInt8) : Prop :=
  ∃ header body, bytes = header ++ body ∧ header.length = 4 ∧ maxFrameBytes < unpackLength header

theorem recvFrame_longer
    (h : Pending sock bytes future) (hlonger : AnnouncesLonger bytes) : ∃ e, recvFrame (F := F) limit sock = .error e := by
  obtain ⟨header, body, rfl, hlength, hcap⟩ := hlonger
  have hread := recvExact_pending h
  rw [hlength] at hread
  rcases hread with ⟨-, hlate⟩ | ⟨rest, hheader, -, -⟩
  · exact ⟨_, by simp only [recvFrame, hlate, bind, Except.bind]; rfl⟩
  · exact ⟨_, by simp only [recvFrame, hheader, bind, Except.bind, hcap, if_true]; rfl⟩

theorem recvFrame_short (h : Pending sock bytes future) (hends : Ends future) (hinside : StopsInside bytes) :
    ∃ e, recvFrame (F := F) limit sock = .error e := by
  rcases hinside with hshort | ⟨header, body, rfl, hlength, hbody⟩
  · obtain ⟨e, he⟩ := recvExact_short h hends hshort
    exact ⟨e, by simp only [recvFrame, he, bind, Except.bind]⟩
  · have hread := recvExact_pending h
    rw [hlength] at hread
    rcases hread with ⟨-, hlate⟩ | ⟨rest, hheader, hrest, -⟩
    · exact ⟨_, by simp only [recvFrame, hlate, bind, Except.bind]; rfl⟩
    · by_cases hcap : maxFrameBytes < unpackLength header
      · exact ⟨_, by simp only [recvFrame, hheader, bind, Except.bind, hcap, if_true]; rfl⟩
      · obtain ⟨e, he⟩ := recvExact_short hrest hends hbody
        exact ⟨e, by simp only [recvFrame, hheader, bind, Except.bind, hcap, if_false, he]⟩

/-- **No repeated key hides a value**: the object is what the text says with every pair kept. -/
theorem decodeFrameBody_distinct {obj : Node F .fields} (h : decodeFrameBody limit body = .ok obj) :
    loads (E := FrameError) keepPairs limit body = .ok (.object obj) ∧ Distinct (Node.object obj) := by
  rw [decodeFrameBody] at h
  split at h
  · cases h
  · cases h
  · rename_i heq
    cases h
    exact loads_keepPairs refuses_objectWithoutDuplicateKeys heq
  · cases h

/-- `read_frame` reads a frame back, and nothing behind it. -/
theorem readFrame_encodeFrame (h : encodeFrame limit obj.fields = .ok frame)
    (extra : List UInt8) : readFrame limit (frame ++ extra) = .ok (obj.fields, extra) := by
  obtain ⟨body, rfl, hcap, hload⟩ := encodeFrame_ok h
  have hheader : readExactly (packLength body.length ++ body ++ extra) 4 = .ok (packLength body.length, body ++ extra) := by
    rw [readExactly, if_pos (by simp)]
    rfl
  have hbody : readExactly (body ++ extra) body.length = .ok (body, extra) := by
    rw [readExactly, if_pos (by simp), List.take_left, List.drop_left]
  have hnot : ¬ maxFrameBytes < body.length := Nat.not_lt.mpr hcap
  have hdecode : decodeFrameBody limit body = .ok obj.fields := by
    rw [decodeFrameBody, hload keeps_objectWithoutDuplicateKeys]
  simp only [readFrame, hheader, bind, Except.bind, announced hcap, hnot, if_false, hbody, hdecode]
  rfl

/-! ## The protocol -/

/-- A socket on which these chunks arrive, with no deadline that passes. -/
def Socket.of (chunks : List Chunk) (future : Stream' Arrival) : Socket :=
  ⟨[], Stream'.appendStream' (chunks.map .chunk) future, Stream'.const false⟩

/-- **Sandbox framing is exact for every split of the stream.** -/
theorem framing_exact (limit : Nat) :
    (∀ (objs : List (JsonObject F)) (frames : List (List UInt8)), Encoded limit objs frames →
      ∀ (chunks : List Chunk) (extra : List UInt8) (future : Stream' Arrival),
        (chunks.map Subtype.val).flatten = frames.flatten ++ extra →
        ∃ rest, recvFrames limit objs.length (Socket.of chunks future) = .ok (objs.map JsonObject.fields, rest) ∧
          Pending rest extra future) ∧
    (∀ (sock : Socket) (bytes : List UInt8) (future : Stream' Arrival), Pending sock bytes future →
      AnnouncesLonger bytes ∨ (StopsInside bytes ∧ Ends future) → ∃ e, recvFrame (F := F) limit sock = .error e) ∧
    (∀ (chunks : List (List UInt8)) (count : Nat) (sock : Socket),
      (∀ chunks' count' sock', (Loop.running chunks count sock).turn = .running chunks' count' sock' → count' < count) ∧
      ((Loop.running chunks count sock).run (count + 1)).Settled) ∧
    (∀ (body : List UInt8) (obj : Node F .fields), decodeFrameBody limit body = .ok obj →
      loads (E := FrameError) keepPairs limit body = .ok (.object obj) ∧ Distinct (Node.object obj)) := by
  refine ⟨?_, ?_, ?_, ?_⟩
  · intro objs frames hencoded chunks extra future hcut
    have hpending : Pending (Socket.of chunks future) (frames.flatten ++ extra) future := ⟨chunks, rfl, by simpa [Socket.of] using hcut⟩
    obtain ⟨rest, hread, hrest, -⟩ := recvFrames_encoded hencoded hpending rfl
    exact ⟨rest, hread, hrest⟩
  · intro sock bytes future hpending hbad
    rcases hbad with hlonger | ⟨hinside, hends⟩
    · exact recvFrame_longer hpending hlonger
    · exact recvFrame_short hpending hends hinside
  · intro chunks count sock
    refine ⟨?_, Loop.run_settled chunks count sock (Nat.lt_succ_self count)⟩
    intro chunks' count' sock' hturn
    exact Loop.turn_shrinks hturn
  · intro body obj hdecode
    exact decodeFrameBody_distinct hdecode

/-- The floats of the run below: one finite number. -/
inductive Half where
  | half
  | nan
  deriving DecidableEq

def Half.literal : Literal := ⟨false, [point '0'], some [point '5'], none⟩

instance : FloatText Half where
  isFinite x := decide (x = .half)
  repr _ := Half.literal
  ofText l := if l = Half.literal then .half else .nan
  nan := .nan
  infinity := .nan
  negInfinity := .nan
  repr_wellFormed _ _ := by
    refine ⟨⟨by decide, ?_⟩, ?_, ?_, ?_⟩
    · intro c hc
      obtain rfl := List.mem_singleton.mp hc
      rfl
    · rintro rest ⟨⟩
      rfl
    · rintro ds ⟨⟩
      refine ⟨by decide, ?_⟩
      intro c hc
      obtain rfl := List.mem_singleton.mp hc
      rfl
    · rintro mark ds ⟨⟩
  repr_isFloat _ _ := rfl
  ofText_repr x hx := by
    obtain rfl := of_decide_eq_true hx
    rfl

def halfObject : JsonObject Half where
  fields := .field (text "p") (.float .half) .empty
  isJson := ⟨⟨by simp [keys], trivial, trivial⟩, List.IsChain.singleton _, trivial, trivial⟩

/-- A frame in three chunks, the first of them inside the length. -/
theorem framing_exact_half :
    ∃ rest, recvFrames 1 1 (Socket.of [⟨[0, 0], by decide⟩, ⟨[0, 9, 123, 34, 112], by decide⟩, ⟨[34, 58, 48, 46, 53, 125, 0], by decide⟩]
      (Stream'.const .closed)) = .ok ([halfObject.fields], rest) ∧ Pending rest [0] (Stream'.const .closed) :=
  (framing_exact (F := Half) 1).1 [halfObject] [[0, 0, 0, 9, 123, 34, 112, 34, 58, 48, 46, 53, 125]]
    (.cons (by decide +kernel) .nil) _ [0] _ (by decide)

/-! ## The asyncio reader -/

/-- As many calls of `read_frame`, one after another. -/
def readFrames (limit : Nat) : Nat → List UInt8 → Except FrameError (List (Node F .fields) × List UInt8)
  | 0, bytes => .ok ([], bytes)
  | n + 1, bytes => do
    let (obj, rest) ← readFrame limit bytes
    let (objs, last) ← readFrames limit n rest
    return (obj :: objs, last)

theorem readExactly_ok {bytes read rest : List UInt8} (h : readExactly bytes count = .ok (read, rest)) :
    bytes = read ++ rest ∧ read.length = count := by
  unfold readExactly at h
  split at h
  · rename_i hle
    cases h
    exact ⟨(List.take_append_drop count bytes).symm, List.length_take_of_le hle⟩
  · cases h

/-- What an accepted frame is. -/
theorem readFrame_ok {bytes rest : List UInt8} {obj : Node F .fields} (h : readFrame limit bytes = .ok (obj, rest)) :
    ∃ header body, bytes = header ++ (body ++ rest) ∧ header.length = 4 ∧ body.length = unpackLength header ∧
      body.length ≤ maxFrameBytes ∧ decodeFrameBody limit body = .ok obj := by
  obtain ⟨⟨header, afterHeader⟩, hheader, hafter⟩ := Lib.bind_ok h
  clear h
  obtain ⟨rfl, hfour⟩ := readExactly_ok hheader
  dsimp only at hafter
  split at hafter
  · cases hafter
  · rename_i hcap
    obtain ⟨⟨body, last⟩, hread, hobj⟩ := Lib.bind_ok hafter
    clear hafter
    obtain ⟨decoded, hdecode, hlast⟩ := Lib.bind_ok hobj
    clear hobj
    cases hlast
    obtain ⟨rfl, hlength⟩ := readExactly_ok hread
    exact ⟨header, body, rfl, hfour, hlength, hlength ▸ Nat.le_of_not_lt hcap, hdecode⟩

/-- **The asyncio reader agrees with the framing**: encoded objects are read back one after another, and whatever it
accepts is one whole frame within the cap in which no repeated key hides a value. -/
theorem read_frames_exact (limit : Nat) :
    (∀ (objs : List (JsonObject F)) (frames : List (List UInt8)), Encoded limit objs frames →
      ∀ extra, readFrames limit objs.length (frames.flatten ++ extra) = .ok (objs.map JsonObject.fields, extra)) ∧
    (∀ (bytes rest : List UInt8) (obj : Node F .fields), readFrame limit bytes = .ok (obj, rest) →
      ¬ StopsInside bytes ∧ ¬ AnnouncesLonger bytes ∧ Distinct (Node.object obj) ∧
        ∃ header body, bytes = header ++ (body ++ rest) ∧ body.length = unpackLength header ∧
          loads (E := FrameError) keepPairs limit body = .ok (.object obj)) := by
  refine ⟨fun objs frames hencoded extra => ?_, fun bytes rest obj hread => ?_⟩
  · induction hencoded with
    | nil => rfl
    | cons hframe _ ih =>
      rw [List.flatten_cons, List.append_assoc, List.length_cons, readFrames, readFrame_encodeFrame hframe]
      simp only [bind, Except.bind, ih]
      rfl
  · obtain ⟨header, body, rfl, hfour, hlength, hcap, hdecode⟩ := readFrame_ok hread
    obtain ⟨hloads, hdistinct⟩ := decodeFrameBody_distinct hdecode
    have hheader : ∀ header' body', header ++ (body ++ rest) = header' ++ body' → header'.length = 4 →
        header' = header ∧ body' = body ++ rest := by
      intro header' body' heq hfour'
      obtain ⟨h₁, h₂⟩ := List.append_inj heq (hfour.trans hfour'.symm)
      exact ⟨h₁.symm, h₂.symm⟩
    refine ⟨?_, ?_, hdistinct, header, body, rfl, hlength, hloads⟩
    · rintro (hshort | ⟨header', body', heq, hfour', hbody⟩)
      · simp only [List.length_append, hfour] at hshort
        omega
      · obtain ⟨rfl, rfl⟩ := hheader header' body' heq hfour'
        simp only [List.length_append, hlength] at hbody
        omega
    · rintro ⟨header', body', heq, hfour', hlonger⟩
      obtain ⟨rfl, rfl⟩ := hheader header' body' heq hfour'
      omega

theorem read_frames_exact_half : readFrames 1 1 ([[0, 0, 0, 9, 123, 34, 112, 34, 58, 48, 46, 53, 125]].flatten ++ [0]) =
    .ok ([halfObject.fields], [0]) :=
  (read_frames_exact (F := Half) 1).1 [halfObject] _ (.cons (by decide +kernel) .nil) [0]

end MmrTrader.Sandbox
