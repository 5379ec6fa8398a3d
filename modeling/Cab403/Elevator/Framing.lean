/-
The message framing of shared.h: a big-endian 32-bit length, then the bytes of
the string. Both loops move positive partial counts, chosen by the kernel. The
stream a reader sees is what the writer sends before it closes; `malloc` is taken
to succeed.
-/

import Cab403.Library.CText
import Mathlib.Algebra.Group.Nat.Defs
import Mathlib.Tactic.SplitIfs

namespace Cab403.Elevator.Framing

open CText

/-! ### Writing -/

/-- One `write`: `-1`, or `extra + 1` bytes, at most those that remain. -/
inductive WriteResult where
  | failed
  | sent (extra : Nat)
  deriving DecidableEq, Repr

structure SendOutcome where
  written : List UInt8
  kernel : List WriteResult
  exited : Bool
  deriving DecidableEq, Repr

/-- `send_looped`: a failed `write` exits the process. When the list of results is
over, the kernel takes what remains at once. -/
def sendLooped : List WriteResult → List UInt8 → SendOutcome
  | [], ptr => { written := ptr, kernel := [], exited := false }
  | result :: kernel, ptr =>
      if ptr = [] then { written := [], kernel := result :: kernel, exited := false }
      else
        match result with
        | .failed => { written := [], kernel := kernel, exited := true }
        | .sent extra =>
            let later := sendLooped kernel (ptr.drop (extra + 1))
            { later with written := ptr.take (extra + 1) ++ later.written }

/-- `htonl` as the four bytes it puts on the wire: a `size_t` argument is reduced
to 32 bits. -/
def htonl (len : Nat) : List UInt8 :=
  [len / 2 ^ 24, len / 2 ^ 16, len / 2 ^ 8, len].map UInt8.ofNat

def sendMessage (kernel : List WriteResult) (buf : CString) : SendOutcome :=
  let header := sendLooped kernel (htonl buf.strlen)
  if header.exited then header
  else
    let payload := sendLooped header.kernel buf.text
    { payload with written := header.written ++ payload.written }

def sendMessages : List WriteResult → List CString → SendOutcome
  | kernel, [] => { written := [], kernel := kernel, exited := false }
  | kernel, buf :: rest =>
      let first := sendMessage kernel buf
      if first.exited then first
      else
        let later := sendMessages first.kernel rest
        { later with written := first.written ++ later.written }

def frame (buf : CString) : List UInt8 := htonl buf.strlen ++ buf.text

/-! ### Reading -/

structure RecvOutcome where
  stored : List UInt8
  unread : List UInt8
  kernel : List Nat
  complete : Bool
  deriving DecidableEq, Repr

/-- `recv_looped`: one `read` yields `extra + 1` bytes, at most those that remain to
be read and at most those that are there; `complete` is the return value `0`. When
the list of counts is over, every `read` yields what it can. -/
def recvLooped : List Nat → Nat → List UInt8 → RecvOutcome
  | [], remain, stream =>
      { stored := stream.take remain
        unread := stream.drop remain
        kernel := []
        complete := remain ≤ stream.length }
  | extra :: kernel, remain, stream =>
      if remain = 0 then
        { stored := [], unread := stream, kernel := extra :: kernel, complete := true }
      else if stream = [] then
        { stored := [], unread := [], kernel := kernel, complete := false }
      else
        let received := stream.take (min (extra + 1) remain)
        let later := recvLooped kernel (remain - received.length) (stream.drop received.length)
        { later with stored := received ++ later.stored }

def ntohl (nlen : List UInt8) : Nat :=
  nlen.foldl (fun value byte => value * 256 + byte.toNat) 0

inductive Received where
  | message (buf : List UInt8)
  | null
  /-- `len + 1` wraps to `0`, and the terminator is stored far outside the block. -/
  | overrun
  deriving DecidableEq, Repr

structure ReceiveOutcome where
  result : Received
  unread : List UInt8
  kernel : List Nat
  deriving DecidableEq, Repr

/-- `receive_msg`. The first `recv_looped` is not tested: the bytes of `nlen` that it
does not store keep what the stack held there. -/
def receiveMsg (kernel : List Nat) (stack : Vector UInt8 4) (stream : List UInt8) :
    ReceiveOutcome :=
  let header := recvLooped kernel 4 stream
  let len := ntohl (header.stored ++ stack.toList.drop header.stored.length)
  if len = 2 ^ 32 - 1 then
    { result := .overrun, unread := header.unread, kernel := header.kernel }
  else
    let body := recvLooped header.kernel len header.unread
    { result := if body.complete then .message (body.stored ++ [0]) else .null
      unread := body.unread
      kernel := body.kernel }

def headerLength (stack : Vector UInt8 4) (stream : List UInt8) : Nat :=
  ntohl (stream.take 4 ++ stack.toList.drop (stream.take 4).length)

def receiveMessages : List Nat → List (Vector UInt8 4) → List UInt8 → List Received × List UInt8
  | _, [], stream => ([], stream)
  | kernel, stack :: contents, stream =>
      let first := receiveMsg kernel stack stream
      let later := receiveMessages first.kernel contents first.unread
      (first.result :: later.1, later.2)

/-! ### The kernel's counts do not matter -/

theorem sendLooped_sent {kernel : List WriteResult} (ptr : List UInt8)
    (accepted : WriteResult.failed ∉ kernel) :
    ∃ unused, sendLooped kernel ptr = { written := ptr, kernel := unused, exited := false } ∧
      WriteResult.failed ∉ unused := by
  induction kernel generalizing ptr with
  | nil => exact ⟨[], rfl, List.not_mem_nil⟩
  | cons result kernel ih =>
      unfold sendLooped
      by_cases done : ptr = []
      · rw [if_pos done, done]
        exact ⟨result :: kernel, rfl, accepted⟩
      · rw [if_neg done]
        rw [List.mem_cons, not_or] at accepted
        cases result with
        | failed => exact absurd rfl accepted.1
        | sent extra =>
            obtain ⟨unused, sent, stillAccepted⟩ := ih (ptr.drop (extra + 1)) accepted.2
            refine ⟨unused, ?_, stillAccepted⟩
            simp only [sent, List.take_append_drop]

theorem sendMessage_sent {kernel : List WriteResult} (buf : CString)
    (accepted : WriteResult.failed ∉ kernel) :
    ∃ unused, sendMessage kernel buf =
        { written := frame buf, kernel := unused, exited := false } ∧
      WriteResult.failed ∉ unused := by
  obtain ⟨afterHeader, header, acceptedPayload⟩ := sendLooped_sent (htonl buf.strlen) accepted
  obtain ⟨unused, payload, stillAccepted⟩ := sendLooped_sent buf.text acceptedPayload
  refine ⟨unused, ?_, stillAccepted⟩
  simp only [sendMessage, header, payload, frame, Bool.false_eq_true, if_false]

theorem sendMessages_sent {kernel : List WriteResult} (messages : List CString)
    (accepted : WriteResult.failed ∉ kernel) :
    (sendMessages kernel messages).exited = false ∧
      (sendMessages kernel messages).written = messages.flatMap frame := by
  induction messages generalizing kernel with
  | nil => exact ⟨rfl, rfl⟩
  | cons buf rest ih =>
      obtain ⟨unused, sent, stillAccepted⟩ := sendMessage_sent buf accepted
      obtain ⟨running, written⟩ := ih stillAccepted
      simp only [sendMessages, sent, Bool.false_eq_true, if_false]
      exact ⟨running, by rw [written, List.flatMap_cons]⟩

/-- `recv_looped` stores the next `remain` bytes, or all there are, and says which. -/
theorem recvLooped_stored (kernel : List Nat) (remain : Nat) (stream : List UInt8) :
    (recvLooped kernel remain stream).stored = stream.take remain ∧
      (recvLooped kernel remain stream).unread = stream.drop remain ∧
      (recvLooped kernel remain stream).complete = decide (remain ≤ stream.length) := by
  induction kernel generalizing remain stream with
  | nil => exact ⟨rfl, rfl, rfl⟩
  | cons extra kernel ih =>
      unfold recvLooped
      by_cases finished : remain = 0
      · simp [finished]
      by_cases closed : stream = []
      · simp [finished, closed]
      rw [if_neg finished, if_neg closed]
      dsimp only
      obtain ⟨count, exact_⟩ :
          ∃ count, count = (stream.take (min (extra + 1) remain)).length := ⟨_, rfl⟩
      have enough : count ≤ remain ∧ count ≤ stream.length := by
        rw [exact_, List.length_take]
        omega
      have received : stream.take (min (extra + 1) remain) = stream.take count := by
        rw [exact_, List.length_take, List.take_eq_take_iff]
        omega
      obtain ⟨stored, unread, complete⟩ := ih (remain - count) (stream.drop count)
      rw [← exact_, stored, unread, complete, received]
      refine ⟨?_, ?_, ?_⟩
      · rw [← List.take_add, Nat.add_sub_cancel' enough.1]
      · rw [List.drop_drop, Nat.add_sub_cancel' enough.1]
      · rw [List.length_drop]
        congr 1
        exact propext (by omega)

theorem receiveMsg_result (kernel : List Nat) (stack : Vector UInt8 4) (stream : List UInt8) :
    (receiveMsg kernel stack stream).result =
      if headerLength stack stream = 2 ^ 32 - 1 then .overrun
      else if headerLength stack stream ≤ (stream.drop 4).length then
        .message ((stream.drop 4).take (headerLength stack stream) ++ [0])
      else .null := by
  obtain ⟨stored, unread, _⟩ := recvLooped_stored kernel 4 stream
  obtain ⟨payload, _, whole⟩ := recvLooped_stored (recvLooped kernel 4 stream).kernel
    (headerLength stack stream) (stream.drop 4)
  have length : ntohl (stream.take 4 ++ stack.toList.drop (stream.take 4).length) =
      headerLength stack stream := rfl
  simp only [receiveMsg, stored, unread, length]
  split
  · rfl
  · simp only [payload, whole, decide_eq_true_eq]

/-! ### The round trip -/

theorem htonl_length (len : Nat) : (htonl len).length = 4 := rfl

theorem ntohl_htonl {len : Nat} (fits : len < 2 ^ 32) : ntohl (htonl len) = len := by
  simp only [ntohl, htonl, List.map_cons, List.map_nil, List.foldl_cons, List.foldl_nil,
    UInt8.toNat_ofNat']
  omega

/-- A received header decides the length; the stack does not show through. -/
theorem receiveMsg_header (kernel : List Nat) (stack : Vector UInt8 4) {len : Nat}
    (fits : len < 2 ^ 32 - 1) (stream : List UInt8) :
    (receiveMsg kernel stack (htonl len ++ stream)).result =
        (if len ≤ stream.length then .message (stream.take len ++ [0]) else .null) ∧
      (receiveMsg kernel stack (htonl len ++ stream)).unread = stream.drop len := by
  obtain ⟨stored, unread, _⟩ := recvLooped_stored kernel 4 (htonl len ++ stream)
  rw [List.take_left' (htonl_length len)] at stored
  rw [List.drop_left' (htonl_length len)] at unread
  have rest : stack.toList.drop (htonl len).length = [] :=
    List.drop_of_length_le (by rw [htonl_length, Vector.length_toList])
  simp only [receiveMsg, stored, unread, rest, List.append_nil,
    ntohl_htonl (show len < 2 ^ 32 by omega), if_neg (show ¬ len = 2 ^ 32 - 1 by omega)]
  obtain ⟨payload, later, whole⟩ :=
    recvLooped_stored (recvLooped kernel 4 (htonl len ++ stream)).kernel len stream
  rw [payload, later, whole]
  simp only [decide_eq_true_eq, and_true]

theorem receiveMsg_frame (kernel : List Nat) (stack : Vector UInt8 4) {buf : CString}
    (short : buf.strlen < 2 ^ 32 - 1) (later : List UInt8) :
    (receiveMsg kernel stack (frame buf ++ later)).result = .message (buf.text ++ [0]) ∧
      (receiveMsg kernel stack (frame buf ++ later)).unread = later := by
  rw [frame, List.append_assoc]
  obtain ⟨result, unread⟩ := receiveMsg_header kernel stack short (buf.text ++ later)
  have whole : buf.strlen ≤ (buf.text ++ later).length := by
    rw [List.length_append]
    exact Nat.le_add_right _ _
  rw [result, unread, if_pos whole]
  exact ⟨by rw [CString.strlen, List.take_left], List.drop_left⟩

/-- A read while the writer is still at work: once a message comes out, it is the first
frame, and what is unread and unsent is the rest. -/
theorem receiveMsg_partial {kernel : List Nat} {stack : Vector UInt8 4} {buf : CString}
    (short : buf.strlen < 2 ^ 32 - 1) {arrived outgoing later message : List UInt8}
    (stream : arrived ++ outgoing = frame buf ++ later) (header : 4 ≤ arrived.length)
    (received : (receiveMsg kernel stack arrived).result = .message message) :
    message = buf.text ++ [0] ∧ (receiveMsg kernel stack arrived).unread ++ outgoing = later := by
  obtain ⟨payload, rfl⟩ : ∃ payload, arrived = htonl buf.strlen ++ payload := by
    rw [frame, List.append_assoc] at stream
    exact List.prefix_of_prefix_length_le ⟨_, stream.symm⟩ ⟨outgoing, rfl⟩ header |>.imp
      fun payload split => split.symm
  rw [frame, List.append_assoc, List.append_assoc, List.append_cancel_left_eq] at stream
  obtain ⟨result, unread⟩ := receiveMsg_header kernel stack short payload
  rw [result] at received
  split at received
  · rename_i whole
    obtain ⟨rest, rfl⟩ : ∃ rest, payload = buf.text ++ rest :=
      (List.prefix_of_prefix_length_le ⟨_, stream.symm⟩ ⟨outgoing, rfl⟩ whole).imp
        fun rest split => split.symm
    rw [List.append_assoc, List.append_cancel_left_eq] at stream
    rw [CString.strlen, List.take_left] at received
    rw [unread, CString.strlen, List.drop_left]
    exact ⟨(Received.message.inj received).symm, stream⟩
  · cases received

theorem receiveMessages_frames (kernel : List Nat) (contents : List (Vector UInt8 4))
    {messages : List CString} (calls : contents.length = messages.length)
    (short : ∀ buf ∈ messages, buf.strlen < 2 ^ 32 - 1) (later : List UInt8) :
    receiveMessages kernel contents (messages.flatMap frame ++ later) =
      (messages.map fun buf => .message (buf.text ++ [0]), later) := by
  induction messages generalizing kernel contents with
  | nil =>
      rw [List.length_nil] at calls
      rw [List.eq_nil_of_length_eq_zero calls]
      rfl
  | cons buf rest ih =>
      cases contents with
      | nil => cases calls
      | cons stack contents =>
          rw [List.flatMap_cons, List.append_assoc]
          obtain ⟨result, unread⟩ := receiveMsg_frame kernel stack
            (short buf List.mem_cons_self) (rest.flatMap frame ++ later)
          simp only [receiveMessages, result, unread, List.map_cons]
          rw [ih _ contents (Nat.succ.inj calls)
            (fun other member => short other (List.mem_cons_of_mem buf member))]

/-- Every sequence of strings arrives unchanged, however writes and reads are split,
whatever the stack of the receiver holds and whatever follows on the stream. -/
theorem framing_roundTrip (messages : List CString)
    (short : ∀ buf ∈ messages, buf.strlen < 2 ^ 32 - 1)
    (writes : List WriteResult) (accepted : WriteResult.failed ∉ writes)
    (reads : List Nat) (contents : List (Vector UInt8 4))
    (calls : contents.length = messages.length) (later : List UInt8) :
    (sendMessages writes messages).exited = false ∧
      receiveMessages reads contents ((sendMessages writes messages).written ++ later) =
        (messages.map fun buf => .message (buf.text ++ [0]), later) := by
  obtain ⟨running, written⟩ := sendMessages_sent messages accepted
  rw [written]
  exact ⟨running, receiveMessages_frames reads contents calls short later⟩

theorem framing_roundTrip_callThenCar :
    (sendMessages [.sent 0, .sent 2, .sent 0]
        [⟨bytes "CALL 1 2", by decide⟩, ⟨bytes "CAR", by decide⟩]).exited = false ∧
      receiveMessages [1, 1, 1] [Vector.replicate 4 255, Vector.replicate 4 7]
          ((sendMessages [.sent 0, .sent 2, .sent 0]
            [⟨bytes "CALL 1 2", by decide⟩, ⟨bytes "CAR", by decide⟩]).written ++ [9]) =
        ([.message (bytes "CALL 1 2" ++ [0]), .message (bytes "CAR" ++ [0])], [9]) :=
  framing_roundTrip [⟨bytes "CALL 1 2", by decide⟩, ⟨bytes "CAR", by decide⟩] (by decide)
    [.sent 0, .sent 2, .sent 0] (by decide) [1, 1, 1]
    [Vector.replicate 4 255, Vector.replicate 4 7] rfl [9]

end Cab403.Elevator.Framing
