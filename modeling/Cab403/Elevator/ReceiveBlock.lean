/-
What `receive_msg` stores in the block it allocates. The length comes from four
header bytes; those that the stream does not supply are what the stack held, since
the return value of the first `recv_looped` is not tested. `len + 1` is computed in
32 bits, `buf[len]` is not.
-/

import Cab403.Elevator.Framing

namespace Cab403.Elevator.Framing

open CText

/-! ### The stores -/

structure Store where
  offset : Nat
  byte : UInt8
  deriving DecidableEq, Repr

structure Receipt where
  /-- The argument of `malloc`. -/
  allocated : Nat
  stores : List Store
  returned : Bool
  deriving DecidableEq, Repr

def storesFrom (offset : Nat) : List UInt8 → List Store
  | [] => []
  | byte :: later => { offset := offset, byte := byte } :: storesFrom (offset + 1) later

/-- `receive_msg` with its stores through `buf`; the terminator is the first of them. -/
def receiveStores (kernel : List Nat) (stack : Vector UInt8 4) (stream : List UInt8) : Receipt :=
  let header := recvLooped kernel 4 stream
  let len := ntohl (header.stored ++ stack.toList.drop header.stored.length)
  let body := recvLooped header.kernel len header.unread
  { allocated := (len + 1) % 2 ^ 32
    stores := { offset := len, byte := 0 } :: storesFrom 0 body.stored
    returned := body.complete }

def writeStores (block : List UInt8) (stores : List Store) : List UInt8 :=
  stores.foldl (fun bytes store => bytes.set store.offset store.byte) block

/-! ### The header -/

/-- The four bytes of `nlen`, of which the stream may supply only the first ones. -/
def headerBytes (stack : Vector UInt8 4) (stream : List UInt8) : List UInt8 :=
  stream.take 4 ++ stack.toList.drop (stream.take 4).length

def StartsWithFrame (stream : List UInt8) : Prop :=
  4 ≤ stream.length ∧ ntohl (stream.take 4) ≤ (stream.drop 4).length

instance (stream : List UInt8) : Decidable (StartsWithFrame stream) :=
  inferInstanceAs (Decidable (_ ∧ _))

theorem headerBytes_length (stack : Vector UInt8 4) (stream : List UInt8) :
    (headerBytes stack stream).length = 4 := by
  rw [headerBytes, List.length_append, List.length_drop, Vector.length_toList, List.length_take]
  omega

theorem headerBytes_whole (stack : Vector UInt8 4) {stream : List UInt8}
    (whole : 4 ≤ stream.length) : headerBytes stack stream = stream.take 4 := by
  have supplied : (stream.take 4).length = 4 := by
    rw [List.length_take]
    omega
  rw [headerBytes, supplied, List.drop_of_length_le (by rw [Vector.length_toList]),
    List.append_nil]

theorem ntohl_four (first second third fourth : UInt8) :
    ntohl [first, second, third, fourth] =
      ((first.toNat * 256 + second.toNat) * 256 + third.toNat) * 256 + fourth.toNat := by
  simp only [ntohl, List.foldl_cons, List.foldl_nil, Nat.zero_mul, Nat.zero_add]

theorem ntohl_bounds {header : List UInt8} (four : header.length = 4) :
    ntohl header < 2 ^ 32 ∧
      (ntohl header = 0 ↔ header = List.replicate 4 0) ∧
      (ntohl header = 2 ^ 32 - 1 ↔ header = List.replicate 4 255) := by
  obtain ⟨first, second, third, fourth, rfl⟩ :
      ∃ first second third fourth, header = [first, second, third, fourth] := by
    match header, four with
    | [first, second, third, fourth], _ => exact ⟨first, second, third, fourth, rfl⟩
  have small (byte : UInt8) : byte.toNat < 256 := byte.toNat_lt
  have := small first
  have := small second
  have := small third
  have := small fourth
  simp only [ntohl_four, List.replicate, List.cons.injEq, and_true, ← UInt8.toNat_inj]
  refine ⟨by omega, ?_, ?_⟩
  · rw [show UInt8.toNat 0 = 0 from rfl]
    omega
  · rw [show UInt8.toNat 255 = 255 from rfl]
    omega

/-! ### Inside the block -/

theorem mem_storesFrom {offset : Nat} {stored : List UInt8} {store : Store}
    (member : store ∈ storesFrom offset stored) :
    offset ≤ store.offset ∧ store.offset < offset + stored.length := by
  induction stored generalizing offset with
  | nil => cases member
  | cons byte later ih =>
      rw [List.length_cons]
      cases member with
      | head => exact ⟨Nat.le_refl offset, Nat.lt_add_of_pos_right (Nat.succ_pos _)⟩
      | tail _ member =>
          obtain ⟨above, below⟩ := ih member
          omega

theorem receiveStores_eq (kernel : List Nat) (stack : Vector UInt8 4) (stream : List UInt8) :
    receiveStores kernel stack stream =
      { allocated := (headerLength stack stream + 1) % 2 ^ 32
        stores := { offset := headerLength stack stream, byte := 0 } ::
          storesFrom 0 ((stream.drop 4).take (headerLength stack stream))
        returned := decide (headerLength stack stream ≤ (stream.drop 4).length) } := by
  obtain ⟨stored, unread, _⟩ := recvLooped_stored kernel 4 stream
  obtain ⟨payload, _, whole⟩ := recvLooped_stored (recvLooped kernel 4 stream).kernel
    (headerLength stack stream) (stream.drop 4)
  have length : ntohl (stream.take 4 ++ stack.toList.drop (stream.take 4).length) =
      headerLength stack stream := rfl
  simp only [receiveStores, stored, unread, length, payload, whole]

theorem writeStores_storesFrom (before old stored after : List UInt8)
    (room : old.length = stored.length) :
    writeStores (before ++ old ++ after) (storesFrom before.length stored) =
      before ++ stored ++ after := by
  induction stored generalizing before old with
  | nil =>
      rw [List.eq_nil_of_length_eq_zero room]
      rfl
  | cons byte later ih =>
      cases old with
      | nil => cases room
      | cons oldByte old =>
          have next := ih (before ++ [byte]) old (Nat.succ.inj room)
          rw [List.length_append, List.length_singleton] at next
          simp only [writeStores, storesFrom, List.foldl_cons] at next ⊢
          rw [List.append_assoc, List.set_append_right _ _ (Nat.le_refl _), Nat.sub_self]
          simpa using next

/-- What `receive_msg` returns is the block with its stores in it, whatever was there. -/
theorem receiveStores_result (kernel : List Nat) (stack : Vector UInt8 4) (stream : List UInt8)
    (fits : headerLength stack stream ≠ 2 ^ 32 - 1) {block : List UInt8}
    (fresh : block.length = (receiveStores kernel stack stream).allocated) :
    (receiveMsg kernel stack stream).result =
      if (receiveStores kernel stack stream).returned then
        .message (writeStores block (receiveStores kernel stack stream).stores)
      else .null := by
  have small : headerLength stack stream < 2 ^ 32 :=
    (ntohl_bounds (headerBytes_length stack stream)).1
  rw [receiveMsg_result, if_neg fits]
  rw [receiveStores_eq] at fresh ⊢
  simp only [decide_eq_true_eq]
  split
  · rename_i whole
    rw [Nat.mod_eq_of_lt (by omega)] at fresh
    obtain ⟨old, last, rfl⟩ : ∃ old last, block = old ++ [last] :=
      ⟨block.dropLast, block.getLast (by intro none_; rw [none_] at fresh; cases fresh),
        (List.dropLast_concat_getLast _).symm⟩
    rw [List.length_append, List.length_singleton, Nat.add_right_cancel_iff] at fresh
    have terminated : (old ++ [last]).set (headerLength stack stream) 0 = old ++ [0] := by
      rw [← fresh, List.set_append_right _ _ (Nat.le_refl _), Nat.sub_self, List.set_cons_zero]
    have stored := writeStores_storesFrom [] old
      ((stream.drop 4).take (headerLength stack stream)) [0]
      (by rw [fresh, List.length_take, Nat.min_eq_left whole])
    rw [writeStores, List.foldl_cons, terminated]
    exact congrArg Received.message stored.symm
  · rfl

/-! ### A total decoder -/

/-- A string comes back for a complete frame and for nothing else, and every store is
inside the block. -/
def DecodesTotally (kernel : List Nat) (stack : Vector UInt8 4) (stream : List UInt8) : Prop :=
  ((receiveStores kernel stack stream).returned = true ↔ StartsWithFrame stream) ∧
    ∀ store ∈ (receiveStores kernel stack stream).stores,
      store.offset < (receiveStores kernel stack stream).allocated

instance (kernel : List Nat) (stack : Vector UInt8 4) (stream : List UInt8) :
    Decidable (DecodesTotally kernel stack stream) :=
  inferInstanceAs (Decidable (_ ∧ _))

/-- Without a whole header nothing is left to read, and an empty payload is complete. -/
theorem returned_iff_frame (kernel : List Nat) (stack : Vector UInt8 4) (stream : List UInt8) :
    ((receiveStores kernel stack stream).returned = true ↔ StartsWithFrame stream) ↔
      4 ≤ stream.length ∨ headerBytes stack stream ≠ List.replicate 4 0 := by
  have length : headerLength stack stream = ntohl (headerBytes stack stream) := rfl
  rw [receiveStores_eq, StartsWithFrame, decide_eq_true_eq, length]
  by_cases whole : 4 ≤ stream.length
  · simp only [headerBytes_whole stack whole, whole, true_and, true_or]
  · have zero := (ntohl_bounds (headerBytes_length stack stream)).2.1
    have read : stream.drop 4 = [] := List.drop_of_length_le (by omega)
    simp only [whole, read, List.length_nil, Nat.le_zero, zero, false_and, iff_false, false_or,
      ne_eq]

theorem stores_inside_iff (kernel : List Nat) (stack : Vector UInt8 4) (stream : List UInt8) :
    (∀ store ∈ (receiveStores kernel stack stream).stores,
        store.offset < (receiveStores kernel stack stream).allocated) ↔
      headerBytes stack stream ≠ List.replicate 4 255 := by
  obtain ⟨small, _, full⟩ := ntohl_bounds (headerBytes_length stack stream)
  change headerLength stack stream < 2 ^ 32 at small
  change headerLength stack stream = 2 ^ 32 - 1 ↔ _ at full
  rw [ne_eq, ← full, receiveStores_eq]
  dsimp only
  rw [List.forall_mem_cons]
  constructor
  · rintro ⟨terminator, _⟩ wraps
    rw [wraps] at terminator
    exact absurd terminator (by decide)
  · intro fits
    rw [Nat.mod_eq_of_lt (by omega)]
    refine ⟨Nat.lt_succ_self _, ?_⟩
    intro store member
    have inside := (mem_storesFrom member).2
    rw [List.length_take] at inside
    omega

theorem receiveMsg_decodes_iff (kernel : List Nat) (stack : Vector UInt8 4)
    (stream : List UInt8) :
    DecodesTotally kernel stack stream ↔
      (4 ≤ stream.length ∨ headerBytes stack stream ≠ List.replicate 4 0) ∧
        headerBytes stack stream ≠ List.replicate 4 255 :=
  and_congr (returned_iff_frame kernel stack stream) (stores_inside_iff kernel stack stream)

/-- The peer is gone before the header, and the caller gets an empty string. -/
theorem receiveMsg_decodes_closed : ¬ DecodesTotally [] (Vector.replicate 4 0) [] := by
  decide +kernel

end Cab403.Elevator.Framing
