/-
The byte stream from a chat client to its handler in the server. The client reads its
user name and its lines from the keyboard and sends each with one `send`; TCP hands the
stream to the server in pieces of any size, and the handler takes each result of `recv`
for a name or a line.
-/

import Cab403.Library.CText

namespace Cab403.ChatApp

open CText

def bufferSize : Nat := 512

def maxClientName : Nat := 50

def newline : UInt8 := 10

def quit : List UInt8 := bytes "\\quit"

/-! ### The client -/

/-- What `fgets` stores, with room for that many bytes, and the input behind it. Nothing
is stored at the end of the input. -/
def fgetsRoom : Nat → List UInt8 → List UInt8 × List UInt8
  | 0, input => ([], input)
  | _ + 1, [] => ([], [])
  | room + 1, byte :: input =>
      if byte = newline then ([byte], input)
      else (byte :: (fgetsRoom room input).1, (fgetsRoom room input).2)

def fgets (size : Nat) (input : List UInt8) : List UInt8 × List UInt8 := fgetsRoom (size - 1) input

/-- `buffer[strcspn(buffer, "\n")] = '\0'`. The buffer is cleared before it is filled. -/
def removeNewline (buffer : List UInt8) : List UInt8 := (stringAt buffer).takeWhile (· != newline)

/-- The main loop: the arguments of its `send` calls, `none` while it is not over. -/
def sendLines : Nat → List UInt8 → Option (List (List UInt8))
  | 0, _ => none
  | fuel + 1, input =>
      let line := fgets bufferSize input
      let buffer := removeNewline line.1
      if buffer = quit then some []
      else (sendLines fuel line.2).map (buffer :: ·)

def client (fuel : Nat) (input : List UInt8) : Option (List (List UInt8)) :=
  let clientName := fgets maxClientName input
  (sendLines fuel clientName.2).map (removeNewline clientName.1 :: ·)

/-! ### The handler -/

/-- The return value of `recv`, which yields no bytes when it fails. -/
def numBytes : Option (List UInt8) → Int
  | none => -1
  | some received => received.length

def NameTooLong (received : Option (List UInt8)) : Prop := numBytes received > maxClientName - 1

instance (received : Option (List UInt8)) : Decidable (NameTooLong received) :=
  inferInstanceAs (Decidable (_ > _))

/-- The string in the buffer, which is terminated behind the bytes received. -/
def bufferText (received : Option (List UInt8)) : List UInt8 := stringAt (received.getD [])

def Leaves (received : Option (List UInt8)) : Prop :=
  numBytes received ≤ 0 ∨ bufferText received = quit

instance (received : Option (List UInt8)) : Decidable (Leaves received) :=
  inferInstanceAs (Decidable (_ ∨ _))

structure Message where
  sender : List UInt8
  msg : List UInt8
  deriving DecidableEq, Repr

inductive Session where
  | rejected
  /-- `closed` says that the handler left because `recv` reported the end of the stream. -/
  | served (clientName : List UInt8) (broadcasts : List Message) (closed : Bool)
  deriving DecidableEq, Repr

/-- The loop of `handle_client` on the pieces that `recv` yields before the client closes. -/
def serve (clientName : List UInt8) : List (List UInt8) → List Message × Bool
  | [] => ([], true)
  | received :: later =>
      if Leaves (some received) then ([], numBytes (some received) == 0)
      else
        let rest := serve clientName later
        ({ sender := clientName, msg := bufferText (some received) } :: rest.1, rest.2)

def handleClient : List (List UInt8) → Session
  | [] => .served [] [] true
  | received :: later =>
      if NameTooLong (some received) then .rejected
      else
        let clientName := bufferText (some received)
        .served clientName (serve clientName later).1 (serve clientName later).2

/-! ### What is typed and what arrives -/

def Plain (text : List UInt8) : Prop := (0 : UInt8) ∉ text ∧ newline ∉ text

instance (text : List UInt8) : Decidable (Plain text) :=
  inferInstanceAs (Decidable (_ ∧ _))

structure Typed where
  clientName : List UInt8
  lines : List (List UInt8)
  named : clientName ≠ []
  nameFits : clientName.length ≤ 48
  plainName : Plain clientName
  nonempty : ∀ line ∈ lines, line ≠ []
  fits : ∀ line ∈ lines, line.length < bufferSize - 1
  plain : ∀ line ∈ lines, Plain line
  stays : ∀ line ∈ lines, line ≠ quit

namespace Typed

def keyboard (typed : Typed) : List UInt8 :=
  typed.clientName ++ newline ::
    (typed.lines.flatMap (fun line => line ++ [newline]) ++ (quit ++ [newline]))

def session (typed : Typed) : Session :=
  .served typed.clientName
    (typed.lines.map fun line => { sender := typed.clientName, msg := line }) true

end Typed

/-- The results of `recv` for a stream: any split into pieces that fit the buffer. -/
structure Delivers (received sent : List (List UInt8)) : Prop where
  whole : received.flatten = sent.flatten
  nonempty : ∀ piece ∈ received, piece ≠ []
  fits : ∀ piece ∈ received, piece.length ≤ bufferSize - 1

/-! ### The client sends what is typed -/

theorem fgetsRoom_line {room : Nat} {line : List UInt8} (fits : line.length < room)
    (single : newline ∉ line) (rest : List UInt8) :
    fgetsRoom room (line ++ newline :: rest) = (line ++ [newline], rest) := by
  induction line generalizing room with
  | nil =>
      obtain ⟨room, rfl⟩ := Nat.exists_eq_succ_of_ne_zero (Nat.ne_of_gt fits)
      rfl
  | cons byte line ih =>
      obtain ⟨room, rfl⟩ := Nat.exists_eq_succ_of_ne_zero (Nat.ne_of_gt (Nat.zero_lt_of_lt fits))
      have other : byte ≠ newline := fun same => single (same ▸ List.mem_cons_self)
      have shorter : line.length < room := Nat.lt_of_succ_lt_succ fits
      have later := ih shorter fun member => single (List.mem_cons_of_mem byte member)
      rw [List.cons_append, fgetsRoom, if_neg other, later, List.cons_append]

theorem stringAt_plain {text : List UInt8} (noNul : (0 : UInt8) ∉ text) : stringAt text = text := by
  have read := stringAt_append noNul []
  rwa [List.append_nil, show stringAt [] = [] from rfl, List.append_nil] at read

theorem removeNewline_line {line : List UInt8} (plain : Plain line) :
    removeNewline (line ++ [newline]) = line := by
  have noNul : (0 : UInt8) ∉ line ++ [newline] := by
    rw [List.mem_append, List.mem_singleton]
    rintro (member | same)
    · exact plain.1 member
    · cases same
  have solid : ∀ byte ∈ line, (byte != newline) = true := fun byte member =>
    bne_iff_ne.mpr fun same => plain.2 (same ▸ member)
  rw [removeNewline, stringAt_plain noNul, List.takeWhile_append_of_pos solid]
  exact List.append_nil line

theorem sendLines_typed {lines : List (List UInt8)}
    (fits : ∀ line ∈ lines, line.length < bufferSize - 1) (plain : ∀ line ∈ lines, Plain line)
    (stays : ∀ line ∈ lines, line ≠ quit) :
    sendLines (lines.length + 1)
        (lines.flatMap (fun line => line ++ [newline]) ++ (quit ++ [newline])) = some lines := by
  induction lines with
  | nil => decide
  | cons line lines ih =>
      obtain ⟨fitsHere, fitsLater⟩ := List.forall_mem_cons.mp fits
      obtain ⟨plainHere, plainLater⟩ := List.forall_mem_cons.mp plain
      obtain ⟨staysHere, staysLater⟩ := List.forall_mem_cons.mp stays
      have read := fgetsRoom_line fitsHere plainHere.2
        (lines.flatMap (fun line => line ++ [newline]) ++ (quit ++ [newline]))
      rw [List.length_cons, sendLines, List.flatMap_cons, List.append_assoc, List.append_assoc,
        List.singleton_append, fgets, read]
      dsimp only
      rw [removeNewline_line plainHere, if_neg staysHere, ih fitsLater plainLater staysLater,
        Option.map_some]

theorem client_typed (typed : Typed) :
    client (typed.lines.length + 1) typed.keyboard =
      some (typed.clientName :: typed.lines) := by
  have short : typed.clientName.length < maxClientName - 1 := Nat.lt_succ_of_le typed.nameFits
  rw [client, Typed.keyboard, fgets, fgetsRoom_line short typed.plainName.2]
  dsimp only
  rw [sendLines_typed typed.fits typed.plain typed.stays, removeNewline_line typed.plainName,
    Option.map_some]

/-! ### The handler on whole lines and on others -/

theorem leaves_iff {piece : List UInt8} (nonempty : piece ≠ []) :
    Leaves (some piece) ↔ stringAt piece = quit := by
  have positive : 0 < piece.length := List.length_pos_iff.mpr nonempty
  have counted : ¬ numBytes (some piece) ≤ 0 := by
    rw [numBytes]
    omega
  rw [Leaves, or_iff_right counted]
  rfl

/-- The loop broadcasts its pieces up to the first that reads as a quit command. -/
theorem serve_eq_iff {clientName : List UInt8} {pieces lines : List (List UInt8)}
    (nonempty : ∀ piece ∈ pieces, piece ≠ []) (noNul : ∀ piece ∈ pieces, (0 : UInt8) ∉ piece)
    (stays : ∀ line ∈ lines, line ≠ quit) :
    serve clientName pieces =
        (lines.map (fun line => { sender := clientName, msg := line }), true) ↔
      pieces = lines := by
  induction pieces generalizing lines with
  | nil =>
      cases lines with
      | nil => exact iff_of_true rfl rfl
      | cons line lines => exact iff_of_false nofun nofun
  | cons piece pieces ih =>
      obtain ⟨nonemptyHere, nonemptyLater⟩ := List.forall_mem_cons.mp nonempty
      obtain ⟨noNulHere, noNulLater⟩ := List.forall_mem_cons.mp noNul
      have text : bufferText (some piece) = piece := stringAt_plain noNulHere
      by_cases leaves : Leaves (some piece)
      · have isQuit : piece = quit := by
          rw [← stringAt_plain noNulHere]
          exact (leaves_iff nonemptyHere).mp leaves
        have counted : (numBytes (some piece) == 0) = false := by
          rw [isQuit]
          decide
        rw [serve, if_pos leaves, counted]
        refine iff_of_false (fun same => nomatch (Prod.mk.inj same).2) fun same => ?_
        exact stays piece (same ▸ List.mem_cons_self) isQuit
      · rw [serve, if_neg leaves]
        cases lines with
        | nil => exact iff_of_false nofun nofun
        | cons line lines =>
            have later := @ih lines nonemptyLater noNulLater
              fun line member => stays line (List.mem_cons_of_mem _ member)
            rw [List.map_cons, text, List.cons.injEq, ← later]
            simp only [Prod.ext_iff, List.cons.injEq, Message.mk.injEq, true_and, and_assoc]

theorem handleClient_eq_iff {clientName : List UInt8} {pieces lines : List (List UInt8)}
    (named : clientName ≠ []) (short : clientName.length < maxClientName)
    (nonempty : ∀ piece ∈ pieces, piece ≠ []) (noNul : ∀ piece ∈ pieces, (0 : UInt8) ∉ piece)
    (stays : ∀ line ∈ lines, line ≠ quit) :
    handleClient pieces =
        .served clientName (lines.map fun line => { sender := clientName, msg := line }) true ↔
      pieces = clientName :: lines := by
  cases pieces with
  | nil => exact iff_of_false (fun same => named (Session.served.inj same).1.symm) nofun
  | cons piece pieces =>
      obtain ⟨_, nonemptyLater⟩ := List.forall_mem_cons.mp nonempty
      obtain ⟨noNulHere, noNulLater⟩ := List.forall_mem_cons.mp noNul
      have text : bufferText (some piece) = piece := stringAt_plain noNulHere
      have served := @serve_eq_iff clientName pieces lines nonemptyLater noNulLater stays
      by_cases long : NameTooLong (some piece)
      · rw [handleClient, if_pos long]
        refine iff_of_false nofun fun same => ?_
        rw [NameTooLong, (List.cons.inj same).1, numBytes] at long
        omega
      · rw [handleClient, if_neg long, text, List.cons.injEq, ← served, Prod.ext_iff]
        constructor
        · intro same
          obtain ⟨rfl, broadcasts, closed⟩ := Session.served.inj same
          exact ⟨rfl, broadcasts, closed⟩
        · rintro ⟨rfl, broadcasts, closed⟩
          dsimp only at broadcasts closed ⊢
          rw [broadcasts, closed]

theorem Delivers.noNul {received sent : List (List UInt8)} (delivers : Delivers received sent)
    (clean : ∀ text ∈ sent, (0 : UInt8) ∉ text) : ∀ piece ∈ received, (0 : UInt8) ∉ piece := by
  intro piece member nul
  have inStream : (0 : UInt8) ∈ received.flatten := List.mem_flatten.mpr ⟨piece, member, nul⟩
  rw [delivers.whole] at inStream
  obtain ⟨text, sentText, nulSent⟩ := List.mem_flatten.mp inStream
  exact clean text sentText nulSent

/-- What was typed arrives exactly when every `recv` yields what one `send` was given. -/
theorem chatSession_typed_iff (typed : Typed) :
    ∃ sent, client (typed.lines.length + 1) typed.keyboard = some sent ∧
      ∀ received, Delivers received sent →
        (handleClient received = typed.session ↔ received = sent) := by
  refine ⟨typed.clientName :: typed.lines, client_typed typed, fun received delivers => ?_⟩
  have clean : ∀ text ∈ typed.clientName :: typed.lines, (0 : UInt8) ∉ text :=
    List.forall_mem_cons.mpr ⟨typed.plainName.1, fun line member => (typed.plain line member).1⟩
  exact handleClient_eq_iff typed.named (Nat.lt_of_le_of_lt typed.nameFits (by decide))
    delivers.nonempty (delivers.noNul clean) typed.stays

def adaHi : Typed :=
  { clientName := bytes "ada"
    lines := [bytes "hi"]
    named := by decide
    nameFits := by decide
    plainName := by decide
    nonempty := by decide
    fits := by decide
    plain := by decide
    stays := by decide }

theorem chatSession_typed_iff_adaHi :
    handleClient [bytes "ada", bytes "hi"] = adaHi.session := by
  obtain ⟨sent, sends, arrives⟩ := chatSession_typed_iff adaHi
  have whole : [bytes "ada", bytes "hi"] = sent :=
    Option.some.inj ((client_typed adaHi).symm.trans sends)
  exact (arrives _ ⟨congrArg List.flatten whole, by decide, by decide⟩).mpr whole

/-- One `recv` that yields the name and the line at once. -/
theorem chatSession_typed_merged :
    ¬ ∀ (typed : Typed) (sent received : List (List UInt8)),
      client (typed.lines.length + 1) typed.keyboard = some sent → Delivers received sent →
        handleClient received = typed.session := by
  intro arrives
  have merged : Delivers [bytes "adahi"] (adaHi.clientName :: adaHi.lines) :=
    { whole := by decide
      nonempty := by decide
      fits := by decide }
  have same := arrives adaHi _ _ (client_typed adaHi) merged
  have other : handleClient [bytes "adahi"] ≠ adaHi.session := by decide
  exact other same

end Cab403.ChatApp
