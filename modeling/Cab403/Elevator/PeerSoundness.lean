/-
The invariant that keeps the controller running: the list holds the cars that serve,
nobody uses what a handler has left behind, and a descriptor stays with its
connection until that connection closes it. Each thread's steps keep it.
-/

import Cab403.Elevator.PeerFrame
import Cab403.Elevator.PeerSteps

namespace Cab403.Elevator.Peers

open CText ActionRuns Controller Framing CarRegistry

/-! ### The process keeps running -/

def ThreadAt.Linked : ThreadAt → Prop
  | .serving | .reported _ | .updated | .lost | .leaving => True
  | _ => False

/-- The thread has a record that was linked and is not freed. -/
def ThreadAt.Alive : ThreadAt → Prop
  | .serving | .reported _ | .updated | .lost | .leaving | .unlinked | .hungUp => True
  | _ => False

theorem ThreadAt.Linked.alive {point : ThreadAt} (linked : point.Linked) : point.Alive := by
  cases point <;> trivial

def ControlAt.caller? : ControlAt → Option PeerId
  | .waiting => none
  | .taken _ caller | .selected _ caller _ | .replying caller _ => some caller

def ControllerState.callers (state : ControllerState) : List PeerId :=
  state.control.caller?.toList ++ state.calls.map Prod.snd

def ControllerState.Holds (state : ControllerState) (peer : PeerId) : Prop :=
  match state.thread peer with
  | .accepted | .greeted _ _ | .created => True
  | .serving | .reported _ | .updated | .lost | .leaving | .unlinked | .hungUp =>
      state.connected peer = true
  | .ended => peer ∈ state.callers
  | .absent => False

/-- The process runs, the list is made of the cars that serve, nobody uses what a
handler has left behind, and a descriptor is open for its connection until that closes it. -/
structure Sound (state : ControllerState) : Prop where
  running : state.outcome = .running
  distinct : state.cars.Nodup
  listed : ∀ car ∈ state.cars, (state.thread car).Linked
  used : ∀ car, state.control.Uses car → (state.thread car).Alive
  watched : ∀ peer, state.monitored peer = true → (state.thread peer).Alive
  waiting : state.callers.Nodup
  returned : ∀ caller ∈ state.callers, state.thread caller = .ended
  owned : ∀ peer, state.Holds peer → state.descriptor (state.connFd peer) = some peer

section Steps

variable {state next : ControllerState} {peer : PeerId} {point : ThreadAt}

theorem Sound.owns (sound : Sound state) (holds : state.Holds peer) : state.Owns peer :=
  Or.inr (sound.owned peer holds)

theorem SamePeer.holds (same : SamePeer state next peer) (callers : next.callers = state.callers)
    (holds : next.Holds peer) : state.Holds peer := by
  unfold ControllerState.Holds at holds ⊢
  rw [same.thread, same.connected, callers] at holds
  exact holds

theorem SamePeer.owned (same : SamePeer state next peer)
    (owned : state.descriptor (state.connFd peer) = some peer) :
    next.descriptor (next.connFd peer) = some peer := by
  rw [same.connFd]
  exact (same.descriptor _).mpr owned

/-- A step about one peer has to be looked at for that peer only. -/
theorem Sound.ofUntouched (sound : Sound state) (untouched : Untouched peer state next)
    (control : next.control = state.control) (outcome : next.outcome = state.outcome)
    (distinct : next.cars.Nodup) (listed : peer ∈ next.cars → (next.thread peer).Linked)
    (used : state.control.Uses peer → (next.thread peer).Alive)
    (watched : next.monitored peer = true → (next.thread peer).Alive)
    (returned : state.thread peer = .ended → next.thread peer = .ended)
    (owned : next.Holds peer → next.descriptor (next.connFd peer) = some peer) : Sound next := by
  have callers : next.callers = state.callers := by
    simp only [ControllerState.callers, control, untouched.calls]
  refine ⟨outcome.trans sound.running, distinct, ?_, ?_, ?_, ?_, ?_, ?_⟩
  · intro car member
    by_cases own : car = peer
    · subst own
      exact listed member
    · rw [(untouched.others car own).thread]
      exact sound.listed car ((untouched.cars car own).mp member)
  · intro car uses
    rw [control] at uses
    by_cases own : car = peer
    · subst own
      exact used uses
    · rw [(untouched.others car own).thread]
      exact sound.used car uses
  · intro other watches
    by_cases own : other = peer
    · subst own
      exact watched watches
    · have same := untouched.others other own
      rw [same.monitored] at watches
      rw [same.thread]
      exact sound.watched other watches
  · rw [callers]
    exact sound.waiting
  · intro caller member
    rw [callers] at member
    by_cases own : caller = peer
    · subst own
      exact returned (sound.returned caller member)
    · rw [(untouched.others caller own).thread]
      exact sound.returned caller member
  · intro other holds
    by_cases own : other = peer
    · subst own
      exact owned holds
    · have same := untouched.others other own
      exact same.owned (sound.owned other (same.holds callers holds))

@[simp] theorem moveThread_thread_self : (state.moveThread peer point).thread peer = point := by
  simp only [ControllerState.moveThread, Function.update_self]

theorem Sound.moveThread (sound : Sound state)
    (linked : (state.thread peer).Linked → point.Linked)
    (alive : (state.thread peer).Alive → point.Alive) (started : state.thread peer ≠ .ended)
    (holds : (state.moveThread peer point).Holds peer → state.Holds peer) :
    Sound (state.moveThread peer point) := by
  refine sound.ofUntouched (untouched_moveThread point) rfl rfl sound.distinct ?_ ?_ ?_ ?_ ?_
  · rw [moveThread_thread_self]
    exact fun member => linked (sound.listed peer member)
  · rw [moveThread_thread_self]
    exact fun uses => alive (sound.used peer uses)
  · rw [moveThread_thread_self]
    exact fun watches => alive (sound.watched peer watches)
  · exact fun ended => absurd ended started
  · exact fun held => sound.owned peer (holds held)

theorem Sound.withData (sound : Sound state) {incoming : PeerId → List UInt8}
    {closed : PeerId → Bool} {record : PeerId → CarRecord} :
    Sound { state with incoming := incoming, closed := closed, record := record } :=
  ⟨sound.running, sound.distinct, sound.listed, sound.used, sound.watched, sound.waiting,
    sound.returned, sound.owned⟩

theorem holds_of_connected (alive : (state.thread peer).Alive)
    (connected : state.connected peer = true) : state.Holds peer := by
  unfold ControllerState.Holds
  cases at_ : state.thread peer <;> rw [at_] at alive <;> first | exact connected | cases alive

theorem connected_of_holds (alive : (state.thread peer).Alive) (holds : state.Holds peer) :
    state.connected peer = true := by
  unfold ControllerState.Holds at holds
  cases at_ : state.thread peer <;> rw [at_] at alive holds <;> first | exact holds | cases alive

theorem Sound.moveServing (sound : Sound state) (linked : (state.thread peer).Linked)
    (still : point.Linked) : Sound (state.moveThread peer point) := by
  refine sound.moveThread (fun _ => still) (fun _ => still.alive) ?_ ?_
  · intro ended
    rw [ended] at linked
    exact linked
  · intro holds
    have connected := connected_of_holds (by rw [moveThread_thread_self]; exact still.alive) holds
    exact holds_of_connected linked.alive connected

theorem Sound.ofDisconnected (sound : Sound state) (untouched : Untouched peer state next)
    (frame : next.cars = state.cars ∧ next.control = state.control ∧
      next.outcome = state.outcome)
    (disconnected : next.connected peer = false) (before : (state.thread peer).Alive)
    (linked : (state.thread peer).Linked → (next.thread peer).Linked)
    (alive : (next.thread peer).Alive) : Sound next := by
  obtain ⟨cars, control, outcome⟩ := frame
  refine sound.ofUntouched untouched control outcome ?_ ?_ (fun _ => alive) (fun _ => alive) ?_ ?_
  · rw [cars]
    exact sound.distinct
  · rw [cars]
    exact fun member => linked (sound.listed peer member)
  · intro ended
    rw [ended] at before
    exact absurd before id
  · intro holds
    exact absurd (disconnected.symm.trans (connected_of_holds alive holds)) Bool.false_ne_true

/-! ### Receives -/

theorem Sound.closeAndReturn (sound : Sound state) (holds : state.Holds peer)
    (started : ¬ (state.thread peer).Alive) (unfinished : state.thread peer ≠ .ended) :
    Sound (state.closeAndReturn peer) := by
  refine sound.ofUntouched (untouched_closeAndReturn (sound.owns holds)) rfl rfl sound.distinct
    ?_ ?_ ?_ ?_ ?_
  · exact fun member => absurd (sound.listed peer member).alive started
  · exact fun uses => absurd (sound.used peer uses) started
  · exact fun watches => absurd (sound.watched peer watches) started
  · exact fun ended => absurd ended unfinished
  · intro waits
    unfold ControllerState.Holds at waits
    rw [ControllerState.closeAndReturn, moveThread_thread_self] at waits
    exact absurd (sound.returned peer waits) unfinished

theorem Sound.queueCall (sound : Sound state) (accepted : state.thread peer = .accepted)
    (call : Call) : Sound (state.queueCall peer call) := by
  have fresh : peer ∉ state.callers := by
    intro member
    have ended := sound.returned peer member
    rw [accepted] at ended
    cases ended
  have queued : (state.queueCall peer call).callers = state.callers ++ [peer] := by
    simp only [ControllerState.callers, ControllerState.queueCall, ControllerState.moveThread,
      List.map_append, List.append_assoc, List.map_cons, List.map_nil]
  have others (other : PeerId) (apart : other ≠ peer) :
      (state.queueCall peer call).thread other = state.thread other :=
    Function.update_of_ne apart _ _
  refine ⟨sound.running, sound.distinct, ?_, ?_, ?_, ?_, ?_, ?_⟩
  · intro car member
    have linked := sound.listed car member
    rw [others]
    · exact linked
    · rintro rfl
      rw [accepted] at linked
      exact linked
  · intro car uses
    have alive := sound.used car uses
    rw [others]
    · exact alive
    · rintro rfl
      rw [accepted] at alive
      exact alive
  · intro other watches
    have alive := sound.watched other watches
    rw [others]
    · exact alive
    · rintro rfl
      rw [accepted] at alive
      exact alive
  · rw [queued]
    exact List.nodup_append'.mpr
      ⟨sound.waiting, List.nodup_singleton peer, List.disjoint_singleton.mpr fresh⟩
  · intro caller member
    rw [queued, List.mem_append, List.mem_singleton] at member
    rcases member with before | rfl
    · rw [others]
      · exact sound.returned caller before
      · rintro rfl
        exact fresh before
    · exact moveThread_thread_self
  · intro other holds
    change state.descriptor (state.connFd other) = some other
    by_cases own : other = peer
    · subst own
      apply sound.owned other
      rw [ControllerState.Holds, accepted]
      trivial
    · apply sound.owned other
      unfold ControllerState.Holds at holds ⊢
      rw [others other own, queued, List.mem_append, List.mem_singleton] at holds
      cases at_ : state.thread other <;> rw [at_] at holds <;>
        first | exact holds | exact holds.resolve_right own

theorem sound_initialMessage {message : List UInt8} (sound : Sound state)
    (accepted : state.thread peer = .accepted) : Sound (state.initialMessage peer message) := by
  have holds : state.Holds peer := by
    rw [ControllerState.Holds, accepted]
    trivial
  have closes : Sound (state.closeAndReturn peer) :=
    sound.closeAndReturn holds (by rw [accepted]; exact id) (by rw [accepted]; exact nofun)
  unfold ControllerState.initialMessage
  split
  · split
    · exact sound.queueCall accepted _
    · exact closes
  · split
    · split
      · refine sound.moveThread ?_ ?_ ?_ (fun _ => holds)
        · rw [accepted]
          exact False.elim
        · rw [accepted]
          exact False.elim
        · rw [accepted]
          exact nofun
      · exact closes
    · exact closes

theorem untouched_breakOff (owns : state.Owns peer) :
    Untouched peer state (state.breakOff peer) := by
  have stillOwns : (state.setConnected peer false).Owns peer := owns
  have closed := untouched_shutdown_close stillOwns
  exact ((untouched_setConnected false).trans closed).trans (untouched_moveThread .leaving)

theorem Sound.consume (sound : Sound state) (connFd : Nat) (later : List UInt8) :
    Sound (state.consume connFd later) := by
  unfold ControllerState.consume
  split
  · exact sound.withData
  · exact sound

/-- A car whose status does not come is turned away. -/
theorem sound_turnedAway {name : Token 255} {range : CarRange} (sound : Sound state)
    (greeted : state.thread peer = .greeted name range) : Sound (state.closeAndReturn peer) := by
  have holds : state.Holds peer := by
    rw [ControllerState.Holds, greeted]
    trivial
  exact sound.closeAndReturn holds (by rw [greeted]; exact id) (by rw [greeted]; exact nofun)

theorem sound_created {name : Token 255} {range : CarRange} {record : CarRecord}
    (sound : Sound state) (greeted : state.thread peer = .greeted name range) :
    Sound ((state.moveThread peer .created).storeRecord peer record) := by
  have holds : state.Holds peer := by
    rw [ControllerState.Holds, greeted]
    trivial
  have created : Sound (state.moveThread peer .created) := by
    refine sound.moveThread ?_ ?_ ?_ (fun _ => holds)
    · rw [greeted]
      exact False.elim
    · rw [greeted]
      exact False.elim
    · rw [greeted]
      exact nofun
  exact created.withData

theorem sound_received {result : Received} (sound : Sound state)
    (fits : result ≠ .overrun) (whole : (state.thread peer).AwaitsInitial → result ≠ .null)
    (received : ReceivedCase state peer result next) : Sound next := by
  cases received with
  | initial accepted => exact sound_initialMessage sound accepted
  | initialNull accepted =>
      rw [accepted] at whole
      exact absurd rfl (whole trivial)
  | created greeted found => exact sound_created sound greeted
  | noStatus greeted unclear => exact sound_turnedAway sound greeted
  | statusNull greeted => exact sound_turnedAway sound greeted
  | reported serving found => exact sound.moveServing (by rw [serving]; trivial) trivial
  | farewell serving unclear => exact sound.moveServing (by rw [serving]; trivial) trivial
  | lost serving => exact sound.moveServing (by rw [serving]; trivial) trivial
  | overrun => exact absurd rfl fits

/-! ### Steps of the monitor and of the handler -/

theorem untouched_monitorSocket (sound : Sound state) (watched : state.monitored peer = true)
    (eof : Bool) : Untouched peer state (state.monitorSocket peer eof) := by
  have returned : Untouched peer state
      { state with monitored := Function.update state.monitored peer false } :=
    untouched_of_others
      (fun other apart =>
        { SamePeer.refl state other with monitored := Function.update_of_ne apart _ _ }) rfl rfl
  unfold ControllerState.monitorSocket
  dsimp only
  split
  · rename_i connected
    have owns := sound.owns (holds_of_connected (sound.watched peer watched) connected)
    have marked := returned.trans (untouched_setConnected false)
    split
    · exact marked.trans (untouched_shutdown_close (by exact owns))
    · exact marked.trans (untouched_shutdown (by exact owns))
  · exact returned

theorem untouched_hangUp (sound : Sound state) (unlinked : state.thread peer = .unlinked) :
    Untouched peer state (state.hangUp peer) := by
  unfold ControllerState.hangUp
  split
  · rename_i connected
    have owns := sound.owns (holds_of_connected (by rw [unlinked]; trivial) connected)
    exact ((untouched_shutdown_close owns).trans (untouched_setConnected false)).trans
      (untouched_moveThread .hungUp)
  · exact untouched_moveThread .hungUp

theorem Sound.monitorSocket (sound : Sound state) (watched : state.monitored peer = true)
    (eof : Bool) : Sound (state.monitorSocket peer eof) := by
  have alive := sound.watched peer watched
  have same : (state.monitorSocket peer eof).thread = state.thread ∧
      (state.monitorSocket peer eof).connected peer = false ∧
      (state.monitorSocket peer eof).cars = state.cars ∧
      (state.monitorSocket peer eof).control = state.control ∧
      (state.monitorSocket peer eof).outcome = state.outcome := by
    unfold ControllerState.monitorSocket
    dsimp only
    rw [shutdown_eq]
    split
    · split <;> exact ⟨rfl, Function.update_self _ _ _, rfl, rfl, rfl⟩
    · rename_i disconnected
      exact ⟨rfl, Bool.eq_false_iff.mpr disconnected, rfl, rfl, rfl⟩
  obtain ⟨thread, disconnected, frame⟩ := same
  refine sound.ofDisconnected (untouched_monitorSocket sound watched eof) frame disconnected
    alive ?_ ?_
  · rw [thread]
    exact id
  · rw [thread]
    exact alive

theorem Sound.breakOff (sound : Sound state) (owns : state.Owns peer)
    (lost : state.thread peer = .lost) : Sound (state.breakOff peer) := by
  have same : (state.breakOff peer).connected peer = false ∧
      (state.breakOff peer).cars = state.cars ∧
      (state.breakOff peer).control = state.control ∧
      (state.breakOff peer).outcome = state.outcome := by
    unfold ControllerState.breakOff
    rw [shutdown_eq]
    exact ⟨Function.update_self _ _ _, rfl, rfl, rfl⟩
  have leaving : (state.breakOff peer).thread peer = .leaving := moveThread_thread_self
  refine sound.ofDisconnected (untouched_breakOff owns) same.2 same.1 ?_ ?_ ?_
  · rw [lost]
    trivial
  · rw [leaving]
    exact fun _ => trivial
  · rw [leaving]
    trivial

theorem Sound.hangUp (sound : Sound state) (unlinked : state.thread peer = .unlinked) :
    Sound (state.hangUp peer) := by
  have same : (state.hangUp peer).thread peer = .hungUp ∧
      (state.hangUp peer).connected peer = false ∧
      (state.hangUp peer).cars = state.cars ∧
      (state.hangUp peer).control = state.control ∧
      (state.hangUp peer).outcome = state.outcome := by
    unfold ControllerState.hangUp
    rw [shutdown_eq]
    split
    · exact ⟨Function.update_self _ _ _, Function.update_self _ _ _, rfl, rfl, rfl⟩
    · rename_i disconnected
      exact ⟨Function.update_self _ _ _, Bool.eq_false_iff.mpr disconnected, rfl, rfl, rfl⟩
  obtain ⟨hungUp, disconnected, frame⟩ := same
  refine sound.ofDisconnected (untouched_hangUp sound unlinked) frame disconnected ?_ ?_ ?_
  · rw [unlinked]
    trivial
  · rw [unlinked]
    exact False.elim
  · rw [hungUp]
    trivial

theorem sound_connect (sound : Sound state) {number : Nat} (absent : state.thread peer = .absent)
    (free : state.descriptor number = none) :
    Sound (state.accept peer number) := by
  have unused : ¬ (state.thread peer).Alive := by
    rw [absent]
    exact id
  have accepted : Untouched peer state (state.accept peer number) := by
    refine untouched_of_others (fun other apart => ?_) rfl rfl
    refine
      { SamePeer.refl state other with
        connFd := Function.update_of_ne apart _ _
        descriptor := fun open_ => ?_
        thread := Function.update_of_ne apart _ _ }
    by_cases own : open_ = number
    · subst own
      simp only [ControllerState.accept, Function.update_self, free, Option.some.injEq,
        reduceCtorEq, iff_false]
      exact fun same => apart same.symm
    · simp only [ControllerState.accept, Function.update_of_ne own]
  refine sound.ofUntouched accepted rfl rfl sound.distinct ?_ ?_ ?_ ?_ ?_
  · exact fun member => absurd (sound.listed peer member).alive unused
  · exact fun uses => absurd (sound.used peer uses) unused
  · exact fun watches => absurd (sound.watched peer watches) unused
  · rw [absent]
    exact nofun
  · intro _
    simp only [ControllerState.accept, Function.update_self]

@[simp] theorem linkCar_thread_self : (state.linkCar peer).thread peer = .serving :=
  Function.update_self _ _ _

@[simp] theorem unlinkCar_thread_self : (state.unlinkCar peer).thread peer = .unlinked :=
  Function.update_self _ _ _

theorem sound_link (sound : Sound state) (created : state.thread peer = .created) :
    Sound (state.linkCar peer) := by
  have unlisted : peer ∉ state.cars := by
    intro member
    have linked := sound.listed peer member
    rw [created] at linked
    exact linked
  have untouched : Untouched peer state (state.linkCar peer) := by
    refine ⟨fun other apart => ?_, fun other apart => ?_, rfl⟩
    · exact
        { SamePeer.refl state other with
          thread := Function.update_of_ne apart _ _
          connected := Function.update_of_ne apart _ _
          monitored := Function.update_of_ne apart _ _ }
    · exact List.mem_cons.trans (or_iff_right apart)
  refine sound.ofUntouched untouched rfl rfl (List.nodup_cons.mpr ⟨unlisted, sound.distinct⟩)
    ?_ ?_ ?_ ?_ ?_
  · rw [linkCar_thread_self]
    exact fun _ => trivial
  · rw [linkCar_thread_self]
    exact fun _ => trivial
  · rw [linkCar_thread_self]
    exact fun _ => trivial
  · rw [created]
    exact nofun
  · intro _
    apply sound.owned peer
    rw [ControllerState.Holds, created]
    trivial

theorem untouched_unlinkCar : Untouched peer state (state.unlinkCar peer) :=
  { others := fun other apart =>
      { SamePeer.refl state other with thread := Function.update_of_ne apart _ _ }
    cars := fun _ apart => List.mem_erase_of_ne apart
    calls := rfl }

theorem sound_unlink (sound : Sound state) (leaving : state.thread peer = .leaving) :
    Sound (state.unlinkCar peer) := by
  refine sound.ofUntouched untouched_unlinkCar rfl rfl (sound.distinct.erase peer)
    ?_ ?_ ?_ ?_ ?_
  · exact fun member => absurd rfl ((List.Nodup.mem_erase_iff sound.distinct).mp member).1
  · rw [unlinkCar_thread_self]
    exact fun _ => trivial
  · rw [unlinkCar_thread_self]
    exact fun _ => trivial
  · rw [leaving]
    exact nofun
  · intro holds
    have connected := connected_of_holds (by rw [unlinkCar_thread_self]; trivial) holds
    exact sound.owned peer (holds_of_connected (by rw [leaving]; trivial) connected)

theorem sound_free (sound : Sound state) (hungUp : state.thread peer = .hungUp)
    (unused : ¬ state.control.Uses peer) (unwatched : state.monitored peer = false) :
    Sound (state.moveThread peer .ended) := by
  refine sound.ofUntouched (untouched_moveThread .ended) rfl rfl sound.distinct ?_ ?_ ?_ ?_ ?_
  · intro member
    have linked := sound.listed peer member
    rw [hungUp] at linked
    exact absurd linked id
  · exact fun uses => absurd uses unused
  · exact fun watches => absurd (unwatched.symm.trans watches) Bool.false_ne_true
  · exact fun _ => moveThread_thread_self
  · intro waits
    unfold ControllerState.Holds at waits
    rw [moveThread_thread_self] at waits
    have ended := sound.returned peer waits
    rw [hungUp] at ended
    cases ended

end Steps

end Cab403.Elevator.Peers
