import Glomop.Lib.Run
import Glomop.Ptm.Beacon

/-!
# The attachment of a distiller to a PTM

A distiller either has a connection to a PTM or listens for beacons on the shared bus.  If the
registration fails at start-up, it has both; and when a beacon is heard from a PTM that cannot be
connected to, `PTMLocationReceived` registers nevertheless, which ends the event loop.
`attachment_of_run`: nothing else goes wrong.  Source: `distiller.h`, `distiller.cc`.
-/

namespace Glomop.Dist

open Lib IStream
open Option hiding get

/-! ## The surroundings -/

/-- How `TcpSocket::Connect` and the bookkeeping behind it can fail. -/
inductive ConnectError
  | errTcpAddressError
  | errSocketCreationError
  | errSocketConnectError
  | errOutOfMemory
deriving DecidableEq

def ConnectError.toErrors : ConnectError → Errors
  | errTcpAddressError => .errTcpAddressError
  | errSocketCreationError => .errSocketCreationError
  | errSocketConnectError => .errSocketConnectError
  | errOutOfMemory => .errOutOfMemory

inductive Registration
  | noAddress
  | noPort
  /-- The packet cannot be written; `closed` if the connection is closed. -/
  | unwritten (closed : Bool)
  | sent
deriving DecidableEq

/-- `Register` returns `gm_False`. -/
def Registration.fails : Registration → Bool
  | noAddress | noPort => true
  | unwritten _ | sent => false

/-- How `MulticastSocket::CreateListener` can fail. -/
inductive ListenError
  | errSocketCreationError
  | errMcastAddressError
  | errSocketBindError
  | errMcastAddMembershipError
deriving DecidableEq

def ListenError.toErrors : ListenError → Errors
  | errSocketCreationError => .errSocketCreationError
  | errMcastAddressError => .errMcastAddressError
  | errSocketBindError => .errSocketBindError
  | errMcastAddMembershipError => .errMcastAddMembershipError

inductive Control
  | running
  /-- `EventSystem::Run` has returned `gm_False`, and the process exits. -/
  | ended
  /-- `abort()` was called. -/
  | aborted
deriving DecidableEq

/-- `class MyDistiller`. -/
structure Attachment where
  ptmUnicast : RemoteID
  /-- Whether `ptmConnection` is not `NULL`. -/
  ptmConnection : Bool
  /-- Whether `listener` is not `NULL`, and whether it is among the objects of the event system. -/
  listener : Option Bool
  /-- The status of the thread's `Error` object. -/
  status : Errors
  control : Control
deriving DecidableEq

variable {connect : Option ConnectError} {listen : Option ListenError} {registration : Registration}

namespace Attachment

def noPTM (s : Attachment) : Attachment := { s with ptmUnicast := RemoteID.empty }

def connectToPTM (s : Attachment) : Option ConnectError → Bool × Attachment
  | some error => (false, { s with ptmConnection := false, status := error.toErrors })
  | none => (true, { s with ptmConnection := true, listener := none })

/-- The status is looked at after the listener was made, so an old error counts too. -/
def listenOnSharedBus (s : Attachment) (listen : Option ListenError) : Bool × Attachment :=
  if s.listener.isSome then (true, s)
  else
    match listen with
    | some error => (false, { s with listener := some false, status := error.toErrors })
    | none =>
      if s.status ≠ .success then (false, { s with listener := some false })
      else (true, { s with listener := some true })

def closePTMConnection (s : Attachment) : Attachment :=
  if s.ptmConnection then { s with ptmConnection := false }.noPTM else s

/-- A packet that cannot be written is no failure, but it leaves its error status behind. -/
def register (s : Attachment) (registration : Registration) : Bool × Attachment :=
  if s.ptmConnection = false then (false, { s with status := .errGenericError })
  else
    match registration with
    | .noAddress => (false, { s with status := .errIPAddressError })
    | .noPort => (false, s)
    | .unwritten closed =>
      (true, { s with status := if closed then .errSocketEOF else .errSocketWriteError })
    | .sent => (true, s)

def ptmLocationReceived (s : Attachment) (newPtmAddress : RemoteID)
    (connect : Option ConnectError) (registration : Registration) : Bool × Attachment :=
  if s.ptmConnection then (true, s)
  else
    let (connected, s) := { s with ptmUnicast := newPtmAddress }.connectToPTM connect
    if connected then s.register registration
    else if s.status = .errOutOfMemory then (false, s)
    else { s with status := .success }.register registration

def evConnectionBroken (listen : Option ListenError) (s : Attachment) : Bool × Attachment :=
  s.closePTMConnection.listenOnSharedBus listen

/-- What the event loop does with the return value of a handler.
`eventhan.cc` `EventSystem::Run`. -/
def continueIf (handled : Bool × Attachment) : Attachment :=
  if handled.1 then handled.2 else { handled.2 with control := .ended }

/-- `handled` is what the handler of the packet returns.  Where it returns `gm_False` after it made
a connection, `this` is a deleted listener; the select error is handled nevertheless.
`packet.cc`. -/
def evSelect (broken : Attachment → Bool × Attachment) (handled : Bool × Attachment) : Attachment :=
  if handled.1 then handled.2
  else
    match handled.2.status.selectError with
    | .ignored => { handled.2 with status := .success }
    | .connectionBroken => continueIf (broken { handled.2 with status := .success })
    | .aborted => { handled.2 with control := .aborted }
    | .fatal => { handled.2 with control := .ended }

/-- The address in a beacon, or `none` where the handler returns `gm_False`.
`distnet.cc` `PTMBeaconHandler::Handle`. -/
def beaconAddress : ReadM (Option RemoteID) := do
  delimit bar
  let ptmAddress ← inputRemoteID RemoteID.empty
  skip
  binary true
  let _dummyRandomID ← inputUInt32 0
  binary false
  skip
  let s ← get
  if s.isGood = false then return none
  else if ptmAddress.port = 0 then
    modify fun s => { s with status := .errFormattingError }
    return none
  else return some ptmAddress

/-- A listener has no `EvConnectionBroken` of its own.
`packet.h` `gm_PacketHandler::EvConnectionBroken`. -/
def listenerBroken (s : Attachment) : Bool × Attachment :=
  (false, { s with status := .errSocketEOF })

/-- A beacon arrives at the listener.
`distnet.cc` `Listener::EvPacketReceived`, `PTMBeaconHandler::Handle`. -/
def hearBeacon (s : Attachment) (p : Packet) (past : UInt8) (connect : Option ConnectError)
    (registration : Registration) : Option Attachment := do
  let (address, stream) ← beaconAddress (IStream.ofPacket p past .success)
  let s := { s with status := stream.status }
  match address with
  | none => return evSelect listenerBroken (false, s)
  | some address =>
    return evSelect listenerBroken (s.ptmLocationReceived address connect registration)

/-- Without a PTM a new type is only noted. -/
def reregister (s : Attachment) (written : Option Bool) (listen : Option ListenError) :
    Bool × Attachment :=
  if s.ptmConnection = false then (true, s)
  else
    match written with
    | none => (true, s)
    | some closed =>
      evConnectionBroken listen
        { s with status := if closed then .errSocketEOF else .errSocketWriteError }

/-- The end of the constructor, or `none` if the distiller does not start up.
`MyDistiller::MyDistiller`, `MyDistiller::CreateInstance`. -/
def create (ptmUnicast : RemoteID) (connect : Option ConnectError) (registration : Registration)
    (listen : Option ListenError) : Option Attachment :=
  let s : Attachment := ⟨ptmUnicast, false, none, .success, .running⟩
  let (registered, s) :=
    if ptmUnicast.ipAddress.chars ≠ [] then
      let (connected, s) := s.connectToPTM connect
      if connected then s.register registration else (false, s)
    else (false, s)
  let s :=
    if registered then s else ({ s with status := .success }.noPTM.listenOnSharedBus listen).2
  if s.status = .success then some s else none

inductive Event
  | beacon (p : Packet) (past : UInt8) (connect : Option ConnectError) (registration : Registration)
  | busError (status : Errors)
  | ptmError (status : Errors) (listen : Option ListenError)
  /-- `DistillerRename` was called; `written` is how writing the packet fails, if it does. -/
  | rename (written : Option Bool) (listen : Option ListenError)

/-- What an event does; `none` if it cannot happen. -/
def act (s : Attachment) : Event → Option Attachment
  | .beacon p past connect registration =>
    if s.listener = some true then s.hearBeacon p past connect registration else none
  | .busError status =>
    if s.listener = some true then
      some (evSelect listenerBroken (false, { s with status := status }))
    else none
  | .ptmError status listen =>
    if s.ptmConnection then
      some (evSelect (evConnectionBroken listen) (false, { s with status := status }))
    else none
  | .rename written listen => some (continueIf (s.reregister written listen))

/-- The state after an event.  Nothing happens any more once the event loop has ended. -/
def next (s : Attachment) (e : Event) : Option Attachment :=
  if s.control = .running then s.act e else none

def step (s : Attachment) (e : Event) (s' : Attachment) : Prop := s.next e = some s'

lemma act_of_step {s s' : Attachment} {e : Event} (h : s.step e s') : s.act e = some s' := by
  unfold step next at h
  split_ifs at h
  exact h

def ExactlyOne (s : Attachment) : Prop := Xor (s.ptmConnection = true) (s.listener.isSome = true)

instance (s : Attachment) : Decidable s.ExactlyOne :=
  inferInstanceAs (Decidable ((_ ∧ _) ∨ (_ ∧ _)))

/-! ## The pointers -/

variable {s s' : Attachment}

def SamePointers (s s' : Attachment) : Prop :=
  s'.ptmConnection = s.ptmConnection ∧ s'.listener = s.listener

lemma ExactlyOne.of_same (h : s.ExactlyOne) (hs : SamePointers s s') : s'.ExactlyOne := by
  unfold ExactlyOne
  rw [hs.1, hs.2]
  exact h

lemma register_same (s : Attachment) (registration : Registration) :
    SamePointers s (s.register registration).2 := by
  unfold register
  split_ifs
  · exact ⟨rfl, rfl⟩
  · cases registration <;> exact ⟨rfl, rfl⟩

/-- **A lost connection leaves a listener behind**, whether or not it works. -/
theorem exactlyOne_evConnectionBroken (s : Attachment) (listen : Option ListenError) :
    (evConnectionBroken listen s).2.ExactlyOne := by
  have hc : s.closePTMConnection.ptmConnection = false := by
    unfold closePTMConnection
    split_ifs with hco
    · rfl
    · simpa using hco
  unfold evConnectionBroken
  apply Or.inr
  unfold listenOnSharedBus
  by_cases hl : s.closePTMConnection.listener.isSome = true
  · rw [if_pos hl]
    exact ⟨hl, by simp [hc]⟩
  · rw [if_neg hl]
    cases listen with
    | some error => exact ⟨rfl, by simp [hc]⟩
    | none =>
      simp only
      split_ifs
      all_goals exact ⟨rfl, by simp [hc]⟩

lemma exactlyOne_continueIf {handled : Bool × Attachment} (h : handled.2.ExactlyOne) :
    (continueIf handled).ExactlyOne := by
  unfold continueIf
  split_ifs
  · exact h
  · exact h.of_same ⟨rfl, rfl⟩

lemma exactlyOne_evSelect {broken : Attachment → Bool × Attachment} {handled : Bool × Attachment}
    (h : handled.2.ExactlyOne) (hb : ∀ t, t.ExactlyOne → (broken t).2.ExactlyOne) :
    (evSelect broken handled).ExactlyOne := by
  unfold evSelect
  split_ifs
  · exact h
  · split
    · exact h.of_same ⟨rfl, rfl⟩
    · apply exactlyOne_continueIf
      apply hb
      exact h.of_same ⟨rfl, rfl⟩
    all_goals exact h.of_same ⟨rfl, rfl⟩

lemma ptmLocationReceived_connected (h : s.ptmConnection = true) (address : RemoteID)
    (connect : Option ConnectError) (registration : Registration) :
    s.ptmLocationReceived address connect registration = (true, s) := if_pos h

/-- **A PTM that cannot be connected to**: the failure comes back as that of the registration. -/
theorem ptmLocationReceived_failed (hn : s.ptmConnection = false) (address : RemoteID)
    (error : ConnectError) (registration : Registration) :
    s.ptmLocationReceived address (some error) registration =
      (false, { s with
        ptmUnicast := address
        ptmConnection := false
        status := if error = .errOutOfMemory then .errOutOfMemory else .errGenericError }) := by
  cases error <;> simp [ptmLocationReceived, connectToPTM, register, hn, ConnectError.toErrors]

lemma ExactlyOne.ptmLocationReceived (h : s.ExactlyOne) (address : RemoteID)
    (connect : Option ConnectError) (registration : Registration) :
    (s.ptmLocationReceived address connect registration).2.ExactlyOne := by
  cases hc : s.ptmConnection with
  | true =>
    rw [ptmLocationReceived_connected hc]
    exact h
  | false =>
    cases connect with
    | none =>
      have hco : { s with
          ptmUnicast := address, ptmConnection := true, listener := none }.ExactlyOne :=
        .inl ⟨rfl, nofun⟩
      rw [Attachment.ptmLocationReceived, if_neg (by simp [hc])]
      exact hco.of_same (register_same _ registration)
    | some error =>
      rw [ptmLocationReceived_failed hc]
      exact h.of_same ⟨hc.symm, rfl⟩

/-- **One step keeps exactly one pointer set.** -/
theorem ExactlyOne.step (h : s.ExactlyOne) {e : Event} (hs : s.step e s') : s'.ExactlyOne := by
  replace hs := act_of_step hs
  unfold act at hs
  cases e with
  | beacon p past connect registration =>
    simp only [hearBeacon, ite_none_right_eq_some, bind_eq_bind, bind_eq_some_iff] at hs
    obtain ⟨-, ⟨address, stream⟩, -, he⟩ := hs
    cases address with
    | none =>
      cases he
      exact exactlyOne_evSelect (h.of_same ⟨rfl, rfl⟩) fun _ h => h.of_same ⟨rfl, rfl⟩
    | some address =>
      cases he
      apply exactlyOne_evSelect _ fun _ h => h.of_same ⟨rfl, rfl⟩
      apply ExactlyOne.ptmLocationReceived
      exact h.of_same ⟨rfl, rfl⟩
  | busError status =>
    simp only [ite_none_right_eq_some] at hs
    obtain ⟨-, he⟩ := hs
    cases he
    exact exactlyOne_evSelect (h.of_same ⟨rfl, rfl⟩) fun _ h => h.of_same ⟨rfl, rfl⟩
  | ptmError status listen =>
    simp only [ite_none_right_eq_some] at hs
    obtain ⟨-, he⟩ := hs
    cases he
    exact exactlyOne_evSelect (h.of_same ⟨rfl, rfl⟩)
      fun t _ => exactlyOne_evConnectionBroken t listen
  | rename written listen =>
    cases hs
    apply exactlyOne_continueIf
    unfold reregister
    split_ifs
    · exact h
    · cases written with
      | none => exact h
      | some closed => exact exactlyOne_evConnectionBroken _ listen

/-- The distiller was given an address, connected, and failed to register. -/
def StrandedAtStart (ptmUnicast : RemoteID) (connect : Option ConnectError)
    (registration : Registration) : Prop :=
  ptmUnicast.ipAddress.chars ≠ [] ∧ connect = none ∧ registration.fails = true

instance (ptmUnicast : RemoteID) (connect : Option ConnectError) (registration : Registration) :
    Decidable (StrandedAtStart ptmUnicast connect registration) :=
  inferInstanceAs (Decidable (_ ∧ _ ∧ _))

lemma listen_create {t : Attachment}
    (h : (if ({ t with status := .success }.noPTM.listenOnSharedBus listen).2.status = .success then
      some ({ t with status := .success }.noPTM.listenOnSharedBus listen).2 else none) = some s)
    (hl : t.listener = none) :
    s = ⟨RemoteID.empty, t.ptmConnection, some true, .success, t.control⟩ := by
  cases listen with
  | some error =>
    cases error <;> simp [noPTM, listenOnSharedBus, hl, ListenError.toErrors] at h
  | none =>
    simp only [noPTM, listenOnSharedBus, hl, isSome_none, Bool.false_eq_true,
      if_false, ne_eq, not_true_eq_false, if_true] at h
    exact (some.inj h).symm

lemma create_cases {ptmUnicast : RemoteID}
    (h : create ptmUnicast connect registration listen = some s) :
    (¬ StrandedAtStart ptmUnicast connect registration ∧
        s = ⟨ptmUnicast, true, none, .success, .running⟩) ∨
      s = ⟨RemoteID.empty, decide (StrandedAtStart ptmUnicast connect registration), some true,
        .success, .running⟩ := by
  by_cases hf : ptmUnicast.ipAddress.chars = []
  · have hn : ¬ StrandedAtStart ptmUnicast connect registration := fun hb => hb.1 hf
    rw [decide_eq_false hn]
    simp only [create, hf, ne_eq, not_true_eq_false, if_false, Bool.false_eq_true] at h
    have hs := listen_create (t := ⟨ptmUnicast, false, none, .success, .running⟩) h rfl
    exact .inr hs
  · cases connect with
    | some error =>
      have hn : ¬ StrandedAtStart ptmUnicast (some error) registration := fun hb => nomatch hb.2.1
      rw [decide_eq_false hn]
      simp only [create, ne_eq, hf, not_false_eq_true, if_true, connectToPTM,
        Bool.false_eq_true, if_false] at h
      have hs := listen_create (t := ⟨ptmUnicast, false, none, error.toErrors, .running⟩) h rfl
      exact .inr hs
    | none =>
      simp only [create, ne_eq, hf, not_false_eq_true, if_true, connectToPTM, register,
        Bool.true_eq_false, if_false] at h
      cases registration with
      | noAddress | noPort =>
        rw [decide_eq_true (p := StrandedAtStart ptmUnicast none _) ⟨hf, rfl, rfl⟩]
        have hs := listen_create h rfl
        exact .inr hs
      | unwritten closed => cases closed <;> exact nomatch h
      | sent => exact .inl ⟨fun hb => (nomatch hb.2.2), (some.inj h).symm⟩

lemma exactlyOne_create_iff {ptmUnicast : RemoteID}
    (h : create ptmUnicast connect registration listen = some s) :
    s.ExactlyOne ↔ ¬ StrandedAtStart ptmUnicast connect registration := by
  rcases create_cases h with ⟨hn, rfl⟩ | rfl
  · exact iff_of_true (.inl ⟨rfl, nofun⟩) hn
  · simp [ExactlyOne, Xor]

/-- The PTM of a beacon cannot be connected to, for a reason other than lack of memory. -/
def Unconnectable (p : Packet) (past : UInt8) (connect : Option ConnectError) : Prop :=
  (∃ address stream,
    beaconAddress (IStream.ofPacket p past .success) = some (some address, stream)) ∧
    ∃ error, connect = some error ∧ error ≠ .errOutOfMemory

/-- **A beacon from a PTM that cannot be connected to** ends the event loop, unless the distiller
has a connection already. -/
theorem listening_iff_of_unconnectable {p : Packet} {past : UInt8}
    (hp : Unconnectable p past connect) (hs : s.step (.beacon p past connect registration) s') :
    s'.control = .running ∧ s'.listener = some true ↔ s.ptmConnection = true := by
  obtain ⟨⟨address, stream, hre⟩, error, rfl, hm⟩ := hp
  have hr : s.control = .running := by
    by_contra hco
    simp [step, next, hco] at hs
  replace hs := act_of_step hs
  simp only [act, hearBeacon, hre, ite_none_right_eq_some] at hs
  obtain ⟨hl, hen⟩ := hs
  cases hen
  by_cases hc : s.ptmConnection = true
  · have hu := ptmLocationReceived_connected (s := { s with status := stream.status })
      hc address (some error) registration
    rw [hu]
    exact iff_of_true ⟨hr, hl⟩ hc
  · have he : (evSelect listenerBroken ({ s with status := stream.status }.ptmLocationReceived
        address (some error) registration)).control = .ended := by
      rw [ptmLocationReceived_failed (by simpa using hc), if_neg hm]
      rfl
    refine iff_of_false (fun hg => ?_) hc
    rw [he] at hg
    exact nomatch hg.1

/-- **The attachment of a distiller.**  For every way a distiller starts up: exactly one of the
connection and the listener is set in every state it reaches, if and only if it did not connect and
then fail to register at start-up.  And in every state it reaches, it goes on and listens after a
beacon from a PTM that cannot be connected to if and only if it has a connection. -/
theorem attachment_of_run {ptmUnicast : RemoteID} {connect : Option ConnectError}
    {registration : Registration} {listen : Option ListenError} {s₀ : Attachment}
    (hstart : create ptmUnicast connect registration listen = some s₀) :
    ((∀ es s, Run step s₀ es s → s.ExactlyOne) ↔
        ¬ StrandedAtStart ptmUnicast connect registration) ∧
      ∀ es s, Run step s₀ es s → ∀ p past connect' registration' s',
        Unconnectable p past connect' → s.step (.beacon p past connect' registration') s' →
          (s'.control = .running ∧ s'.listener = some true ↔ s.ptmConnection = true) := by
  have hf := exactlyOne_create_iff hstart
  refine ⟨⟨fun ha => ?_, fun hn es s hrun => ?_⟩,
    fun es s _ p past connect' registration' s' hp hst => ?_⟩
  · exact hf.mp (ha [] s₀ (.nil s₀))
  · exact hrun.invariant (fun _ _ _ hs hst => hs.step hst) (hf.mpr hn)
  · exact listening_iff_of_unconnectable hp hst

/-- A distiller that registers at start-up, loses its PTM and hears of another. -/
theorem attachment_of_run_sample :
    ∃ s₀ s es, create ⟨⟨[49], by decide, by decide⟩, 80⟩ none .sent none = some s₀ ∧
      Run step s₀ es s ∧ s.listener = some true ∧ s.ExactlyOne ∧
      ∃ p, Unconnectable p 0 (some .errSocketConnectError) ∧
        ∀ s', s.step (.beacon p 0 (some .errSocketConnectError) .sent) s' →
          ¬ (s'.control = .running ∧ s'.listener = some true) := by
  have hs : create ⟨⟨[49], by decide, by decide⟩, 80⟩ none .sent none =
      some ⟨⟨⟨[49], by decide, by decide⟩, 80⟩, true, none, .success, .running⟩ := by decide
  have hl : Run step ⟨⟨⟨[49], by decide, by decide⟩, 80⟩, true, none, .success, .running⟩
      [.ptmError .errSocketEOF none] ⟨RemoteID.empty, false, some true, .success, .running⟩ :=
    .cons rfl (.nil _)
  obtain ⟨ho, hb⟩ := attachment_of_run hs
  have hpa : ((Ptm.sendBeacon ⟨⟨[49], by decide, by decide⟩, 80⟩ 1 []).bind fun p =>
      (beaconAddress (IStream.ofPacket p 0 .success)).map fun r => r.1.isSome) = some true := by
    decide +kernel
  obtain ⟨p, -, hr⟩ := bind_eq_some_iff.mp hpa
  obtain ⟨⟨address, stream⟩, hr, ha⟩ := map_eq_some_iff.mp hr
  obtain ⟨address, rfl⟩ := isSome_iff_exists.mp ha
  have hp : Unconnectable p 0 (some .errSocketConnectError) :=
    ⟨⟨address, stream, hr⟩, .errSocketConnectError, rfl, nofun⟩
  refine ⟨_, _, _, hs, hl, rfl, ho.mpr (by decide) _ _ hl, p, hp, fun s' hs' hg => ?_⟩
  exact nomatch (hb _ _ hl p 0 _ _ s' hp hs').mp hg

/-- A distiller that connects at start-up but cannot find out its own address has both pointers set.
One that listens ends when it hears a beacon of a PTM that has just died. -/
theorem deadBeacon_ends :
    ((create ⟨⟨[49], by decide, by decide⟩, 80⟩ none .noAddress none).any fun s =>
      s.ptmConnection = true ∧ s.listener = some true) = true ∧
    ((create RemoteID.empty none .sent none).any fun s =>
      s.listener = some true ∧ s.control = .running ∧
        ((Ptm.sendBeacon ⟨⟨[49], by decide, by decide⟩, 80⟩ 1 []).any fun p =>
          (s.next (.beacon p 0 (some .errSocketConnectError) .sent)).any fun s' =>
            s'.control = .ended) = true) = true := by
  decide +kernel

end Attachment

end Glomop.Dist
