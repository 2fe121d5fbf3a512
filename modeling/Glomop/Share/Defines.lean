import Glomop.Lib.CText

/-!
# Shared definitions

The error codes, packet types, status words and size constants that the PTM and the front end
share (`error.h`, `defines.h`).  Status words that arrive from the network are kept
as raw 32-bit words where the code keeps them so (a cast to an `enum` checks nothing); the
enumerations below name the values the code compares them with.
-/

namespace Glomop

open Lib

/-- The error codes. -/
inductive Errors
  | success
  | errNoErrorObject
  | errThreadError
  | errOutOfMemory
  | errBufferOverflow
  | errNULLPointer
  | errDuplicateIndexEntry
  | errIPAddressError
  | errSocketCreationError
  | errSocketBindError
  | errSocketListenError
  | errSocketConnectError
  | errSocketReadError
  | errSocketEOF
  | errSocketWriteError
  | errSocketReadNothingAvailable
  | errSocketReadNotEnoughData
  | errSocketTimeout
  | errTcpAddressError
  | errUdpAddressError
  | errMcastAddressError
  | errMcastTTLError
  | errMcastAddMembershipError
  | errEvSysCreationError
  | errEvSysPostError
  | errEvSysSendError
  | errEvSysGetError
  | errEvSysInvalidEvent
  | errTooLargeDatagram
  | errInvalidMagicKey
  | errChecksumError
  | errInvalidPacketType
  | errFormattingError
  | errOutOfContextPacket
  | errCouldNotLaunch
  | errFileOpenError
  | errGenericError
deriving DecidableEq, Repr

inductive SelectError
  | ignored
  /-- `EvConnectionBroken` is called. -/
  | connectionBroken
  | aborted
  /-- The handler returns `gm_False`, and the event loop ends. -/
  | fatal
deriving DecidableEq

/-- `packet.cc` `gm_PacketHandler::HandleSelectError`. -/
def Errors.selectError : Errors → SelectError
  | errSocketReadNotEnoughData | errInvalidMagicKey | errChecksumError | errInvalidPacketType
  | errFormattingError | errOutOfContextPacket | errSocketReadError | errSocketWriteError =>
    .ignored
  | errSocketEOF => .connectionBroken
  | success => .aborted
  | _ => .fatal

/-- The packet types.
`defines.h` `enum PTMPacketTypes`. -/
inductive PTMPacketType
  | pktRegisterDistiller
  | pktDeregisterDistiller
  | pktReregisterDistiller
  | pktAskForDistiller
  | pktAskForDistillerReply
  | pktPTMBeacon
  | pktDistillerInput
  | pktDistillerOutput
  | pktDistillerLoad
  | pktWillStartPTM
  | pktAskForUnicastBeacon
  | pktDistillerSleep
  | pktFlushNCache
deriving DecidableEq, Repr

namespace PTMPacketType

def all : List PTMPacketType :=
  [pktRegisterDistiller, pktDeregisterDistiller, pktReregisterDistiller, pktAskForDistiller,
    pktAskForDistillerReply, pktPTMBeacon, pktDistillerInput, pktDistillerOutput,
    pktDistillerLoad, pktWillStartPTM, pktAskForUnicastBeacon, pktDistillerSleep, pktFlushNCache]

/-- The type word of a packet header as a member of the enumeration, if it is one. -/
def ofWord (w : UInt32) : Option PTMPacketType :=
  if w < 100 then none else all[(w - 100).toNat]?

def toWord (t : PTMPacketType) : UInt32 := 100 + UInt32.ofNat (all.idxOf t)

end PTMPacketType

/-- The status of an answer to a request for a distiller. -/
inductive AskForDistillerStatus
  | ptmOk
  | ptmNoDistiller
  | ptmDistillerLaunchTimeout
  | ptmAskForDistillerTimeout
  | ptmNoPTM
deriving DecidableEq, Repr

def AskForDistillerStatus.toWord : AskForDistillerStatus → UInt32
  | ptmOk => 0
  | ptmNoDistiller => 1
  | ptmDistillerLaunchTimeout => 2
  | ptmAskForDistillerTimeout => 3
  | ptmNoPTM => 4

/-! ### Sleep status words
`defines.h` `enum DistillerSleepStatus`. -/

def distSleep : UInt32 := 0

def distKill : UInt32 := 1

def distWakeUp : UInt32 := 2

/-! ### Sizes and limits -/

abbrev MAXIP : ℕ := 20

abbrev MAXDISTILLER_TYPE_STRING : ℕ := 80

/-- The request/reply id that stands for no request. -/
def NoRequestReply : UInt32 := 0

/-! ### Delimiters -/

/-- The character `|`, which separates the fields of a packet. -/
abbrev bar : UInt8 := 124

/-- The character `/`, which separates an IP address from its port. -/
abbrev slash : UInt8 := 47

lemma noNul_a : (0 : UInt8) ∉ ([97] : Bytes) := by decide

lemma fits_a : ([97] : Bytes).length < MAXDISTILLER_TYPE_STRING := by decide

lemma noNul_1 : (0 : UInt8) ∉ ([49] : Bytes) := by decide

lemma fits_1 : ([49] : Bytes).length < MAXIP := by decide

end Glomop
