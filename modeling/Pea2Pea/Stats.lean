/-
`Stats` (`stats.rs`): the counters of a connection or of the node. Each
registration is two atomic additions, modulo 2^64.
-/
import Mathlib.Algebra.BigOperators.Group.List.Basic

namespace Pea2Pea

structure Stats where
  msgsSent : BitVec 64
  msgsReceived : BitVec 64
  bytesSent : BitVec 64
  bytesReceived : BitVec 64
  deriving DecidableEq

namespace Stats

def new : Stats := ⟨0, 0, 0, 0⟩

def addMsgsSent (s : Stats) (msgs : Nat) : Stats := { s with msgsSent := s.msgsSent + BitVec.ofNat 64 msgs }

def addBytesSent (s : Stats) (bytes : Nat) : Stats := { s with bytesSent := s.bytesSent + BitVec.ofNat 64 bytes }

def registerSentMessages (s : Stats) (msgs bytes : Nat) : Stats := (s.addMsgsSent msgs).addBytesSent bytes

def registerReceivedMessage (s : Stats) (size : Nat) : Stats :=
  { s with msgsReceived := s.msgsReceived + 1, bytesReceived := s.bytesReceived + BitVec.ofNat 64 size }

@[simp] theorem registerReceivedMessage_msgs (s : Stats) (size : Nat) :
    (s.registerReceivedMessage size).msgsReceived = s.msgsReceived + 1 := rfl

@[simp] theorem registerReceivedMessage_bytes (s : Stats) (size : Nat) :
    (s.registerReceivedMessage size).bytesReceived = s.bytesReceived + BitVec.ofNat 64 size := rfl

@[simp] theorem registerSentMessages_zero (s : Stats) : s.registerSentMessages 0 0 = s := by
  simp [registerSentMessages, addMsgsSent, addBytesSent]

theorem addMsgsSent_eq (s : Stats) (msgs : Nat) : s.addMsgsSent msgs = s.registerSentMessages msgs 0 := by
  simp [registerSentMessages, addMsgsSent, addBytesSent]

theorem addBytesSent_eq (s : Stats) (bytes : Nat) : s.addBytesSent bytes = s.registerSentMessages 0 bytes := by
  simp [registerSentMessages, addMsgsSent, addBytesSent]

/-- Two registrations are one of the sums. -/
theorem registerSentMessages_add (s : Stats) (m b m' b' : Nat) :
    (s.registerSentMessages m b).registerSentMessages m' b' = s.registerSentMessages (m + m') (b + b') := by
  simp [registerSentMessages, addMsgsSent, addBytesSent, BitVec.ofNat_add, BitVec.add_assoc]

end Stats

end Pea2Pea
