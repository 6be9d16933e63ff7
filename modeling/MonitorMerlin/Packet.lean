import MonitorMerlin.Library.ByteImage
import MonitorMerlin.Library.MachineInt

/-! # Packets -/

namespace MonitorMerlin

open ByteImage MachineInt

/-- `HDR_SIZE`. -/
def hdrSize : Nat := 128

/-- `MAX_PKT_SIZE`. -/
def maxPktSize : Int := 131200

def hdrType (pkt : Bytes) : Nat := leValue (slice pkt 10 2)

def hdrCode (pkt : Bytes) : Nat := leValue (slice pkt 12 2)

def hdrLen (pkt : Bytes) : Nat := leValue (slice pkt 16 4)

/-- `packet_size`, as an `int`. -/
def packetSize (pkt : Bytes) : Int := toInt (hdrLen pkt + hdrSize)

def ctrlPacket : Nat := 0xffff
def ctrlInactive : Nat := 2
def ctrlActive : Nat := 3

def ValidPacket (pkt : Bytes) : Prop := packetSize pkt = pkt.length ∧ packetSize pkt ≤ maxPktSize

def AcceptsEntry (pkt : Bytes) : Prop :=
  packetSize pkt = toInt pkt.length ∧ pkt.length ≠ 0 ∧ packetSize pkt ≠ 0 ∧
    packetSize pkt ≤ maxPktSize

instance (pkt : Bytes) : Decidable (AcceptsEntry pkt) := inferInstanceAs (Decidable (_ ∧ _))

variable {pkt : Bytes}

theorem ValidPacket.length_le (valid : ValidPacket pkt) : pkt.length ≤ 131200 := by
  have bound := valid.2
  rw [valid.1, maxPktSize] at bound
  omega

theorem ValidPacket.acceptsEntry (valid : ValidPacket pkt) : AcceptsEntry pkt := by
  have bound := valid.length_le
  have nonempty : pkt.length ≠ 0 := by
    intro empty
    have sameSize := valid.1
    rw [List.length_eq_zero_iff.mp empty] at sameSize
    exact absurd sameSize (by decide)
  refine ⟨?_, nonempty, ?_, valid.2⟩
  · rw [valid.1, toInt_of_lt (by omega)]
  · rw [valid.1]
    omega

/-- `MERLIN_SIGNATURE`. -/
def merlinSignature : Bytes := [0x4d, 0x52, 0x4c, 0x4e, 0x45, 0x56, 0x54, 0x00]

def merlinProtocolVersion : Nat := 3

structure Uuid where
  bytes : Bytes
  fits : bytes.length ≤ 36

def stampEvent (pkt : Bytes) : Bytes :=
  patch (patch pkt 0 merlinSignature) 8 (leBytes 2 merlinProtocolVersion)

def stampUuid (uuid : Uuid) (pkt : Bytes) : Bytes := patch pkt 76 (uuid.bytes ++ [0])

def stamped (uuid : Uuid) (pkt : Bytes) : Bytes := stampUuid uuid (stampEvent pkt)

def SizedPacket (pkt : Bytes) : Prop := pkt.length = hdrSize + hdrLen pkt ∧ hdrLen pkt ≤ 131072

instance (pkt : Bytes) : Decidable (SizedPacket pkt) := inferInstanceAs (Decidable (_ ∧ _))

theorem SizedPacket.long (sized : SizedPacket pkt) : hdrSize ≤ pkt.length := by
  rw [sized.1]
  exact Nat.le_add_right _ _

theorem SizedPacket.packetSize_eq (sized : SizedPacket pkt) : packetSize pkt = pkt.length := by
  have bound := sized.2
  rw [sized.1, packetSize, Nat.add_comm, toInt_of_lt]
  rw [hdrSize]
  omega

theorem SizedPacket.packetSize_pos (sized : SizedPacket pkt) : 0 < packetSize pkt := by
  have long := sized.long
  rw [sized.packetSize_eq]
  unfold hdrSize at long
  omega

theorem SizedPacket.take_packetSize (sized : SizedPacket pkt) :
    pkt.take (packetSize pkt).toNat = pkt := by
  rw [sized.packetSize_eq, Int.toNat_natCast, List.take_length]

theorem SizedPacket.validPacket (sized : SizedPacket pkt) : ValidPacket pkt := by
  refine ⟨sized.packetSize_eq, ?_⟩
  have bound := sized.2
  rw [sized.packetSize_eq, sized.1, hdrSize, maxPktSize]
  omega

variable {uuid : Uuid}

theorem length_uuid_field (uuid : Uuid) : (uuid.bytes ++ [0]).length ≤ 37 := by
  have fits := uuid.fits
  simp
  omega

section

variable (long : hdrSize ≤ pkt.length)

include long

theorem length_stampEvent : (stampEvent pkt).length = pkt.length := by
  have signature : merlinSignature.length = 8 := rfl
  have inner : (patch pkt 0 merlinSignature).length = pkt.length :=
    length_patch (by unfold hdrSize at long; omega)
  rw [stampEvent, length_patch, inner]
  rw [inner, length_leBytes]
  unfold hdrSize at long
  omega

theorem length_stampUuid : (stampUuid uuid pkt).length = pkt.length := by
  have field := length_uuid_field uuid
  unfold hdrSize at long
  exact length_patch (by omega)

theorem slice_stampEvent {start : Nat} (behind : 10 ≤ start) (count : Nat) :
    slice (stampEvent pkt) start count = slice pkt start count := by
  have signature : merlinSignature.length = 8 := rfl
  unfold hdrSize at long
  have inner : (patch pkt 0 merlinSignature).length = pkt.length := length_patch (by omega)
  rw [stampEvent, slice_patch_after (by rw [inner, length_leBytes]; omega)
    (by rw [length_leBytes]; omega), slice_patch_after (by omega) (by omega)]

theorem slice_stampUuid {start count : Nat} (before : start + count ≤ 76) :
    slice (stampUuid uuid pkt) start count = slice pkt start count := by
  unfold hdrSize at long
  exact slice_patch_before (by omega) before

end

theorem SizedPacket.stampEvent (sized : SizedPacket pkt) : SizedPacket (stampEvent pkt) := by
  rw [SizedPacket, length_stampEvent sized.long, hdrLen, slice_stampEvent sized.long (by decide)]
  exact sized

theorem SizedPacket.stampUuid (sized : SizedPacket pkt) : SizedPacket (stampUuid uuid pkt) := by
  rw [SizedPacket, length_stampUuid sized.long, hdrLen, slice_stampUuid sized.long (by decide)]
  exact sized

variable (long : hdrSize ≤ pkt.length)

include long

theorem stampEvent_stampEvent : stampEvent (stampEvent pkt) = stampEvent pkt := by
  have signature : merlinSignature.length = 8 := rfl
  have version : (leBytes 2 merlinProtocolVersion).length = 2 := rfl
  unfold hdrSize at long
  have inner : (patch pkt 0 merlinSignature).length = pkt.length := length_patch (by omega)
  have swapped :
      patch (stampEvent pkt) 0 merlinSignature =
        patch (patch (patch pkt 0 merlinSignature) 0 merlinSignature) 8
          (leBytes 2 merlinProtocolVersion) :=
    (patch_comm (by omega) (by omega)).symm
  have once : patch (patch pkt 0 merlinSignature) 0 merlinSignature = patch pkt 0 merlinSignature :=
    patch_patch_same rfl (by omega)
  rw [stampEvent, swapped, once, stampEvent]
  exact patch_patch_same rfl (by omega)

theorem stampEvent_stampUuid :
    stampEvent (stampUuid uuid pkt) = stampUuid uuid (stampEvent pkt) := by
  have signature : merlinSignature.length = 8 := rfl
  have version : (leBytes 2 merlinProtocolVersion).length = 2 := rfl
  have field := length_uuid_field uuid
  unfold hdrSize at long
  have inner : (patch pkt 0 merlinSignature).length = pkt.length := length_patch (by omega)
  have first :
      patch (stampUuid uuid pkt) 0 merlinSignature =
        patch (patch pkt 0 merlinSignature) 76 (uuid.bytes ++ [0]) :=
    (patch_comm (by omega) (by omega)).symm
  rw [stampEvent, first, stampEvent, stampUuid]
  exact (patch_comm (by omega) (by omega)).symm

theorem stamped_stampEvent : stamped uuid (stampEvent pkt) = stamped uuid pkt := by
  rw [stamped, stampEvent_stampEvent long, stamped]

theorem stamped_stampUuid : stamped uuid (stampUuid uuid pkt) = stamped uuid pkt := by
  have field := length_uuid_field uuid
  have sameLength := length_stampEvent long
  rw [stamped, stampEvent_stampUuid long, stamped]
  unfold hdrSize at long
  exact patch_patch_same rfl (by omega)

end MonitorMerlin
