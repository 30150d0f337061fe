import Disks.Drive.Device

/-!
# 128-bit numbers (`device.c`, `nvme.c`)

`getu128` and `getu128le` of `device.c`, and the numbers that the identify command of `nvme.c` takes
with them. A read behind the bytes that are there has no result (`none`).
-/

namespace Drive

open Bytes

abbrev U128 := BitVec 128

/-- `( __int128 ) value[ i ]` -/
def byte128 (value : List Byte) (i : Nat) : Option U128 := value[i]?.map (·.setWidth 128)

/-- `getu128`. -/
def getu128 (value : List Byte) : Option U128 := do
  let b := byte128 value
  return ((← b 0) <<< 120) ||| ((← b 1) <<< 112) ||| ((← b 2) <<< 104) ||| ((← b 3) <<< 96) |||
    ((← b 4) <<< 88) ||| ((← b 5) <<< 80) ||| ((← b 6) <<< 72) ||| ((← b 7) <<< 64) |||
    ((← b 8) <<< 56) ||| ((← b 9) <<< 48) ||| ((← b 10) <<< 40) ||| ((← b 12) <<< 32) |||
    ((← b 13) <<< 24) ||| ((← b 14) <<< 16) ||| ((← b 15) <<< 8) ||| (← b 16)

/-- `getu128le`. -/
def getu128le (value : List Byte) : Option U128 := do
  let b := byte128 value
  return ((← b 15) <<< 120) ||| ((← b 14) <<< 112) ||| ((← b 13) <<< 104) ||| ((← b 12) <<< 96) |||
    ((← b 11) <<< 88) ||| ((← b 10) <<< 80) ||| ((← b 9) <<< 72) ||| ((← b 8) <<< 64) |||
    ((← b 7) <<< 56) ||| ((← b 6) <<< 48) ||| ((← b 5) <<< 40) ||| ((← b 4) <<< 32) |||
    ((← b 3) <<< 24) ||| ((← b 2) <<< 16) ||| ((← b 1) <<< 8) ||| (← b 0)

/-- `struct nvme_identity_ns` from `nguid` on, as far as it is read. -/
structure NamespaceIds where
  nguid : Vector Byte 16
  eui64 : Vector Byte 8

/-- The bytes from `nguid` on. -/
def NamespaceIds.bytes (ids : NamespaceIds) : List Byte := ids.nguid.toList ++ ids.eui64.toList

/-- The WWN of `exec_cmd_nvme` for `CMD_IDENTIFY`. -/
def nvmeWWN (ids : NamespaceIds) : Option U128 := do
  let wwn ← getu128 ids.bytes
  return if wwn = 0 then (getu64 ids.eui64.toList).setWidth 128 else wwn

/-- `totalCapacity` and `unallocatedCapacity`, of `tnvmcap` and `unvmcap`. -/
def nvmeCapacities (tnvmcap unvmcap : Vector Byte 16) : Option (U128 × U128) := do
  return (← getu128le tnvmcap.toList, ← getu128le unvmcap.toList)

end Drive
