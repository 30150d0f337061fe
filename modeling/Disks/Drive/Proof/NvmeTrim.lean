import Disks.Drive.Disk
import Disks.Drive.Wire

/-!
# NVMe trim deallocates nothing

* `trim_nvme_issued`: the one request `trim` makes on an NVMe namespace.
* `trim_nvme_inexact`: **no request is a Dataset Management command of the I/O command set**, so
  the requested range is never what the device is told to deallocate.
-/

namespace Drive

open Bytes

/-- A kernel that records what it is asked. -/
def recordIoctl (k : List NvmeIoctl → NvmeIoctl → Int × List Byte) :
    NvmeKernel (List NvmeIoctl) := fun req issued => (k issued req, issued ++ [req])

/-- The range list `CMD_TRIM` fills in. -/
def nvmeTrimRange (start count : U64) : NvmeDsmgntRange :=
  { cattr := 0, nlba := start.setWidth 32, slba := count }

/-- The request `CMD_TRIM` makes. -/
def nvmeTrimIoctl (nsid : U32) (start count : U64) : NvmeIoctl where
  queue := .adminCmd
  cdb := { opcode := NVME_OP_DS_MANAGMENT, nsid := nsid, cdw10 := 1,
           cdw11 := NVME_DS_MANAGMENT_DEALLOCATE }
  data := some (nvmeTrimRange start count).bytes
  dataLen := (nvmeTrimRange start count).bytes.length

theorem trim_nvme_issued {drive : DeviceHandle} (hsup : drive.info.supportsTrim)
    (hport : drive.port ≠ 0) (k : List NvmeIoctl → NvmeIoctl → Int × List Byte)
    (start count : U64) :
    ∃ rc, trim drive (execCmdNvme drive (nvmeCmd (recordIoctl k))) start count [] =
      some (rc, [nvmeTrimIoctl drive.port start count]) := by
  simp only [trim, hsup, Bool.not_true, Bool.false_eq_true, if_false, execCmdNvme, if_neg hport,
    nvmeCmd, recordIoctl, List.nil_append, Option.bind_eq_bind, Option.bind_some]
  exact ⟨_, rfl⟩

/-! ## The result -/

/-- `trim` comes back, every request it made is a deallocation in the drive's namespace, and
together they deallocate exactly the requested range. -/
def NvmeExact (drive : DeviceHandle) (k : List NvmeIoctl → NvmeIoctl → Int × List Byte)
    (start count : U64) : Prop :=
  ∃ r, trim drive (execCmdNvme drive (nvmeCmd (recordIoctl k))) start count [] = some r ∧
    (∀ req ∈ r.2, ∃ spans, nvmeDsm drive.port req = some spans) ∧
    Span.cover (r.2.flatMap fun req => (nvmeDsm drive.port req).getD []) =
      (requested drive.info.LBACount.toNat start.toNat count.toNat).points

theorem nvmeDsm_adminCmd (nsid port : U32) (start count : U64) :
    nvmeDsm nsid (nvmeTrimIoctl port start count) = none := by
  simp [nvmeDsm, nvmeTrimIoctl]

/-- **NVMe trim is never exact**: its request goes to the administration queue. -/
theorem trim_nvme_inexact {drive : DeviceHandle} (hsup : drive.info.supportsTrim)
    (hport : drive.port ≠ 0) (k : List NvmeIoctl → NvmeIoctl → Int × List Byte)
    (start count : U64) : ¬ NvmeExact drive k start count := by
  rintro ⟨r, hr, hdsm, -⟩
  obtain ⟨rc, hrun⟩ := trim_nvme_issued hsup hport k start count
  rw [hr, Option.some.injEq] at hrun
  obtain ⟨spans, hspans⟩ := hdsm _ (by rw [hrun]; exact List.mem_singleton.2 rfl)
  rw [nvmeDsm_adminCmd] at hspans
  cases hspans

/-- A namespace of 1000 blocks. -/
def nvmeDrive : DeviceHandle :=
  { port := 1, info := { supportsTrim := true, LBACount := 1000 } }

theorem trim_nvme_inexact_sample : ¬ NvmeExact nvmeDrive (fun _ _ => (0, [])) 0 0 :=
  trim_nvme_inexact (show nvmeDrive.info.supportsTrim from rfl) (by decide) (fun _ _ => (0, []))
    0 0

/-- Eight blocks from block 100 on, on a controller that accepts everything. -/
theorem trim_nvme_counterexample :
    nvmeDrive.info.supportsTrim ∧ nvmeDrive.port ≠ 0 ∧ (100 : U64) ≤ nvmeDrive.info.LBACount ∧
      ¬ NvmeExact nvmeDrive (fun _ _ => (0, [])) 100 8 := by
  refine ⟨rfl, by decide, by decide, ?_⟩
  rintro ⟨r, hr, hdsm, -⟩
  obtain ⟨rc, hrun⟩ := trim_nvme_issued (show nvmeDrive.info.supportsTrim from rfl) (by decide)
    (fun _ _ => (0, [])) 100 8
  rw [hr, Option.some.injEq] at hrun
  obtain ⟨spans, hspans⟩ := hdsm _ (by rw [hrun]; exact List.mem_singleton.2 rfl)
  rw [nvmeDsm_adminCmd] at hspans
  cases hspans

end Drive
