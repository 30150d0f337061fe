import Disks.Lib.Bytes
import Disks.Lib.Loop
import Disks.Lib.Span
import Disks.Drive.Device
import Disks.Drive.Ata
import Disks.Drive.Scsi
import Disks.Drive.Nvme
import Disks.Drive.Transport
import Disks.Drive.Disk
import Disks.Drive.Wire
import Disks.Drive.Proof.AtaTrim
import Disks.Drive.Proof.ScsiUnmap
import Disks.Drive.Proof.NvmeTrim
import Disks.Drive.Proof.Addressing
import Disks.Drive.Proof.Traffic
import Disks.Tool.WipeDrive
import Disks.Tool.Proof.ScsiWipe
import Disks.Tool.Proof.AtaWipe
import Disks.Tool.DiskCopy
import Disks.Tool.Proof.DiskCopy
import Disks.Install.Filesystem
import Disks.Install.Proof.Layout
import Disks.Lib.Path
import Disks.Lib.Fold
import Disks.Config.LibConfig
import Disks.Config.Proof.Turn
import Disks.Config.Proof.LocalChanges
import Disks.Lib.Table
import Disks.Lib.Shared
import Disks.Config.Proof.Rows
import Disks.Config.Proof.Consistent
import Disks.Config.Proof.Rebuild
import Disks.Config.Proof.Status
import Disks.Config.Values
import Disks.Config.Proof.Values
import Disks.Install.Partition
import Disks.Install.Mounting
import Disks.Install.Proof.Turns
import Disks.Install.Proof.BootDrives
import Disks.Install.Proof.Scope
import Disks.Install.Proof.Entries
import Disks.Install.Proof.Independence
import Disks.Install.Proof.Volumes
import Disks.Lib.Regex
import Disks.Cinp.Uri
import Disks.Cinp.Proof.Uri
import Disks.Cinp.Client
import Disks.Cinp.Proof.Paging
import Disks.Cinp.Proof.Auth
import Disks.Lib.Assoc
import Disks.Manager.DriveManager
import Disks.Manager.Proof.Rescan
import Disks.Install.TargetDrives
import Disks.Install.Proof.TargetDrives
import Disks.Manager.DriveInfo
import Disks.Manager.Proof.DriveInfo
import Disks.Drive.Open
import Disks.Drive.Proof.Open
import Disks.Drive.Proof.Sense
import Disks.Drive.Proof.SmartStatus
import Disks.Tool.Proof.TrimWipe
import Disks.Tool.Proof.CopyOps
import Disks.Tool.Proof.CopyReport
import Disks.Tool.Proof.CopyPattern
import Disks.Drive.Proof.PowerMode
import Disks.Drive.AtaSmart
import Disks.Drive.Proof.AtaSmart
import Disks.Lib.CString
import Disks.Drive.ScsiPages
import Disks.Drive.Proof.Wwn
import Disks.Drive.Proof.ScsiFields
import Disks.Drive.Proof.ScsiBounds
import Disks.Drive.Proof.LogParameters
import Disks.Drive.Proof.ScsiSmart
import Disks.Drive.SmartAttrs
import Disks.Drive.Proof.SmartAttrs
import Disks.Drive.Identity
import Disks.Drive.Proof.Identity
import Disks.Lib.Stages
import Disks.Enclosure.LibEnclosure
import Disks.Enclosure.Proof.Walk
import Disks.Enclosure.Proof.Bounds
import Disks.Enclosure.Proof.RoundTrip
import Disks.Enclosure.PortMap
import Disks.Enclosure.Proof.PortMap
import Disks.Wipe.MultiPass
import Disks.Wipe.Proof.MultiPass
import Disks.Hardware.DmiDecode
import Disks.Hardware.Proof.DmiTable
import Disks.Hardware.Proof.DmiString
import Disks.Hardware.Vpd
import Disks.Hardware.Proof.Vpd
import Disks.Hardware.Proof.Isolation
import Disks.Install.Proof.Sizes
import Disks.Lib.Effect
import Disks.Tool.Muncher
import Disks.Tool.Proof.MuncherRange
import Disks.Tool.Proof.MuncherSweep
import Disks.Tool.Proof.Muncher
import Disks.Lib.Ranked
import Disks.Lib.Numeral
import Disks.Lib.Background
import Disks.Firmware.Planner
import Disks.Firmware.Proof.Planner
import Disks.Bios.BootOrder
import Disks.Bios.Proof.BootOrder
import Disks.Test.DriveManager
import Disks.Test.Evaluator
import Disks.Test.Proof.Evaluator
import Disks.Test.Proof.InUse
import Disks.Install.Proof.MountOrder
import Disks.Cinp.Proof.GetMulti
import Disks.Drive.Ioctl
import Disks.Drive.Proof.Ioctl
import Disks.Drive.U128
import Disks.Drive.Proof.U128
import Disks.Lib.Shell
import Disks.Install.ShellHelper
import Disks.Install.Proof.ShellHelper
import Disks.Lib.Lines
import Disks.Install.Procutils
import Disks.Install.Proof.Procutils
import Disks.Bootstrap.Lldp
import Disks.Bootstrap.Proof.Lldp
import Disks.Install.Grub
import Disks.Install.Proof.Grub
import Disks.Firmware.Handler
import Disks.Firmware.Proof.Handler
import Disks.Lib.Layout
import Disks.Enclosure.ConfigPage
import Disks.Enclosure.Proof.ConfigPage
import Disks.Lib.Journal
import Disks.Task.DoTask
import Disks.Firmware.Update
import Disks.Firmware.Proof.Update
import Disks.Firmware.Proof.UpdateRuns
import Disks.Bios.Config
import Disks.Bios.Proof.Config
import Disks.Bios.Proof.ConfigRuns
import Disks.Test.Procutils
import Disks.Test.DriveTest
import Disks.Lib.Triple
import Disks.Test.Proof.Procutils
import Disks.Test.Proof.DriveTest
import Disks.Lib.Actions
import Disks.Lib.Merge
import Disks.Console.Ttytee
import Disks.Console.Proof.Ttytee
import Disks.Lib.Channel
import Disks.Contractor.Client
import Disks.Contractor.Proof.Client
import Disks.Bootstrap.Main
import Disks.Bootstrap.Proof.Main
