import BootHandoff.Boot
import BootHandoff.Console.Machine
import BootHandoff.Memory.Extent
import BootHandoff.Text.Utf8
import BootHandoff.Proofs.Hob.Framing
import BootHandoff.Proofs.Hob.Offering
import BootHandoff.Proofs.Hob.Consumer
import BootHandoff.Proofs.Hob.Decoding
import BootHandoff.Proofs.Procedure.Sending
import BootHandoff.Proofs.Handoff.Order
import BootHandoff.Proofs.Coreboot.Collecting
import BootHandoff.Proofs.Coreboot.RoundTrip
import BootHandoff.Proofs.MemoryMap.Separation
import BootHandoff.Proofs.Handoff.Exhaustion
import BootHandoff.Proofs.Acpi.Selection
import BootHandoff.Proofs.Coreboot.Overflow
import BootHandoff.Proofs.Coreboot.Search
import BootHandoff.Proofs.Memory.Agreement
import BootHandoff.Proofs.Coreboot.Reach
import BootHandoff.Proofs.Coreboot.Sources
import BootHandoff.Proofs.Guard.Words
import BootHandoff.Proofs.Guard.Acpi
import BootHandoff.Proofs.Guard.Handoff
import BootHandoff.Proofs.Guard.HobList
import BootHandoff.Proofs.Procedure.Safety
import BootHandoff.Proofs.Acpi.Wrapping
import BootHandoff.Proofs.Handoff.Safety
import BootHandoff.Proofs.Procedure.Ending
import BootHandoff.Proofs.Handoff.Course
import BootHandoff.Proofs.Handoff.Decoding
import BootHandoff.Proofs.Handoff.Diagnostic
import BootHandoff.Proofs.Coreboot.Limits
import BootHandoff.Proofs.Handoff.Room
import BootHandoff.Proofs.Acpi.RootPointer
import BootHandoff.Proofs.Handoff.Announcing
import BootHandoff.Proofs.Hob.Footprint
import BootHandoff.Proofs.Console.Transmission
import BootHandoff.Proofs.Console.Accesses
import BootHandoff.Proofs.Boot.Confinement
import BootHandoff.Proofs.MemoryMap.Climbing
import BootHandoff.Proofs.MemoryMap.Describing
import BootHandoff.Proofs.MemoryMap.Tiling
import BootHandoff.Proofs.Acpi.Acceptance
import BootHandoff.Proofs.Memory.SingleBytes
import BootHandoff.Proofs.Acpi.Corruption
import BootHandoff.Proofs.Acpi.FadtImage
import BootHandoff.Proofs.Boot.UsableRam
import BootHandoff.Proofs.Platform.ScanLine
import BootHandoff.Proofs.Console.Programming
import BootHandoff.Proofs.Console.Transcript
import BootHandoff.Proofs.Boot.BringUp
import BootHandoff.Proofs.Hob.Cutting
import BootHandoff.Proofs.Boot.Placement
import BootHandoff.Proofs.Console.Outlet
