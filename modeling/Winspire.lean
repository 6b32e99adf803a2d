import Winspire.Lib.Interaction
import Winspire.Lib.Wire
import Winspire.Lib.Lockstep
import Winspire.Lib.Blit
import Winspire.Lib.LittleEndian
import Winspire.Netblk.Protocol
import Winspire.Netblk.Client
import Winspire.Netblk.Disk
import Winspire.Netblk.Table
import Winspire.Netblk.Drain
import Winspire.Netblk.Commit
import Winspire.Netblk.Store
import Winspire.Netblk.ReadCache
import Winspire.Netblk.Session
import Winspire.Netblk.Dialog
import Winspire.Netblk.Socket
import Winspire.Netblk.Guarantees
import Winspire.Server.State
import Winspire.Server.Host
import Winspire.Server.Request
import Winspire.Server.Guarantees
import Winspire.Server.Exchange
import Winspire.Netdisk
import Winspire.Ide.Disk
import Winspire.Ide.Atapi
import Winspire.Ide.Port
import Winspire.Ide.State
import Winspire.Ide.Bounds
import Winspire.Ide.AtapiBounds
import Winspire.Ide.Invariant
import Winspire.Ide.StringIo
import Winspire.Ide.Transfer
import Winspire.Cpu.EagerFlags
import Winspire.Cpu.FlagRuns
import Winspire.Cpu.State
import Winspire.Cpu.Mmu
import Winspire.Cpu.PageWalk
import Winspire.Cpu.Tlb
import Winspire.Cpu.TlbRuns
import Winspire.Cpu.Bounds
import Winspire.Cpu.Lookup
import Winspire.Cpu.Fetch
import Winspire.Cpu.FetchCache
import Winspire.Cpu.FetchRuns
import Winspire.Cpu.Segments
import Winspire.Cpu.Accessed
import Winspire.Cpu.StringOps
import Winspire.Cpu.Outer
import Winspire.Cpu.Held
import Winspire.Cpu.StringElems
import Winspire.Cpu.BulkRuns
import Winspire.Cpu.StringRuns
import Winspire.Cpu.Alike
import Winspire.Cpu.MovsRuns
import Winspire.Cpu.RepStrings
import Winspire.Cpu.StringSlices
import Winspire.Frontend.Timer
import Winspire.Pic.Delivery
import Winspire.Vga.Memory
import Winspire.Vga.WideWrites
import Winspire.Cpu.Backstage
import Winspire.Cpu.Restart
import Winspire.Cpu.ModeCache
import Winspire.Lib.Ring
import Winspire.Lib.Coupled
import Winspire.Ps2.Mouse
import Winspire.Ps2.Packets
import Winspire.Ide.CdRead
import Winspire.Netblk.ReadTurns
import Winspire.Ide.Geometry
import Winspire.Ide.FileCache
import Winspire.Ide.FileCacheRuns
import Winspire.Cpu.Crossing
import Winspire.Cpu.Shifts
import Winspire.Cpu.ShiftFlags
import Winspire.Cpu.Operands
import Winspire.Cpu.Fusion
import Winspire.Cpu.FusionRuns
import Winspire.Cpu.ModeInsns
import Winspire.Cpu.ModeRuns
import Winspire.Lib.Marking
import Winspire.Cpu.Views
import Winspire.Cpu.ViewFetch
import Winspire.Cpu.Checksum
import Winspire.Cpu.ChecksumRuns
import Winspire.Cpu.ChecksumFast
import Winspire.Cpu.ChecksumShortcut
import Winspire.Lib.Boundaries
import Winspire.Pit.Channel
import Winspire.Cmos.Rtc
import Winspire.Pit.Pulses
import Winspire.Cmos.Periodic
import Winspire.Cpu.Division
import Winspire.Cpu.RamOperands
import Winspire.Cpu.Exchanges
import Winspire.Cpu.BitTests
import Winspire.Ps2.Keyboard
import Winspire.Ps2.KeyRuns
import Winspire.Floppy.Emulink
import Winspire.Floppy.Confined
import Winspire.Frontend.Lcd
import Winspire.Frontend.Redraws
import Winspire.Lib.Raster
import Winspire.Frontend.Mirror
import Winspire.Frontend.MirrorPaths
import Winspire.Frontend.MirrorRuns
import Winspire.Vga.VbeClear
import Winspire.Vga.VbeRuns
import Winspire.Vga.Bus
import Winspire.Vga.Decode
import Winspire.Lib.Incremental
import Winspire.Vga.VbeScale
import Winspire.Vga.Display
import Winspire.Vga.Screen
import Winspire.Vga.Lines
import Winspire.Vga.Mode13
import Winspire.Vga.Writes
import Winspire.Vga.Mode13Runs
import Winspire.Vga.Planar
import Winspire.Vga.PlanarRuns
import Winspire.Vga.Text
import Winspire.Vga.TextRuns
import Winspire.Lib.Cyclic
import Winspire.Net.Ne2000
import Winspire.Net.Frames
import Winspire.Net.Delivery
import Winspire.Net.Transmit
import Winspire.Cpu.Frames
import Winspire.Cpu.RealInterrupts
import Winspire.Cpu.DirectStack
import Winspire.Sound.Playback
import Winspire.Sound.Resample
