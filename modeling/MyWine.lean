import MyWine.Loader.Startup
import MyWine.Syscall.Entry
import MyWine.Ntdll.Dispatch
import MyWine.Ntdll.EventMap
import MyWine.Kernel32.FileHandles
import MyWine.Kernel32.FilePointer
import MyWine.Loader.FileView
import MyWine.Wrapper
import MyWine.Loader.BaseAllocator
import MyWine.Loader.GuestEntry
import MyWine.Loader.PebLdr
import MyWine.Kernel32.BalancedLoads
import MyWine.Loader.OrdinalImport
import MyWine.Kernel32.ModuleIdentity
import MyWine.Kernel32.ImportDepth
import MyWine.Loader.ImportBinding
import MyWine.Kernel32.VirtualAlloc
import MyWine.User32.QueueLists
import MyWine.User32.StaleMessages
import MyWine.Ddraw.Ownership
import MyWine.Sdl2.KeyDelivery
import MyWine.Advapi32.RegistryMap
import MyWine.Winmm.MidiTiming
import MyWine.Sdl2.ShutdownDelivery
import MyWine.Loader.RelocationEffect
import MyWine.Kernel32.Tls
import MyWine.Msvcrt.Realloc
import MyWine.Ntdll.Creation
import MyWine.Ntdll.Waits
import MyWine.Kernel32.ResolvePath
import MyWine.Loader.RefptrPatch
import MyWine.Kernel32.Wildcards
import MyWine.User32.LoadString
import MyWine.Pe.StringTable
import MyWine.Loader.JumpScan
import MyWine.Loader.DebugLines
import MyWine.Crt.Seeding
import MyWine.Dsound.BufferControl
import MyWine.User32.ClassRegistry
