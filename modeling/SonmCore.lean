import SonmCore.Directory
import SonmCore.DirectoryResolve
import SonmCore.DirectorySweep
import SonmCore.DirectoryRun
import SonmCore.JanitorSchedule
import SonmCore.Ledger
import SonmCore.DealWatcher
import SonmCore.FmtScan
import SonmCore.FmtAccept
import SonmCore.GpuDevice
