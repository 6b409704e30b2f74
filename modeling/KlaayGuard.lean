import KlaayGuard.Library.Interleaving
import KlaayGuard.Library.XmlText
import KlaayGuard.Library.TextReplace
import KlaayGuard.Library.HexText
import KlaayGuard.Library.DesktopEntry
import KlaayGuard.Library.Attempts
import KlaayGuard.Library.FileDisk
import KlaayGuard.Library.ShellText
import KlaayGuard.Library.QueryText
import KlaayGuard.Library.Timeline
import KlaayGuard.Library.Mailbox
import KlaayGuard.Config
import KlaayGuard.HonestQuery
import KlaayGuard.TrayLine
import KlaayGuard.Effects
import KlaayGuard.Keychain
import KlaayGuard.CredentialHistory
import KlaayGuard.DeviceIdentity
import KlaayGuard.Session
import KlaayGuard.SessionStore
import KlaayGuard.SessionNames
import KlaayGuard.Startup
import KlaayGuard.Collection
import KlaayGuard.EndedSession
import KlaayGuard.BackgroundLoop
import KlaayGuard.LoopWakeups
import KlaayGuard.CheckinRows
import KlaayGuard.CycleRequests
import KlaayGuard.FirstIdentity
import KlaayGuard.WindowsScreenLock
import KlaayGuard.PowerLockSpec
import KlaayGuard.PolicyPrecedence
import KlaayGuard.LinuxScreenLock
import KlaayGuard.HyprlandLock
import KlaayGuard.LsblkOrder
import KlaayGuard.HomeMount
import KlaayGuard.ProcMounts
import KlaayGuard.UpdateGate
import KlaayGuard.LockExclusion
import KlaayGuard.MacosSwap
import KlaayGuard.DeviceTree
import KlaayGuard.Guid
import KlaayGuard.TrayPaints
import KlaayGuard.SignInCode
import KlaayGuard.LaunchAgent
import KlaayGuard.AssetChoice
import KlaayGuard.AppimageReplace
import KlaayGuard.CredentialFile
import KlaayGuard.UpdateLeftovers
import KlaayGuard.Autostart
import KlaayGuard.Postinst
import KlaayGuard.PostinstRestart
import KlaayGuard.TrayRefresh
import KlaayGuard.UpdateSchedule
import KlaayGuard.LaunchInstall
import KlaayGuard.SignInBinding
import KlaayGuard.SignInSecret
import KlaayGuard.BuildTargets
import KlaayGuard.MacPostinstall
import KlaayGuard.DmgRelaunch
import KlaayGuard.LinuxDesktops
import KlaayGuard.AutostartFile
import KlaayGuard.LinuxAutoUpdate
import KlaayGuard.Postrm
