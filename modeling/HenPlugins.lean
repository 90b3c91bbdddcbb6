import HenPlugins.Lib.ByteText
import HenPlugins.Lib.SectionedDocument
import HenPlugins.Lib.FirstMatch
import HenPlugins.Ini.Text
import HenPlugins.Ini.Store
import HenPlugins.Ini.Load
import HenPlugins.Ini.Save
import HenPlugins.Ini.Loaded
import HenPlugins.Ini.CarriedLines
import HenPlugins.Ini.Rewrite
import HenPlugins.Ini.WrittenLines
import HenPlugins.Lib.WhileLoop
import HenPlugins.Loader.LoadPlugins
import HenPlugins.Ini.SetEntry
import HenPlugins.Loader.TitleScope
import HenPlugins.Settings.SwitchLine
import HenPlugins.Ini.SetAndReload
import HenPlugins.Settings.LocalSettings
import HenPlugins.Settings.SwitchedOn
import HenPlugins.Loader.Truthiness
import HenPlugins.Settings.SwitchedOff
import HenPlugins.Lib.EventRun
import HenPlugins.Mono.HookSetup
import HenPlugins.Mono.EventOrder
import HenPlugins.Memory.ChunkScan
import HenPlugins.Lib.ByteMemory
import HenPlugins.Memory.CodeCave
import HenPlugins.Memory.PrologueHooks
import HenPlugins.Memory.HookRun
import HenPlugins.Memory.RegionSearch
import HenPlugins.Memory.CaveBounds
import HenPlugins.Memory.DisplacedCode
import HenPlugins.Ini.OtherLines
import HenPlugins.Ini.CleanLines
import HenPlugins.Ini.CleanRoundTrip
import HenPlugins.Loader.LoadOrder
import HenPlugins.Lib.LabelledChain
import HenPlugins.Ini.StoreMap
import HenPlugins.Ini.CommentTrail
import HenPlugins.Ini.CommentLoss
import HenPlugins.Mono.PageTracking
import HenPlugins.Lib.PatchedText
import HenPlugins.Memory.FarHook
import HenPlugins.Memory.FarHookRun
import HenPlugins.Ftp.Upload
import HenPlugins.Ftp.FailedReceive
import HenPlugins.Lib.XmlText
import HenPlugins.Pkg.PkgPage
import HenPlugins.Pkg.PageTags
import HenPlugins.Lib.DirectoryTree
import HenPlugins.Pkg.ScanDir
import HenPlugins.Pkg.ScanExact
import HenPlugins.Lib.CallProgram
import HenPlugins.Lib.SharedDescriptors
import HenPlugins.Ftp.SessionCalls
import HenPlugins.Ftp.Commands
import HenPlugins.Ftp.FtpSessions
import HenPlugins.Ftp.OwnDescriptors
import HenPlugins.Ftp.SessionRecord
import HenPlugins.Ftp.RecordedCalls
import HenPlugins.Ftp.DataMode
import HenPlugins.Ftp.RestartOffset
import HenPlugins.Ftp.AnnouncedRename
import HenPlugins.Klog.FanOut
import HenPlugins.Pkg.TitleIds
import HenPlugins.Pkg.TruncationNotice
import HenPlugins.Lib.CellReads
import HenPlugins.Memory.ExactScan
import HenPlugins.Memory.LiteralBytes
import HenPlugins.Memory.ScanComplete
import HenPlugins.Memory.ScanReads
import HenPlugins.Memory.ChunkBounds
import HenPlugins.Memory.NearJump
import HenPlugins.Lib.Substitution
import HenPlugins.Memory.CodeInfo
import HenPlugins.Settings.StrReplace
import HenPlugins.Settings.ReplaceLine
import HenPlugins.Settings.SettingsRoot
import HenPlugins.Settings.ReadSetting
import HenPlugins.Ini.Indentation
import HenPlugins.Ini.CommentedOut
import HenPlugins.Ini.Deletion
import HenPlugins.Pkg.EscapedText
import HenPlugins.Ini.SetTwice
import HenPlugins.Ftp.PortEncoding
import HenPlugins.Lib.LexicalPath
import HenPlugins.Mono.PathFixups
import HenPlugins.Ftp.WorkingDirectory
import HenPlugins.Ftp.AbsolutePaths
import HenPlugins.Ftp.GoingUp
import HenPlugins.Ftp.ListPaths
import HenPlugins.Ftp.ReadLine
import HenPlugins.Lib.ByteCursor
import HenPlugins.Hde.Table
import HenPlugins.Hde.Disasm
import HenPlugins.Hde.Locality
import HenPlugins.Hde.Encoding
import HenPlugins.Hde.DisplacedPrologue
import HenPlugins.Ftp.Replies
import HenPlugins.Ftp.ClientLedger
import HenPlugins.Ftp.LedgerKept
import HenPlugins.Ini.TidyStore
import HenPlugins.Mono.SettingsRun
import HenPlugins.Loader.LoadedAsSet
import HenPlugins.Pkg.PkgBrowser
import HenPlugins.Pkg.BrowserPage
import HenPlugins.Lib.PatchLedger
import HenPlugins.Memory.TakeOver
import HenPlugins.Memory.PatchedProcess
import HenPlugins.Memory.ServedSteps
import HenPlugins.Memory.TakeOverSteps
import HenPlugins.Memory.TakenOver
import HenPlugins.Mono.Uploads
