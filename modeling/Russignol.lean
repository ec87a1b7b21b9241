import Russignol.Base.Bytes
import Russignol.Base.Automaton
import Russignol.Base.FloorRegister
import Russignol.Base.CrashProgram
import Russignol.Base.FileStore
import Russignol.Base.Reader
import Russignol.Base.ByteSink
import Russignol.Base.Json
import Russignol.Base.EarlyExit
import Russignol.Crypto.Blob
import Russignol.Storage.Watermark
import Russignol.Signer.Identity
import Russignol.Signer.ChainCodec
import Russignol.Signer.MagicBytes
import Russignol.Signer.HighWatermark
import Russignol.Signer.Server
import Russignol.Signer.Slots
import Russignol.Signer.SeedFloor
import Russignol.Signer.SignEffect
import Russignol.Signer.Device
import Russignol.Signer.TestUtils
import Russignol.Signer.NoDoubleSign
import Russignol.Signer.Ceilings
import Russignol.Signer.Gate
import Russignol.Signer.BlockHeader
import Russignol.Signer.FloorMarks
import Russignol.Signer.TornRecord
import Russignol.Signer.FailedSigning
import Russignol.Signer.ListKeys
import Russignol.Signer.Binding
import Russignol.Signer.Protocol
import Russignol.Signer.ProtocolCodec
import Russignol.Rpi.TezosEncrypt
import Russignol.Rpi.KeyCustody
import Russignol.Rpi.UnlockAvailability
import Russignol.Rpi.RetryBudget
import Russignol.Rpi.App
import Russignol.Rpi.Console
import Russignol.Rpi.Recovery
import Russignol.Rpi.PinLockout
import Russignol.Rpi.FirstBoot
import Russignol.Rpi.SetupOnce
import Russignol.Rpi.WatermarkSetup
import Russignol.Rpi.InitScript
import Russignol.Rpi.Privileges
import Russignol.Rpi.Durability
import Russignol.Rpi.EventLoop
import Russignol.Rpi.UnknownKeys
import Russignol.Rpi.Activity
import Russignol.Rpi.LogWriter
import Russignol.Rpi.StagedFloor
import Russignol.Rpi.LargeGap
import Russignol.Host.WatermarkConfig
import Russignol.Host.CheckDisk
import Russignol.Host.GatherCard
import Russignol.Host.FloorAgreement
import Russignol.Host.HealthyCard
import Russignol.Host.SupersededConfig
import Russignol.Host.Wallet
import Russignol.Host.RotateKeys
import Russignol.Host.RotationFlow
import Russignol.Host.AliasPromotion
import Russignol.Host.KeyRegistration
import Russignol.Host.MigrateKeys
import Russignol.Host.MigratedRoles
import Russignol.Host.CardCopy
import Russignol.Host.RestoredCard
import Russignol.Host.Flash
import Russignol.Host.SingleReader
import Russignol.Host.FlashedCard
import Russignol.Storage.PartitionLayout
import Russignol.Crypto.BlobLayouts
import Russignol.Host.CardNode
import Russignol.Host.RootfsHash
import Russignol.Host.ReadBack
import Russignol.Host.SwapWindow
import Russignol.Base.Moves
import Russignol.Host.RenameAlias
import Russignol.Host.PromotionRollback
import Russignol.Host.ApplyRepairs
import Russignol.Host.RepairExecutor
import Russignol.Host.RepairRounds
import Russignol.Host.RepairsConverge
import Russignol.Rpi.SecretKeys
import Russignol.Base.InFlight
import Russignol.EPaper.DisplayDriver
import Russignol.EPaper.Supersede
import Russignol.EPaper.Display
import Russignol.Base.RingBuffer
import Russignol.Rpi.RecentSignatures
import Russignol.Base.CharBoundary
import Russignol.Rpi.ImageInfo
import Russignol.Base.ShellWords
import Russignol.Base.CommandLine
import Russignol.Host.SgReexec
import Russignol.Base.Monitor
import Russignol.Rpi.LoopActions
import Russignol.Rpi.Screensaver
import Russignol.Rpi.SleepingPanel
import Russignol.Rpi.RenderNotes
import Russignol.Rpi.DeferredRender
import Russignol.Rpi.PromptFrame
import Russignol.Base.Framing
import Russignol.Signer.SocketServer
import Russignol.Signer.WireSafety
import Russignol.Signer.Conversations
import Russignol.Rpi.ConnectionLights
import Russignol.Base.TextCodec
import Russignol.Base.FileRules
import Russignol.Host.Releases
import Russignol.Host.SelfUpgrade
import Russignol.Host.ReleaseTrust
import Russignol.Xtask.PublishRelease
import Russignol.Rpi.RootfsCheck
import Russignol.Rpi.PinPages
import Russignol.Host.KeySetup
import Russignol.Storage.SetupStorage
