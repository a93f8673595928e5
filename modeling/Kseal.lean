import Kseal.Vm.RegisterUse
import Kseal.Vm.Production
import Kseal.Vm.Symbolicate
import Kseal.Vm.TagMix
import Kseal.Ingest.KafkaBroker
import Kseal.Ingest.Writer
import Kseal.Ingest.RecordFormat
import Kseal.Ingest.ClickHouse
import Kseal.Ingest.Retention
import Kseal.Gradle.FlattenCorrect
import Kseal.Gradle.StringTable
import Kseal.Gradle.Mba
import Kseal.Gradle.BuildProof
import Kseal.Gradle.KeepRules
import Kseal.Gradle.ElfInspector
import Kseal.Xcode.StringHardener
import Kseal.Ingest.Telemetry
import Kseal.Server.AuditList
import Kseal.Server.SealingBounds
import Kseal.Server.KillSwitchScopes
import Kseal.Server.Promotion
import Kseal.Server.CanaryController
import Kseal.Server.GuardrailWindows
import Kseal.Server.AntiReplay
import Kseal.Server.Nonce
import Kseal.Server.RateLimit
import Kseal.Server.SafeHttp
import Kseal.Server.WebhookStop
import Kseal.Server.Siem
import Kseal.Server.SiemBreaker
import Kseal.Server.FleetWindows
import Kseal.Server.FleetSnapshot
import Kseal.Device.DesktopProof
import Kseal.Device.HardwareKey
import Kseal.Device.ModuleAllowlist
import Kseal.Device.PeImage
import Kseal.Device.UpdateChannel
import Kseal.Device.Core
import Kseal.Device.Whitebox
import Kseal.Contract.Evaluation
import Kseal.Contract.Monotone
import Kseal.Contract.Envelope
import Kseal.Contract.RequestProof
import Kseal.Contract.Rollout
import Kseal.Contract.KillSwitch
import Kseal.Contract.KillSwitchReplay
import Kseal.Contract.CanaryHealth
import Kseal.Contract.Preimage
import Kseal.Cli.EventsTail
import Kseal.Contract.Simulation
import Kseal.Contract.PackDecision
import Kseal.Contract.FleetHealth
