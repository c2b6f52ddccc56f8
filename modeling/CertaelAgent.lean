import CertaelAgent.Foundation.FileDevice
import CertaelAgent.Runtime.ReportChain
import CertaelAgent.Foundation.JsonText
import CertaelAgent.Foundation.FilePrograms
import CertaelAgent.Updater.Activation
import CertaelAgent.Updater.Operations
import CertaelAgent.Updater.Reading
import CertaelAgent.Updater.Writing
import CertaelAgent.Updater.Recovery
import CertaelAgent.Updater.Tampering
import CertaelAgent.Updater.HealthyStart
import CertaelAgent.Foundation.SlotMachine
import CertaelAgent.Updater.Invariant
import CertaelAgent.Updater.Steps
import CertaelAgent.Updater.Installation
import CertaelAgent.Updater.Undisturbed
import CertaelAgent.Updater.Reachability
import CertaelAgent.Updater.RollingBack
import CertaelAgent.Updater.Relaunch
import CertaelAgent.Foundation.ByteStream
import CertaelAgent.Ipc.Framing
import CertaelAgent.Protocol.Registration
import CertaelAgent.Protocol.Compatibility
import CertaelAgent.Protocol.ShortLived
import CertaelAgent.Platform.BuildManifest
import CertaelAgent.Platform.SafePaths
import CertaelAgent.Agent.RegisteredFiles
import CertaelAgent.Foundation.FileTrees
import CertaelAgent.Agent.RegisteredExecutables
import CertaelAgent.Agent.LaunchStatus
import CertaelAgent.Protocol.Authenticity
import CertaelAgent.Agent.RegularFiles
import CertaelAgent.Agent.Branding
import CertaelAgent.Agent.Registry
import CertaelAgent.Agent.Staging
import CertaelAgent.Agent.Activation
import CertaelAgent.Foundation.Canonical
import CertaelAgent.Protocol.CanonicalDecoding
import CertaelAgent.Session.AgentSession
import CertaelAgent.Session.Chaining
import CertaelAgent.Session.OneTime
import CertaelAgent.Session.ReportSignature
import CertaelAgent.Protocol.CompatibilityDecision
import CertaelAgent.Probe.Channel
import CertaelAgent.Probe.Delivery
import CertaelAgent.Probe.Threads
import CertaelAgent.Updater.ErrorAtomicity
import CertaelAgent.Foundation.Interference
import CertaelAgent.Foundation.Pieces
import CertaelAgent.Updater.PlacedTarget
import CertaelAgent.Updater.RecordedTarget
import CertaelAgent.Updater.StagedTarget
import CertaelAgent.Foundation.Avoidance
import CertaelAgent.Foundation.Deletion
import CertaelAgent.Agent.FailedCalls
import CertaelAgent.Foundation.EncodedSize
import CertaelAgent.Protocol.ReportSize
import CertaelAgent.Session.Transmission
import CertaelAgent.Foundation.Utf16
import CertaelAgent.Platform.LoadedModules
import CertaelAgent.Runtime.EvidenceSize
import CertaelAgent.Session.Binding
import CertaelAgent.Agent.RepairLookup
import CertaelAgent.Platform.Joining
import CertaelAgent.Runtime.AdmittedManifest
import CertaelAgent.Platform.BuildCheck
import CertaelAgent.Ipc.Boundaries
import CertaelAgent.Runtime.Closing
import CertaelAgent.Probe.Alignment
import CertaelAgent.Foundation.CommandLine
import CertaelAgent.Agent.WindowsCommandLine
import CertaelAgent.Foundation.EntryBlock
import CertaelAgent.Agent.WindowsEnvironment
import CertaelAgent.Agent.Isolation
import CertaelAgent.Agent.Interruption
import CertaelAgent.Agent.Registering
import CertaelAgent.Agent.RegistryReads
import CertaelAgent.Agent.Reloading
import CertaelAgent.Protocol.ProtectedFiles
import CertaelAgent.Foundation.Words
import CertaelAgent.Foundation.Utf8
import CertaelAgent.Platform.ProcessStat
import CertaelAgent.Platform.MemoryMaps
import CertaelAgent.Foundation.Monitor
import CertaelAgent.Agent.LaunchProgress
import CertaelAgent.Agent.Splash
import CertaelAgent.Agent.RegistryRuns
import CertaelAgent.Runtime.Link
import CertaelAgent.Runtime.Agreement
import CertaelAgent.Runtime.Cadence
import CertaelAgent.Agent.Handoff
import CertaelAgent.Foundation.Parallel
import CertaelAgent.Agent.StatusText
import CertaelAgent.Agent.StatusFile
