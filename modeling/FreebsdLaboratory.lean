import FreebsdLaboratory.Properties.Stages
import FreebsdLaboratory.Properties.StorageOrder
import FreebsdLaboratory.Properties.Redaction
import FreebsdLaboratory.Properties.LiveBundles
import FreebsdLaboratory.Properties.AddressPool
import FreebsdLaboratory.Properties.Addresses
import FreebsdLaboratory.Properties.Authorization
import FreebsdLaboratory.Properties.Deadlock
import FreebsdLaboratory.Properties.LiveOwners
import FreebsdLaboratory.Properties.MemoryDisk
import FreebsdLaboratory.Properties.Ownership
import FreebsdLaboratory.Properties.PortRollback
import FreebsdLaboratory.Properties.PublicKeys
import FreebsdLaboratory.Properties.Readiness
import FreebsdLaboratory.Properties.RemoteConnection
import FreebsdLaboratory.Properties.Refusals
import FreebsdLaboratory.Properties.Responses
import FreebsdLaboratory.Properties.Teardown
import FreebsdLaboratory.Properties.Trust
import FreebsdLaboratory.Properties.TunnelPorts
import FreebsdLaboratory.Properties.PayloadOrder
import FreebsdLaboratory.Properties.PackageAudit
import FreebsdLaboratory.Model.ImageCollection
import FreebsdLaboratory.Properties.ImageCollection
import FreebsdLaboratory.Model.JailFiles
import FreebsdLaboratory.Properties.AuthorizedKey
import FreebsdLaboratory.Model.Telemetry
import FreebsdLaboratory.Properties.Telemetry
import FreebsdLaboratory.Properties.PacketFilter
import FreebsdLaboratory.Properties.KernelTelemetry
import FreebsdLaboratory.Properties.SentryDiagnostics
import FreebsdLaboratory.Properties.Benchmark
import FreebsdLaboratory.Properties.LeaseNames
import FreebsdLaboratory.Properties.NestedDestroy
import FreebsdLaboratory.Properties.Reconciliation
import FreebsdLaboratory.Properties.FailedLaunch
import FreebsdLaboratory.Properties.RemoteLaunch
import FreebsdLaboratory.Properties.Socket
import FreebsdLaboratory.Properties.BenchmarkRunner
import FreebsdLaboratory.Properties.BenchmarkReport
import FreebsdLaboratory.Properties.RegistryFiles
