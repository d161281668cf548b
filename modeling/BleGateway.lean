import BleGateway.Scheduler.LeaseExclusion
import BleGateway.Scheduler.Completion
import BleGateway.Scheduler.Fifo
import BleGateway.StateSeed.Liveness
import BleGateway.DeviceStore.CrashAtomicity
import BleGateway.DeviceStore.Uniqueness
import BleGateway.DeviceStore.Agreement
import BleGateway.Settings.Reconcile
import BleGateway.DeviceState.Isolation
import BleGateway.Management.Controllable
import BleGateway.CommandService.TargetedCancel
import BleGateway.CommandService.Wakeup
import BleGateway.CommandService.Completion
import BleGateway.DeviceSchema.Accounting
import BleGateway.DeviceSchema.WellFormed
import BleGateway.BleCentral.LifeCycle
import BleGateway.BleCentral.Attempts
import BleGateway.BleCentral.Contexts
import BleGateway.BleCentral.Removal
import BleGateway.CborCodec.JsonRoundTrip
import BleGateway.Mcp.FailClosed
import BleGateway.McpExposure.Stable
import BleGateway.McpExposure.Revocation
import BleGateway.McpExposure.Review
import BleGateway.McpExposure.Agreement
import BleGateway.McpExposure.Idempotent
import BleGateway.McpExposure.Binding
import BleGateway.GatewayEvents.Order
import BleGateway.EventStream.Delivery
import BleGateway.EventStream.Decoded
import BleGateway.BoardIo.Worker
import BleGateway.BoardIo.Priority
import BleGateway.McpWs.Arrival
import BleGateway.McpWs.Negotiation
import BleGateway.McpWs.Reboot
import BleGateway.WifiProv.Verified
import BleGateway.WifiProv.Connected
import BleGateway.WebServer.Faithful
import BleGateway.Scheduler.Entries
import BleGateway.Scheduler.Atomicity
import BleGateway.Dashboard.Contiguity
import BleGateway.Settings.Wire
import BleGateway.Settings.Status
import BleGateway.Settings.Cancelled
import BleGateway.Settings.CommandOrder
import BleGateway.WifiProv.DnsReply
import BleGateway.WifiProv.DnsExclusive
import BleGateway.BleCentral.NotifyOrder
import BleGateway.BleCentral.LatestIdentity
import BleGateway.BleCentral.Backoff
import BleGateway.DeviceSchema.Command
import BleGateway.Settings.OptionSpans
import BleGateway.Settings.Prevalidation
import BleGateway.Settings.Disconnect
import BleGateway.Settings.Expected
import BleGateway.Settings.PoolBuffer
import BleGateway.DeviceSchema.Persist
import BleGateway.Scheduler.Dedupe
import BleGateway.Scheduler.Bypass
import BleGateway.Scheduler.DispatchIdentity
import BleGateway.DeviceSchema.Reported
import BleGateway.DeviceSchema.Bridge
import BleGateway.BoardIo.Presses
import BleGateway.BoardIo.Deadline
import BleGateway.CborCodec.AddressTexts
import BleGateway.Mcp.Name
import BleGateway.Mcp.RateLimit
import BleGateway.Mcp.HostOrigin
import BleGateway.CborCodec.SettingsView
import BleGateway.Scheduler.Idle
import BleGateway.Management.Removed
import BleGateway.CommandService.Contract
