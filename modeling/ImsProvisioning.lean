import ImsProvisioning.Constant.Calling
import ImsProvisioning.Constant.Feature
import ImsProvisioning.Constant.Item
import ImsProvisioning.Options
import ImsProvisioning.Client.Operation
import ImsProvisioning.Channel.Client
import ImsProvisioning.Snapshot.Editor
import ImsProvisioning.Store
import ImsProvisioning.Session.Run
import ImsProvisioning.Proofs.Traffic.Fate
import ImsProvisioning.Proofs.Transport.Transparency
import ImsProvisioning.Proofs.Snapshot.RoundTrip
import ImsProvisioning.Proofs.Client.Facade
import ImsProvisioning.Proofs.Traffic.Progress
import ImsProvisioning.Proofs.Traffic.Isolation
import ImsProvisioning.Proofs.Json.Nesting
import ImsProvisioning.Proofs.Snapshot.Streaming
import ImsProvisioning.Proofs.Snapshot.Strategies
import ImsProvisioning.Proofs.History.LastWrite
import ImsProvisioning.Proofs.Text.ByteOrder
import ImsProvisioning.Proofs.Snapshot.Acceptance
import ImsProvisioning.Proofs.Snapshot.Identity
import ImsProvisioning.Proofs.History.Writes
import ImsProvisioning.Proofs.Transport.Agreement
import ImsProvisioning.Proofs.History.ReadAfterWrite
import ImsProvisioning.Proofs.Traffic.Lapse
import ImsProvisioning.Proofs.Transport.Exchange
import ImsProvisioning.Proofs.Transport.Sweep
import ImsProvisioning.Proofs.History.Storage
import ImsProvisioning.Proofs.History.Untorn
import ImsProvisioning.Proofs.Transport.Refusal
import ImsProvisioning.Proofs.Transport.Rejection
import ImsProvisioning.Proofs.Traffic.Occurrence
import ImsProvisioning.Proofs.Transport.Disconnection
import ImsProvisioning.Proofs.Traffic.HostLog
import ImsProvisioning.Proofs.Session.Logging
import ImsProvisioning.Proofs.Client.CallLog
import ImsProvisioning.Proofs.Client.Environment
import ImsProvisioning.Proofs.Snapshot.FirstOffence
import ImsProvisioning.Proofs.History.CallingMode
import ImsProvisioning.Proofs.Constant.Lookup
import ImsProvisioning.Proofs.Client.Messages
