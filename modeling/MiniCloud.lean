import MiniCloud.Proof.AbiLimits
import MiniCloud.Proof.ArtifactRoot
import MiniCloud.Proof.Coverage
import MiniCloud.Proof.GateState
import MiniCloud.Proof.Gateway
import MiniCloud.Proof.GatewayHttp
import MiniCloud.Proof.GuestOutput
import MiniCloud.Proof.LedgerRetention
import MiniCloud.Proof.Lifecycle
import MiniCloud.Proof.LocalServing
import MiniCloud.Proof.ManagementVersion
import MiniCloud.Proof.PlannerJournal
import MiniCloud.Proof.RegistryDrain
import MiniCloud.Proof.RegistryRevision
import MiniCloud.Proof.StoreFresh
import MiniCloud.Proof.Suppression
import MiniCloud.Proof.UpdatedAt
import MiniCloud.Proof.ValidatorFrame
import MiniCloud.Proof.ValidatorRequest
import MiniCloud.Proof.WasmBinary
