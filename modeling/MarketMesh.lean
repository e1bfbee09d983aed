import MarketMesh.Tunnel.Agreement
import MarketMesh.GatewayIn.Occupancy
import MarketMesh.Tunnel.Contiguity
import MarketMesh.Tunnel.Tombstones
import MarketMesh.Tunnel.Admission
import MarketMesh.Tunnel.Obligations
import MarketMesh.Auth.Ending
import MarketMesh.Auth.KeyContinuity
import MarketMesh.Auth.MailFence
import MarketMesh.Files.Cleanup
import MarketMesh.Files.Creation
import MarketMesh.Files.Evidence
import MarketMesh.Registration.Once
import MarketMesh.GatewayIn.Churn
import MarketMesh.Runtime.Runner
import MarketMesh.User.AddressRuns
import MarketMesh.User.Retirement
import MarketMesh.GatewayIn.Framing
import MarketMesh.Files.Archive
import MarketMesh.Auth.AccessStore
import MarketMesh.GatewayIn.Scheduler
import MarketMesh.Tunnel.Execution
