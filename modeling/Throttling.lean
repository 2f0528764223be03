import Throttling.TokenBucket.Windows
import Throttling.TokenBucket.Idle
import Throttling.Registry.Index
import Throttling.Registry.Log
import Throttling.Server.FairShares
import Throttling.Server.LazyExpiry
import Throttling.Server.Commutation
import Throttling.Server.OneState
import Throttling.Server.Deadlock
import Throttling.Server.Uninterrupted
import Throttling.Server.Answers
import Throttling.Server.Progress
import Throttling.Server.CommandLine
import Throttling.Server.Exits
import Throttling.Client.Queue
import Throttling.Client.Handles
import Throttling.Client.Refinement
import Throttling.Client.Starvation
import Throttling.Client.Burst
import Throttling.Client.Relisting
import Throttling.Client.Quota
import Throttling.Client.Lifecycle
import Throttling.Client.HeadOfLine
import Throttling.Client.Overtaking
import Throttling.Client.Allocations
import Throttling.Client.Pending
import Throttling.Client.Discards
import Throttling.Client.Progress
import Throttling.Client.Draining
import Throttling.Deployment.Convergence
import Throttling.Deployment.Forgotten
import Throttling.Deployment.StaleAnswers
import Throttling.Deployment.SpecialLimits
import Throttling.Deployment.WakeUps
import Throttling.Deployment.Spending
import Throttling.Deployment.Leases
import Throttling.Deployment.Settling
