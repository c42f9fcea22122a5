import TrivialInit.System
import TrivialInit.Properties.Addressability
import TrivialInit.Properties.Connections
import TrivialInit.Properties.DependencyOrder
import TrivialInit.Properties.DescriptorPassing
import TrivialInit.Properties.RestartLimits
import TrivialInit.Properties.StopRestart
import TrivialInit.Properties.Supervision
import TrivialInit.Properties.UnitRoundTrip
import TrivialInit.Properties.ListDirectives
import TrivialInit.Properties.ListenOrder
import TrivialInit.Properties.EnvironmentLines
import TrivialInit.Properties.BeforeOrder
import TrivialInit.Properties.Privileges
import TrivialInit.Properties.BoundDescriptors
import TrivialInit.Properties.ExitAccounting
import TrivialInit.Properties.SocketConsumers
import TrivialInit.Properties.ShutdownOrder
import TrivialInit.Properties.SingleDirectives
import TrivialInit.Properties.UnitDiscovery
import TrivialInit.Properties.RuntimeOwnership
import TrivialInit.Properties.CommandLines
import TrivialInit.Properties.CommandShape
import TrivialInit.Properties.StartPre
import TrivialInit.Properties.ConditionVerdicts
import TrivialInit.Properties.Continuation
import TrivialInit.Properties.UnitNames
import TrivialInit.Properties.EnvironmentText
import TrivialInit.Properties.UserLookup
import TrivialInit.Properties.NumericUsers
import TrivialInit.Properties.BindFilter
import TrivialInit.Properties.UnixNames
import TrivialInit.Properties.InetEndpoints
import TrivialInit.Properties.SocketPairs
import TrivialInit.Properties.WrittenCommands
import TrivialInit.Properties.MountOptions
import TrivialInit.Properties.SocketModes
import TrivialInit.Properties.DescriptorIsolation
import TrivialInit.Properties.ShutdownProgress
import TrivialInit.Properties.ShutdownRequest
import TrivialInit.Properties.SignalTargets
import TrivialInit.Properties.StartOrder
import TrivialInit.Properties.CallCongruence
import TrivialInit.Properties.Refinement
import TrivialInit.Properties.ProgramStates
import TrivialInit.Properties.Configuration
import TrivialInit.Properties.ChildEnvironment
import TrivialInit.Properties.StartedPrograms
import TrivialInit.Properties.MountCalls
import TrivialInit.Properties.StatusDisplay
import TrivialInit.Properties.EarlyMounts
