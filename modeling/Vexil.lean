import Vexil.Proofs.Retry
import Vexil.Proofs.KillSwitch
import Vexil.Proofs.Convergence
import Vexil.Proofs.Injection
import Vexil.Proofs.WriteFrame
import Vexil.Proofs.StatusHonesty
import Vexil.Proofs.Mirror
import Vexil.Proofs.FlagSerial
import Vexil.Proofs.Rbac
import Vexil.Proofs.SessionAgreement
import Vexil.Proofs.CacheCoherence
import Vexil.Proofs.Subscribers
import Vexil.Proofs.StreamCodec
import Vexil.Proofs.Targeting
import Vexil.Proofs.Interference
import Vexil.Proofs.SessionLife
import Vexil.Proofs.Lockout
import Vexil.Proofs.ScanLocality
import Vexil.Proofs.ScanSecrecy
import Vexil.Proofs.NameCodec
import Vexil.Proofs.SameValue
import Vexil.Proofs.TypedGetters
import Vexil.Proofs.AuditTrail
import Vexil.Proofs.AuditStores
import Vexil.Proofs.AccountStores
import Vexil.Proofs.CleanReturn
import Vexil.Proofs.EffectiveValue
import Vexil.Proofs.EnvNames
import Vexil.Proofs.Settling
import Vexil.Proofs.UserUpdates
import Vexil.Proofs.CacheOrder
import Vexil.Proofs.ShownConfigMaps
import Vexil.Proofs.MatchingFlags
import Vexil.Proofs.Toggles
import Vexil.Proofs.SelectorText
import Vexil.Proofs.SavedForms
import Vexil.Proofs.ResourcePaths
import Vexil.Proofs.LabelText
import Vexil.Proofs.ProxyOutcomes
import Vexil.Proofs.ListAndLookup
import Vexil.Proofs.ConfigFiles
import Vexil.Proofs.Backends
import Vexil.Proofs.SidecarApi
import Vexil.Proofs.CurrentReads
import Vexil.Proofs.Confinement
import Vexil.Proofs.MountedValues
import Vexil.Proofs.LastWriter
import Vexil.Proofs.QueryCalls
import Vexil.Proofs.ConsoleIdentity
import Vexil.Proofs.ConsoleControls
