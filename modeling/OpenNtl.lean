import OpenNtl.AtomicProgram
import OpenNtl.Scalar
import OpenNtl.Collections
import OpenNtl.Rng
import OpenNtl.Signal
import OpenNtl.Records
import OpenNtl.Learning
import OpenNtl.Synapse
import OpenNtl.Propagation
import OpenNtl.Activation
import OpenNtl.MemoryStore
import OpenNtl.Node
import OpenNtl.NodeFrame
import OpenNtl.NodeRun
import OpenNtl.Receive
import OpenNtl.AcknowledgedDelivery
import OpenNtl.Settle
import OpenNtl.FailureAtomicity
import OpenNtl.TeachingOnce
import OpenNtl.Runtime
import OpenNtl.Planning
import OpenNtl.PredictableIds
import OpenNtl.ReleaseTiming
import OpenNtl.BodyCache
import OpenNtl.BodyMirror
import OpenNtl.Decay
import OpenNtl.Lockstep
import OpenNtl.EagerLockstep
import OpenNtl.EagerDecay
import OpenNtl.ActivationRun
import OpenNtl.ArrivalFates
import OpenNtl.JournalHistory
import OpenNtl.ReceiptAuthority
import OpenNtl.LateReceipts
import OpenNtl.SqlTable
import OpenNtl.SqliteStore
import OpenNtl.SeenBackends
import OpenNtl.JournalBackends
import OpenNtl.SynapseWrites
import OpenNtl.TableChange
import OpenNtl.Cooldown
import OpenNtl.SignatureWindow
import OpenNtl.NoAmnesty
import OpenNtl.Attribution
import OpenNtl.SlidingBudget
import OpenNtl.SplitMix
import OpenNtl.Settlements
import OpenNtl.InfluenceCap
import OpenNtl.SessionTable
import OpenNtl.Config
import OpenNtl.WeightBounds
import OpenNtl.WeightStates
import OpenNtl.OutboundBudget
import OpenNtl.UnsentForwards
import OpenNtl.SynapseBackends
import OpenNtl.OneSynapse
import OpenNtl.SynapseUniqueness
import OpenNtl.Descent
import OpenNtl.Copies
import OpenNtl.Network
import OpenNtl.CopyMoves
import OpenNtl.RuntimeCopies
import OpenNtl.NetworkCopies
import OpenNtl.DyingOut
import OpenNtl.FloodRings
import OpenNtl.HopBudget
import OpenNtl.BudgetFrame
import OpenNtl.LearningSwitch
import OpenNtl.TableLimit
import OpenNtl.Provenance
import OpenNtl.WeightFloor
import OpenNtl.SignedBody
import OpenNtl.FrameStream
import OpenNtl.SqlExecutor
import OpenNtl.ReadOnlyTransaction
import OpenNtl.Migration
import OpenNtl.MigrationRun
import OpenNtl.ActivationRestore
import OpenNtl.Sampling
import OpenNtl.Selection
import OpenNtl.LocalHandling
import OpenNtl.RefractorySpacing
import OpenNtl.ReturnPath
import OpenNtl.DecayedRouting
import OpenNtl.Handshake
import OpenNtl.HandshakeAgreement
import OpenNtl.HandshakeHistory
import OpenNtl.HandshakeWeight
import OpenNtl.ExplorationFlag
import OpenNtl.Ranking
import OpenNtl.LatencyGuard
import OpenNtl.ThresholdReach
import OpenNtl.Counters
import OpenNtl.Affinity
import OpenNtl.AffinityCounts
import OpenNtl.SignalKeys
import OpenNtl.ReportedUpdate
import OpenNtl.Attenuation
import OpenNtl.Retry
import OpenNtl.FrameTruncation
import OpenNtl.SchemaSubstitution
import OpenNtl.SweepBackends
import OpenNtl.SweepJournal
import OpenNtl.Sweep
import OpenNtl.UniformDraws
import OpenNtl.StreamReader
import OpenNtl.Drawing
import OpenNtl.CheckedSampling
import OpenNtl.WithoutReplacement
import OpenNtl.SelectionDraws
import OpenNtl.WordMixing
import OpenNtl.SqliteUpgrade
import OpenNtl.SqliteMigrationRace
import OpenNtl.TableBackends
import OpenNtl.VouchedTraffic
import OpenNtl.TruthfulReceipts
import OpenNtl.HandedOnce
