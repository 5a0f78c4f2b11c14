import Retune.Bench.ClaimBook
import Retune.Bench.Rehearsal
import Retune.Bench.Session
import Retune.Bench.TimerScript
import Retune.Mapping
import Retune.StopSignals
import Retune.Proofs.Paths
import Retune.Proofs.Steps
import Retune.Proofs.Operations
import Retune.Proofs.Record
import Retune.Proofs.Projection
import Retune.Proofs.Rollbacks
import Retune.Proofs.Flags
import Retune.Proofs.Snapshots
import Retune.Proofs.Registers
import Retune.Proofs.BenchFile
import Retune.Proofs.Restore
import Retune.Proofs.Chains
import Retune.Proofs.Sync
import Retune.Proofs.Footprint
import Retune.Proofs.Timers
import Retune.Proofs.Status
import Retune.Proofs.Accesses
import Retune.Proofs.Attempts
import Retune.Proofs.BusPhy
import Retune.Proofs.BenchPhy
import Retune.Proofs.Responses
import Retune.Proofs.Walks
import Retune.Proofs.Outcomes
import Retune.Proofs.Guards
import Retune.Proofs.Fates
import Retune.Proofs.Openings
import Retune.Proofs.Bytes
import Retune.Proofs.SramWords
import Retune.Proofs.BenchMemory
import Retune.Proofs.FiringOrder
import Retune.Proofs.BusCaptures
import Retune.Proofs.DividerFields
import Retune.Proofs.LateStatus
import Retune.Proofs.C20Words
import Retune.Proofs.BusDividers
import Retune.Proofs.BusRollbacks
import Retune.Proofs.WalkCalls
import Retune.Proofs.WholeDoubles
import Retune.Proofs.C10Inverse
import Retune.Proofs.CheckedWords
import Retune.Proofs.C10Arithmetic
import Retune.Proofs.BusSteps
import Retune.Proofs.LaneBytes
import Retune.Proofs.C10Bytes
import Retune.Proofs.ExactNumbers
import Retune.Proofs.StepPlans
import Retune.Proofs.RatioGrids
import Retune.Proofs.Quantisation
import Retune.Proofs.MappedMemory
import Retune.Proofs.AdjustableOutputs
