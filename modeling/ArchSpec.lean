import ArchSpec.Main
import ArchSpec.Proofs.CheckedCalls
import ArchSpec.Proofs.CheckedRuns
import ArchSpec.Proofs.DeclarationOrder
import ArchSpec.Proofs.Settings
import ArchSpec.Proofs.StackDiscipline
import ArchSpec.Proofs.Residue
import ArchSpec.Proofs.Bound
import ArchSpec.Proofs.Bits.Refinement
import ArchSpec.Proofs.Targets.Assignment
import ArchSpec.Proofs.Targets.Evaluations
import ArchSpec.Proofs.WellFormed
import ArchSpec.Proofs.Json.Programs
import ArchSpec.Proofs.Reruns
import ArchSpec.Proofs.Traces.WriteFirst
import ArchSpec.Proofs.Storage.Activations
import ArchSpec.Proofs.Operands
import ArchSpec.Proofs.BlockLocals
import ArchSpec.Proofs.Bits.Integers
import ArchSpec.Proofs.Slicing.Integers
import ArchSpec.Proofs.Slicing.Widths
import ArchSpec.Proofs.Slicing.RoundTrips
import ArchSpec.Proofs.Bits.Modular
import ArchSpec.Proofs.Operators.Division
import ArchSpec.Proofs.Operators.Blame
import ArchSpec.Proofs.Endings
import ArchSpec.Proofs.Shadowing
import ArchSpec.Proofs.CountedLoops
import ArchSpec.Proofs.UnrollWarnings
import ArchSpec.Proofs.AcceptedPrograms
import ArchSpec.Proofs.EntryPoint
import ArchSpec.Proofs.Storage.ScopeStack
import ArchSpec.Proofs.UnassignedLocals
import ArchSpec.Proofs.Rethrowing
import ArchSpec.Proofs.Defaults
import ArchSpec.Proofs.OnlyExceptions
import ArchSpec.Proofs.Traces.Canonical
