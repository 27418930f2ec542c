import BoxDescent.Input.Linear
import BoxDescent.Input.Release
import BoxDescent.Input.Search
import BoxDescent.Input.Run
import BoxDescent.Input.Check
import BoxDescent.Report.Trace
import BoxDescent.Proofs.Solver.Budget
import BoxDescent.Proofs.Exact.Secant
import BoxDescent.Proofs.Exact.Direction
import BoxDescent.Proofs.Exact.Solver
import BoxDescent.Proofs.Exact.Singular
import BoxDescent.Proofs.Exact.Monotone
import BoxDescent.Proofs.Exact.Accepted
import BoxDescent.Proofs.Exact.NonFinite
import BoxDescent.Proofs.Exact.Undefined
import BoxDescent.Proofs.Exact.Restart
import BoxDescent.Proofs.Exact.Optimality
import BoxDescent.Proofs.Exact.Selection
import BoxDescent.Proofs.Exact.Safety
import BoxDescent.Proofs.Reflection.Solver
import BoxDescent.Proofs.Reflection.ActiveSet
import BoxDescent.Proofs.Reflection.Problem
import BoxDescent.Proofs.Exact.Update
import BoxDescent.Proofs.Compact
import BoxDescent.Proofs.Exact.Inverse
import BoxDescent.Proofs.Exact.Compact
import BoxDescent.Proofs.Input.Search
import BoxDescent.Proofs.Exact.Inward
import BoxDescent.Proofs.Exact.Lingering
import BoxDescent.Proofs.Exact.Rosenbrock
import BoxDescent.Proofs.Exact.Difference
import BoxDescent.Proofs.Exact.Expansion
import BoxDescent.Proofs.Exact.Reset
import BoxDescent.Proofs.Solver.Extension
import BoxDescent.Proofs.Input.Check
