import InteriorPoint.Backend.Direct
import InteriorPoint.Backend.Engine
import InteriorPoint.Backend.Lifecycle
import InteriorPoint.Backend.Monitored
import InteriorPoint.Backend.Workbench
import InteriorPoint.Certificate.Basic
import InteriorPoint.Certificate.Parts
import InteriorPoint.Certificate.Doubles
import InteriorPoint.CommandLine.Help
import InteriorPoint.CommandLine.Request
import InteriorPoint.CommandLine.Run
import InteriorPoint.CommandLine.Switch
import InteriorPoint.Decimal.Binary
import InteriorPoint.Decimal.Literal
import InteriorPoint.Decimal.Rounding
import InteriorPoint.Decimal.Scientific
import InteriorPoint.Decimal.Shortest
import InteriorPoint.File.Contents
import InteriorPoint.File.Path
import InteriorPoint.File.Tree
import InteriorPoint.Linear.Arrays
import InteriorPoint.Linear.Columns
import InteriorPoint.Linear.Definite
import InteriorPoint.Linear.Elimination
import InteriorPoint.Linear.Entry
import InteriorPoint.Linear.Kernel
import InteriorPoint.Linear.Loose
import InteriorPoint.Linear.Stored
import InteriorPoint.Linear.Tensor
import InteriorPoint.Linear.Triplet
import InteriorPoint.Linear.Vector
import InteriorPoint.Main
import InteriorPoint.Method.Construction
import InteriorPoint.Method.Jacobian
import InteriorPoint.Method.Program
import InteriorPoint.Method.Ratio
import InteriorPoint.Method.Residual
import InteriorPoint.Method.Solve
import InteriorPoint.Method.Start
import InteriorPoint.Method.State
import InteriorPoint.Method.View
import InteriorPoint.Problem.Archive
import InteriorPoint.Problem.Basic
import InteriorPoint.Problem.Catalogue
import InteriorPoint.Problem.Listing
import InteriorPoint.Problem.Random
import InteriorPoint.Random.Stream
import InteriorPoint.Report.Document
import InteriorPoint.Report.Figure
import InteriorPoint.Report.Kind
import InteriorPoint.Report.Table
import InteriorPoint.Rounded.Basic
import InteriorPoint.Rounded.Double
import InteriorPoint.Rounded.Sum
import InteriorPoint.Scalar
import InteriorPoint.Setting.Config
import InteriorPoint.Setting.Conversion
import InteriorPoint.Setting.Value
import InteriorPoint.Text.Character
import InteriorPoint.Text.LowerCase
import InteriorPoint.Text.Printable
import InteriorPoint.Text.Quoted
import InteriorPoint.Proofs.OrderedScalar
import InteriorPoint.Proofs.VectorSums
import InteriorPoint.Proofs.EntryMatrix
import InteriorPoint.Proofs.Jacobian
import InteriorPoint.Proofs.RatioTest
import InteriorPoint.Proofs.Step
import InteriorPoint.Proofs.Factoring
import InteriorPoint.Proofs.Passes
import InteriorPoint.Proofs.StartingPoint
import InteriorPoint.Proofs.Interior
import InteriorPoint.Proofs.NearOptimality
import InteriorPoint.Proofs.ExactElimination
import InteriorPoint.Proofs.Nonsingular
import InteriorPoint.Proofs.Trajectory
import InteriorPoint.Proofs.Contraction
import InteriorPoint.Proofs.NoBreakdown
import InteriorPoint.Proofs.Protocol
import InteriorPoint.Proofs.Restart
import InteriorPoint.Proofs.FitStart
import InteriorPoint.Proofs.Comparison
import InteriorPoint.Proofs.StoppingTest
import InteriorPoint.Proofs.DoubleValue
import InteriorPoint.Proofs.DoubleRounding
import InteriorPoint.Proofs.DoubleSigns
import InteriorPoint.Proofs.CertificateSoundness
import InteriorPoint.Proofs.AbstractMachine
import InteriorPoint.Proofs.DirectSolution
import InteriorPoint.Proofs.EngineCalls
import InteriorPoint.Proofs.ExactSessions
import InteriorPoint.Proofs.Sessions
import InteriorPoint.Proofs.Release
import InteriorPoint.Proofs.Denotation
import InteriorPoint.Proofs.SameMatrix
import InteriorPoint.Proofs.BoundedAssembly
import InteriorPoint.Proofs.Overflow
import InteriorPoint.Proofs.BalanceDivisors
import InteriorPoint.Proofs.CommandExits
import InteriorPoint.Proofs.ExactSteps
import InteriorPoint.Proofs.DualityMeasure
import InteriorPoint.Proofs.ExactPasses
import InteriorPoint.Proofs.Relabelling
import InteriorPoint.Proofs.IndependentRows
import InteriorPoint.Proofs.Reformulation
import InteriorPoint.Proofs.ReformulatedSteps
import InteriorPoint.Proofs.Homogeneity
import InteriorPoint.Proofs.ReformulatedRuns
import InteriorPoint.Proofs.SafeStart
import InteriorPoint.Proofs.GapIdentity
import InteriorPoint.Proofs.FailedSteps
import InteriorPoint.Proofs.CanonicalForm
import InteriorPoint.Proofs.CertificateAgreement
import InteriorPoint.Proofs.SparseProducts
import InteriorPoint.Proofs.DefiniteSystems
import InteriorPoint.Proofs.RandomPrograms
import InteriorPoint.Proofs.PathTexts
import InteriorPoint.Proofs.FileTrees
import InteriorPoint.Proofs.SavedProblems
import InteriorPoint.Proofs.WholeDoubles
import InteriorPoint.Proofs.SettingValidation
