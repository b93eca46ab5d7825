import Autoland.Console.Run
import Autoland.Engine.Flight
import Autoland.Flight.Command
import Autoland.Formula.Compiler
import Autoland.Grid.Layout
import Autoland.Learning.Policy
import Autoland.Learning.Update
import Autoland.Main
import Autoland.Number.Exact
import Autoland.Problem.DocumentFile
import Autoland.Proofs.CandidateIndices
import Autoland.Proofs.EngineInvariant
import Autoland.Proofs.Finalization
import Autoland.Proofs.MixedRadix
import Autoland.Proofs.TableRefinement
import Autoland.Record.Coupled
import Autoland.Replay.Tables
import Autoland.Replay.Training
import Autoland.Table.Batch
import Autoland.Table.File
import Autoland.Proofs.Decisions
import Autoland.Proofs.FlightSteps
import Autoland.Proofs.FlightRuns
import Autoland.Proofs.TableSize
import Autoland.Proofs.FieldGrids
import Autoland.Proofs.ChildCycles
import Autoland.Proofs.WorkLoop
import Autoland.Proofs.WrittenFormulas
import Autoland.Proofs.TableCopies
import Autoland.Proofs.FlightReturns
import Autoland.Proofs.MirrorSymmetry
import Autoland.Proofs.DecimalTexts
import Autoland.Proofs.JsonTexts
import Autoland.Proofs.CalendarDates
import Autoland.Proofs.WrittenTimes
import Autoland.Proofs.StoredValues
import Autoland.Proofs.StoredImages
import Autoland.Proofs.StepInvariants
import Autoland.Proofs.RunMoves
import Autoland.Proofs.EngineEntries
import Autoland.Proofs.EngineLearning
import Autoland.Proofs.FlightLessons
import Autoland.Proofs.LearningOrder
import Autoland.Proofs.StepLessons
import Autoland.Proofs.CoupledTree
import Autoland.Proofs.DenseForms
import Autoland.Proofs.DenseTables
import Autoland.Proofs.DenseRuns
import Autoland.Proofs.DenseBuilds
import Autoland.Proofs.BackingIndependence
import Autoland.Proofs.StoredTables
import Autoland.Proofs.KeptFormulas
import Autoland.Proofs.CandidateBlocks
import Autoland.Proofs.TrajectoryHistories
import Autoland.Proofs.FlightTallies
import Autoland.Proofs.SessionCounters
import Autoland.Proofs.LegalChildren
import Autoland.Proofs.AttachedCopies
import Autoland.Proofs.StepRepetition
import Autoland.Proofs.ValueBounds
import Autoland.Proofs.GreedyChoice
import Autoland.Proofs.CandidateOrder
import Autoland.Proofs.CommandOrder
import Autoland.Proofs.CommandBounds
import Autoland.Proofs.FormulaCommas
import Autoland.Proofs.GuardedDescent
import Autoland.Proofs.QuantizationLaw
import Autoland.Proofs.RangeShift
import Autoland.Proofs.AngleUnits
import Autoland.Proofs.RefusedFormulas
import Autoland.Proofs.RestoredEntries
import Autoland.Proofs.MisplacedTables
import Autoland.Proofs.JobShares
import Autoland.Proofs.ReplayJobs
import Autoland.Proofs.FieldReads
import Autoland.Proofs.OwnCopies
import Autoland.Proofs.Rotations
import Autoland.Proofs.EnvironmentFiles
