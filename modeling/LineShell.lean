import LineShell.FileTree.Inventory
import LineShell.Main
import LineShell.Outside
import LineShell.Proofs.Crash
import LineShell.Proofs.Foreground
import LineShell.Proofs.Interruption
import LineShell.Proofs.Literal
import LineShell.Proofs.PipeEnds
import LineShell.Proofs.PipelineGrammar
import LineShell.Proofs.RedirectionFailure
import LineShell.Proofs.ReferenceReading
import LineShell.Proofs.Reporting
import LineShell.Proofs.Delivery
import LineShell.Proofs.Clearing
import LineShell.Proofs.Linkless
import LineShell.Proofs.Return
import LineShell.Proofs.LineShape
import LineShell.Proofs.EnteredLines
import LineShell.Proofs.AbsolutePwd
import LineShell.Proofs.CommandLookup
import LineShell.Proofs.CommandStart
import LineShell.Proofs.TypeAnswer
import LineShell.Proofs.DirectoryEffects
import LineShell.Proofs.PipeCleanup
import LineShell.Proofs.Recording
import LineShell.Proofs.BetweenQuotes
import LineShell.Proofs.ExportListing
import LineShell.Proofs.AssignmentLine
import LineShell.Proofs.BlankLine
import LineShell.Proofs.OperatorTargets
import LineShell.Proofs.SourcedLine
import LineShell.Proofs.ReferenceEdges
import LineShell.Proofs.WordBoundary
import LineShell.Proofs.PathAction
import LineShell.Proofs.OptionGrammar
import LineShell.Proofs.UsualRcFile
import LineShell.Proofs.PassOffsets
