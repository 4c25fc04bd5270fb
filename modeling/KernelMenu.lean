import KernelMenu.Check
import KernelMenu.Main
import KernelMenu.Proofs.ErrorPlace
import KernelMenu.Proofs.TreePrinting
import KernelMenu.Proofs.SourceWrapping
import KernelMenu.Proofs.GuardErrors
import KernelMenu.Proofs.TreeDump
import KernelMenu.Proofs.SourceJoining
import KernelMenu.Proofs.TreeStatements
import KernelMenu.Proofs.LayoutReading
import KernelMenu.Proofs.CommandReport
import KernelMenu.Proofs.TokenLine
import KernelMenu.Proofs.SourceTiling
import KernelMenu.Proofs.ErrorReport
import KernelMenu.Proofs.PlacedDraft
import KernelMenu.Proofs.FewestParentheses
import KernelMenu.Proofs.SourceReordering
import KernelMenu.Proofs.WordRuns
import KernelMenu.Proofs.LineColumn
import KernelMenu.Proofs.TreeDrawing
import KernelMenu.Proofs.Progress
import KernelMenu.Proofs.LayerOrder
import KernelMenu.Proofs.RequestSettings
import KernelMenu.Proofs.TreeJson
import KernelMenu.Proofs.DumpMarkup
import KernelMenu.Proofs.DumpText
import KernelMenu.Proofs.ExtractLayout
