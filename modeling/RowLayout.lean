import RowLayout.Main
import RowLayout.Layout.Description
import RowLayout.Settings.Reader
import RowLayout.Proofs.InitialStretch
import RowLayout.Proofs.LineStarts
import RowLayout.Proofs.Scan
import RowLayout.Proofs.Walk
import RowLayout.Proofs.RowStarts
import RowLayout.Proofs.NaiveLayout
import RowLayout.Proofs.FoldFamily
import RowLayout.Proofs.ViewRuns
import RowLayout.Proofs.Resume
import RowLayout.Proofs.ViewRows
import RowLayout.Proofs.FoldRuns
import RowLayout.Proofs.LineContents
import RowLayout.Proofs.RowSpans
import RowLayout.Proofs.RowBands
import RowLayout.Proofs.Viewport
import RowLayout.Proofs.OutermostFolds
import RowLayout.Proofs.ShownWraps
import RowLayout.Proofs.RowLookup
import RowLayout.Proofs.InlayShift
import RowLayout.Proofs.InlayRuns
import RowLayout.Proofs.UndoneEdits
import RowLayout.Proofs.SpelledTokens
import RowLayout.Proofs.WrittenValues
import RowLayout.Proofs.SkippedValues
import RowLayout.Proofs.SettingsDocuments
import RowLayout.Proofs.SettingsRoundTrip
import RowLayout.Proofs.WrappedRows
import RowLayout.Proofs.WordCuts
import RowLayout.Proofs.WordRows
import RowLayout.Proofs.GreedyRows
import RowLayout.Proofs.CharRows
import RowLayout.Proofs.WordBreaks
import RowLayout.Proofs.NarrowerRows
import RowLayout.Proofs.OneWordLines
import RowLayout.Proofs.FoldOrder
import RowLayout.Proofs.InnermostFold
import RowLayout.Proofs.RebuiltViews
import RowLayout.Proofs.RowBelow
import RowLayout.Proofs.LineBreaks
import RowLayout.Proofs.FoldedLines
import RowLayout.Proofs.WalksEnd
import RowLayout.Proofs.LinePieces
import RowLayout.Proofs.WrapLookup
import RowLayout.Proofs.FreshLookahead
