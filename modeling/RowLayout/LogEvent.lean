import RowLayout.Inlay.InlaySet
import RowLayout.Fold.FoldSet

/-!
# Log events

What the changes of a view report as they happen: a fold that passed its checks, an inlay that was
added, and the sizes of a fresh layout.

## Main definitions

* `LogEvent` — the events
* `LogEvent.line` — their text: the level, the message, and the values
* `FoldEdit.events`, `InlayEdit.events` — the events of a change to folds or inlays
-/

namespace RowLayout

/-- Something worth a line in the log. -/
inductive LogEvent where
  | foldAdded (start stop : Nat) (collapsed : Bool)
  | inlayAdded (offset height : Nat) (kind : InlayKind) (id : Nat)
  | relaidOut (rows wraps collapsedFolds inlays : Nat)
deriving DecidableEq, Repr

/-- The name of a kind of inlay in the log. -/
def InlayKind.logName : InlayKind → String
  | inline => "Inline"
  | block => "Block"

namespace LogEvent

/-- The text of an event. -/
def line : LogEvent → String
  | foldAdded start stop collapsed =>
    s!"TRACE add fold region start={start} end={stop} collapsed={collapsed}"
  | inlayAdded offset height kind id =>
    s!"TRACE add inlay offset={offset} height={height} kind={kind.logName} id={id}"
  | relaidOut rows wraps collapsedFolds inlays =>
    s!"DEBUG relayout visual_lines={rows} soft_wraps={wraps} " ++
      s!"collapsed_folds={collapsedFolds} inlays={inlays}"

/-- The event of a region that was added. -/
def ofFold (r : FoldRegion) : LogEvent := foldAdded r.start r.stop r.collapsed

end LogEvent

/-- The events of a change to folds: only a region that was added is reported. -/
def FoldEdit.events (d : Document) (answer : FoldAnswer) : FoldEdit → List LogEvent
  | .add region _ => if answer = .added then [.ofFold region] else []
  | .addLines first last collapsed =>
    if answer = .added then [.ofFold (FoldSet.lineRegion d first last collapsed)] else []
  | _ => []

/-- The events of a change to inlays: only an inlay that was added is reported. -/
def InlayEdit.events : InlayAnswer → InlayEdit → List LogEvent
  | .added id, .add offset height kind => [.inlayAdded offset height kind id]
  | _, _ => []

end RowLayout
