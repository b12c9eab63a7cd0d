import Swirl.Common.List
import Swirl.Common.Stringop
import Swirl.Lib.Forest
import Swirl.Lib.Runs
import Swirl.Lib.Holders
import Swirl.Lib.Upsert
import Swirl.Lib.Rounding
import Swirl.Lib.Frames
import Swirl.Lib.Search
import Swirl.Lib.Faults
import Swirl.Lib.Drain
import Swirl.Lib.Sharing
import Swirl.Lib.StableSort
import Swirl.Lib.Choice
import Swirl.Lib.Buffer
import Swirl.Common.Sort
import Swirl.Common.Argsep
import Swirl.Common.Quoting
import Swirl.Common.SplitArgs
import Swirl.Common.Unescape
import Swirl.Common.QuotedArgs
import Swirl.Common.Pango
import Swirl.Tree.Types
import Swirl.Tree.Node
import Swirl.Tree.State
import Swirl.Tree.Start
import Swirl.Tree.Titles
import Swirl.Tree.OutputPriority
import Swirl.Tree.TitleMarkup
import Swirl.Input.Focus
import Swirl.Tree.Row
import Swirl.Tree.RowWidths
import Swirl.Tree.RowSettled
import Swirl.Tree.Arrange
import Swirl.Tree.ArrangeFrame
import Swirl.Tree.ArrangeColumns
import Swirl.Tree.Floating
import Swirl.Tree.Fullscreen
import Swirl.Tree.Container
import Swirl.Input.SeatFocus
import Swirl.Tree.Destroy
import Swirl.Tree.Links
import Swirl.Tree.Effects
import Swirl.Tree.WellFormed
import Swirl.Tree.Containment
import Swirl.Tree.ColumnHeights
import Swirl.Tree.ColumnFill
import Swirl.Tree.StackShares
import Swirl.Input.FocusEffects
import Swirl.Tree.Column
import Swirl.Tree.Absorb
import Swirl.Tree.FitColumn
import Swirl.Tree.Workspace
import Swirl.Tree.SetFloating
import Swirl.Tree.Operations
import Swirl.Tree.Minimize
import Swirl.Tree.View
import Swirl.Tree.Swap
import Swirl.Tree.SwapColumns
import Swirl.Tree.RowOperations
import Swirl.Tree.InsertColumn
import Swirl.Tree.InsertWindow
import Swirl.Tree.Walks
import Swirl.Tree.FixOverflow
import Swirl.Tree.Replacing
import Swirl.Tree.OperationRuns
import Swirl.Commands.Columns
import Swirl.Commands.Move
import Swirl.Commands.Resize
import Swirl.Commands.ResizeColumns
import Swirl.Commands.ResizeWindows
import Swirl.Input.FocusModes
import Swirl.Commands.ReleaseTake
import Swirl.Config.ReadConfig
import Swirl.Config.Variables
import Swirl.Config.StoredConfig
import Swirl.Config.Blocks
import Swirl.Swaybar.StatusLine
import Swirl.Swaybar.Chunking
import Swirl.Swaybar.StatusRuns
import Swirl.Commands.Scratchpad
import Swirl.Tree.Root
import Swirl.Commands.Mark
import Swirl.Desktop.OverviewActions
import Swirl.Commands.NullWorkspace
import Swirl.Desktop.Overview
import Swirl.Desktop.OverviewNumbers
import Swirl.Desktop.Transaction
import Swirl.Desktop.Lifetime
import Swirl.Desktop.Atomicity
import Swirl.Commands.Bind
import Swirl.Commands.BindReading
import Swirl.Commands.BindLists
import Swirl.Commands.BindMemory
import Swirl.Input.Keyboard
import Swirl.Input.KeyPairing
import Swirl.Input.BindingLiveness
import Swirl.Input.SessionLock
import Swirl.Input.LockConfines
import Swirl.Input.Locking
import Swirl.Tree.Outputs
import Swirl.Tree.WorkspaceNames
import Swirl.Tree.Hotplug
import Swirl.Commands.Workspace
import Swirl.Tree.Housing
import Swirl.Tree.HousingRuns
import Swirl.Commands.WorkspaceCases
import Swirl.Tree.HotplugSafety
import Swirl.Tree.ShapeRuns
import Swirl.Commands.NameUniqueness
import Swirl.Commands.Criteria
import Swirl.Commands.CriteriaMatch
import Swirl.Commands.CriteriaRoundTrip
import Swirl.Ipc.Client
import Swirl.Ipc.Inbound
import Swirl.Ipc.Server
import Swirl.Ipc.StaleClients
import Swirl.Config.OutputConfig
import Swirl.Config.OutputState
import Swirl.Config.OutputSearch
import Swirl.Config.ApplyOutputs
import Swirl.Input.TextInput
import Swirl.Input.TextInputEffects
import Swirl.Input.TextInputFocus
import Swirl.Input.TextInputPopups
import Swirl.Input.Gestures
import Swirl.Input.GesturePairing
import Swirl.Input.BindingChoice
import Swirl.Input.GestureChoice
import Swirl.Tree.WorkspaceCycle
import Swirl.Tree.GrowToFill
import Swirl.Tree.OutputMoves
import Swirl.Desktop.ArrangeChildren
import Swirl.Tree.Maximize
import Swirl.Lib.Ranking
import Swirl.Lib.Recency
import Swirl.Commands.Focus
import Swirl.Input.FocusApart
import Swirl.Commands.FocusReversal
import Swirl.Desktop.Launcher
import Swirl.Ipc.Response
import Swirl.Input.FloatingSnap
import Swirl.Input.ResizeFloating
import Swirl.Commands.Gaps
import Swirl.Lib.Closest
import Swirl.Input.MoveFloating
import Swirl.Input.ResizeLimits
import Swirl.Input.SnapZones
import Swirl.Input.EdgeBindings
import Swirl.Lib.Buckets
import Swirl.Lib.Grid
import Swirl.Desktop.OverviewGrid
import Swirl.Lib.Reading
import Swirl.Swaybar.StatusReader
import Swirl.Swaybar.StatusReturns
import Swirl.Lib.Cumulative
import Swirl.Tree.PlaceColumns
import Swirl.Lib.InPlace
import Swirl.Input.PressedKeys
import Swirl.Lib.Greedy
import Swirl.Tree.FarthestFirst
import Swirl.Lib.Mirror
import Swirl.Swaybar.Tray
import Swirl.Lib.Staged
import Swirl.Desktop.Settled
import Swirl.Ipc.Session
import Swirl.Commands.Execute
import Swirl.Config.InputLayers
import Swirl.Input.SeatDevices
