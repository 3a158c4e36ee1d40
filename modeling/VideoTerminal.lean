import VideoTerminal.Text.Width
import VideoTerminal.Text.Cluster
import VideoTerminal.Text.Utf8
import VideoTerminal.Palette
import VideoTerminal.Control.Interpreter
import VideoTerminal.Pipe
import VideoTerminal.Pipe.Reading
import VideoTerminal.Session.Live
import VideoTerminal.Keyboard
import VideoTerminal.Paste
import VideoTerminal.Rendering
import VideoTerminal.Rendering.Dump
import VideoTerminal.Config.Home
import VideoTerminal.Main
import VideoTerminal.Proofs.Terminal.Run
import VideoTerminal.Proofs.Terminal.Due
import VideoTerminal.Proofs.Text.Utf8
import VideoTerminal.Proofs.Pipe.Reading
import VideoTerminal.Proofs.Pipe.Sound
import VideoTerminal.Proofs.Pipe.Exchange
import VideoTerminal.Proofs.Control.Run
import VideoTerminal.Proofs.Session.Live
import VideoTerminal.Proofs.Session.Schedule
import VideoTerminal.Proofs.Paste
import VideoTerminal.Proofs.Pipe.Chunks
import VideoTerminal.Proofs.Terminal.Whole
import VideoTerminal.Proofs.Terminal.Layout
import VideoTerminal.Proofs.Control.Sequence
import VideoTerminal.Proofs.Terminal.Steps
import VideoTerminal.Proofs.Terminal.Shown
import VideoTerminal.Proofs.Terminal.Alternate
import VideoTerminal.Proofs.Terminal.Confined
import VideoTerminal.Proofs.Terminal.Report
import VideoTerminal.Proofs.Terminal.Redraw
import VideoTerminal.Proofs.Terminal.RenderRequest
import VideoTerminal.Proofs.Terminal.Visibility
import VideoTerminal.Proofs.Terminal.Edit
import VideoTerminal.Proofs.Control.ControlString
import VideoTerminal.Proofs.Terminal.Coordinates
import VideoTerminal.Proofs.Control.Marks
import VideoTerminal.Proofs.Rendering.Paintbox
import VideoTerminal.Proofs.Session.Notices
import VideoTerminal.Proofs.Session.Pieces
import VideoTerminal.Proofs.Line.RoundTrip
import VideoTerminal.Proofs.Style.Rendition
import VideoTerminal.Proofs.Control.Interleaved
import VideoTerminal.Proofs.Control.Omitted
import VideoTerminal.Proofs.Control.Title
import VideoTerminal.Proofs.Terminal.Cut
import VideoTerminal.Proofs.Terminal.History
import VideoTerminal.Proofs.Terminal.Unwrapped
import VideoTerminal.Proofs.Terminal.ReportBounds
import VideoTerminal.Proofs.Terminal.Tails
import VideoTerminal.Proofs.Rendering.Written
import VideoTerminal.Proofs.Rendering.Replay
import VideoTerminal.Proofs.Rendering.Hidden
import VideoTerminal.Proofs.Session.Announced
import VideoTerminal.Proofs.Palette.Nearest
import VideoTerminal.Proofs.Config.Palette
import VideoTerminal.Proofs.Config.Saved
import VideoTerminal.Proofs.Pipe.Count
import VideoTerminal.Proofs.Pipe.Hooks
import VideoTerminal.Proofs.Terminal.Margin
import VideoTerminal.Proofs.Terminal.Letters
