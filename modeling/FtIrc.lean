import FtIrc.Library.StdMap
import FtIrc.Library.Replay
import FtIrc.Library.Shutdown
import FtIrc.Library.Transition
import FtIrc.Library.Utf8
import FtIrc.Model.Text
import FtIrc.Model.Message
import FtIrc.Model.Client
import FtIrc.Model.Reply
import FtIrc.Model.Channel
import FtIrc.Model.Server
import FtIrc.Model.ChannelCommands
import FtIrc.Model.Commands
import FtIrc.Model.Network
import FtIrc.State.Output
import FtIrc.State.Handlers
import FtIrc.Membership.Links
import FtIrc.Membership.Changes
import FtIrc.Membership.Compound
import FtIrc.Membership.Disconnect
import FtIrc.Mode.Flags
import FtIrc.Mode.Passes
import FtIrc.State.Texts
import FtIrc.State.Cuts
import FtIrc.State.Parse
import FtIrc.State.Numerics
import FtIrc.Effects.Effect
import FtIrc.Effects.Lines
import FtIrc.Effects.ModeLines
import FtIrc.Effects.Dispatch
import FtIrc.Effects.Background
import FtIrc.Effects.Events
import FtIrc.Effects.Wording
import FtIrc.Effects.Identity
import FtIrc.Effects.Emission
import FtIrc.Effects.Marks
import FtIrc.Effects.Descriptors
import FtIrc.Effects.Polls
import FtIrc.Effects.Registration
import FtIrc.Effects.Loop
import FtIrc.Effects.Closing
import FtIrc.Effects.Sessions
import FtIrc.Properties.Integrity
import FtIrc.Properties.ErrorLine
import FtIrc.Properties.Framing
import FtIrc.Properties.Causes
import FtIrc.Properties.Closing
import FtIrc.Properties.Descriptors
import FtIrc.Properties.Encoding
import FtIrc.Properties.Lifetime
import FtIrc.Properties.ModeNotice
import FtIrc.Properties.Nicknames
import FtIrc.Properties.Registration
import FtIrc.Properties.Strangers
import FtIrc.Properties.Atomicity
import FtIrc.Properties.ModePasses
import FtIrc.Properties.Grammar
import FtIrc.Properties.FanOut
import FtIrc.Properties.Leaving
import FtIrc.Properties.Audience
import FtIrc.Properties.Truncation
import FtIrc.Properties.Names
import FtIrc.Properties.Liveness
import FtIrc.Properties.Chunks
import FtIrc.Library.Rooms
import FtIrc.Effects.Rooms
import FtIrc.Library.Roster
import FtIrc.Properties.Admission
import FtIrc.Properties.Notices
import FtIrc.Properties.Rosters
import FtIrc.Properties.Views
import FtIrc.Properties.ModeReply
