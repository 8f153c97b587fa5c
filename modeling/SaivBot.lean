import SaivBot.Message.Origin
import SaivBot.Message.Grammar
import SaivBot.Text.Span
import SaivBot.Message.Pieces
import SaivBot.Message.Copying
import SaivBot.Connection.ReadBuffer
import SaivBot.Calendar.Civil
import SaivBot.Calendar.Gregorian
import SaivBot.Logs.TimeDetail
import SaivBot.Fields
import SaivBot.Logs.Instants
import SaivBot.Logs.Parsing
import SaivBot.Logs.Placement
import SaivBot.Logs.Concatenation
import SaivBot.Logs.Matching
import SaivBot.Logs.Occurrences
import SaivBot.Logs.RegexCounting
import SaivBot.Logs.RoundTrip
import SaivBot.Grouping
import SaivBot.Logs.Counting
import SaivBot.Logs.Request
import SaivBot.Logs.Accounting
import SaivBot.Logs.Relevance
import SaivBot.Logs.Naming
import SaivBot.Logs.Serving
import SaivBot.Logs.Totals
import SaivBot.Logs.Coverage
import SaivBot.Logs.TickRange
import SaivBot.Logs.Forms
import SaivBot.Logs.Downloader
import SaivBot.Logs.Downloading
import SaivBot.Bot.State
import SaivBot.Bot.Commands
import SaivBot.Bot.Dispatch
import SaivBot.Bot.LineSafety
import SaivBot.Bot.Harmless
import SaivBot.Bot.Frame
import SaivBot.Bot.Reading
import SaivBot.Bot.Strand
import SaivBot.Bot.Rearming
import SaivBot.Connection.Sending
import SaivBot.Connection.Reconnecting
import SaivBot.Connection.Delivery
import SaivBot.Logs.Finding
import SaivBot.Stability
import SaivBot.Logs.Dumping
import SaivBot.Text.Delimiter
import SaivBot.Bot.Multipart
import SaivBot.Logs.Hits
import SaivBot.Bot.Posting
import SaivBot.Bot.Authority
import SaivBot.Bot.Effects
import SaivBot.Bot.Channels
import SaivBot.Bot.LinesFromNow
import SaivBot.Bot.Persistence
import SaivBot.Bot.Saving
import SaivBot.Bot.ChannelNames
import SaivBot.Bot.Users
import SaivBot.Bot.Carryover
import SaivBot.Connection.Login
import SaivBot.Connection.Pacing
import SaivBot.Message.LineBreaks
import SaivBot.Bot.Unbroken
import SaivBot.Connection.Framing
import SaivBot.Bot.Errands
import SaivBot.System
import SaivBot.Inquiries
import SaivBot.Completion
import SaivBot.Secrecy
import SaivBot.Bot.Restarting
import SaivBot.Bot.TimedBuffer
import SaivBot.Connection.Draining
import SaivBot.Connection.Hearing
import SaivBot.Clipping
import SaivBot.Logs.Addressing
import SaivBot.Bot.Keepalive
import SaivBot.Settling
import SaivBot.Lifetime
import SaivBot.Vocabulary
import SaivBot.Bot.Strangers
