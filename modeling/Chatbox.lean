import Chatbox.Lib.Run
import Chatbox.Protocol.ServerCodec
import Chatbox.Chat.Removal
import Chatbox.Chat.Settle
import Chatbox.Chat.Delivery
import Chatbox.Chat.Client
import Chatbox.Chat.Screen
import Chatbox.Chat.Sync
import Chatbox.Chat.Registry
import Chatbox.Chat.Unnamed
import Chatbox.Lib.Paging
import Chatbox.Lib.Table
import Chatbox.Storage.Database
import Chatbox.Storage.History
import Chatbox.Storage.Batch
import Chatbox.Network.TrustStore
import Chatbox.Network.Tls
import Chatbox.Chat.Regions
import Chatbox.Chat.RegionSpec
import Chatbox.Chat.MoveRace
import Chatbox.Chat.BanRace
import Chatbox.Chat.Handover
import Chatbox.Protocol.ClientGrammar
import Chatbox.Protocol.ServerGrammar
import Chatbox.Chat.UserLists
import Chatbox.Storage.Kept
import Chatbox.Chat.Sendable
import Chatbox.Chat.Speaking
import Chatbox.Chat.Authority
import Chatbox.Chat.Reload
import Chatbox.Lib.Fields
import Chatbox.Network.ServerBrowser
import Chatbox.Network.Directory
import Chatbox.Network.Listing
import Chatbox.Storage.Preferences
import Chatbox.Storage.Remembered
import Chatbox.Chat.Relay
import Chatbox.Chat.Alike
import Chatbox.Chat.Restart
import Chatbox.Chat.Whisper
import Chatbox.Chat.Malformed
import Chatbox.Chat.Quota
import Chatbox.Chat.Wire
import Chatbox.Chat.Deeds
import Chatbox.Chat.Posting
import Chatbox.Chat.Dialogue
import Chatbox.Chat.Agreement
import Chatbox.Chat.Authorship
import Chatbox.Network.Forget
import Chatbox.Chat.Connect
import Chatbox.Chat.Drop
import Chatbox.Common.Identity
import Chatbox.Lib.Lease
import Chatbox.Network.Ledger
import Chatbox.Lib.Utf8
import Chatbox.Lib.Recency
import Chatbox.Lib.Lines
import Chatbox.Lib.Log
import Chatbox.Ui.LineEditor
import Chatbox.Ui.EditKey
import Chatbox.Ui.NetworkTask
import Chatbox.Network.Invite
import Chatbox.Network.UPnP
import Chatbox.App.DedicatedServer
import Chatbox.Chat.KeySpelling
import Chatbox.Storage.LegacyImport
import Chatbox.Storage.Migration
import Chatbox.Lib.Retry
import Chatbox.Chat.Timestamps
import Chatbox.Ui.InputHistory
import Chatbox.Ui.Glyphs
import Chatbox.Ui.Wrap
import Chatbox.Lib.BinarySearch
import Chatbox.Ui.Scrollback
import Chatbox.Ui.Transcript
import Chatbox.Lib.Prefix
import Chatbox.Ui.Completion
import Chatbox.App.Commands
import Chatbox.App.Guest
import Chatbox.App.Hosting
import Chatbox.App.Console
import Chatbox.Chat.Bans
import Chatbox.Chat.Flood
import Chatbox.Chat.Access
import Chatbox.App.Joining
import Chatbox.Network.Publisher
