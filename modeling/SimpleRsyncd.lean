import SimpleRsyncd.Auth.PasswordFile.RejectPlaintext
import SimpleRsyncd.Auth.PublicKeyDatabase.Comments
import SimpleRsyncd.Auth.PublicKeyDatabase.Revocation
import SimpleRsyncd.Auth.SessionManager.Expiry
import SimpleRsyncd.Auth.SessionManager.Views
import SimpleRsyncd.Auth.UserDatabase.Accounts
import SimpleRsyncd.Auth.UserDatabase.RoundTrip
import SimpleRsyncd.Config.DocumentPort
import SimpleRsyncd.Config.Formats
import SimpleRsyncd.Config.Sections
import SimpleRsyncd.Config.SubstitutionLoops
import SimpleRsyncd.Daemon.Accepting
import SimpleRsyncd.Daemon.Deletion
import SimpleRsyncd.Daemon.Fairness
import SimpleRsyncd.Daemon.Interleaving
import SimpleRsyncd.Daemon.Monitor
import SimpleRsyncd.Daemon.RateLimit
import SimpleRsyncd.Daemon.ReloadEffect
import SimpleRsyncd.Daemon.ReloadFailure
import SimpleRsyncd.Daemon.Shutdown
import SimpleRsyncd.Log.Journal
import SimpleRsyncd.Log.Records
import SimpleRsyncd.Log.RotationLoop
import SimpleRsyncd.Module.Glob
import SimpleRsyncd.Module.RootSpelling
import SimpleRsyncd.Module.SymlinkPolicy
import SimpleRsyncd.Module.Totals
import SimpleRsyncd.Program.Privileges
import SimpleRsyncd.Security.Armor
import SimpleRsyncd.Security.CidrGrammar
import SimpleRsyncd.Security.Preamble
import SimpleRsyncd.Security.WireReads
import SimpleRsyncd.Session.Conversation
import SimpleRsyncd.Session.Delivery
import SimpleRsyncd.Session.Forgery
import SimpleRsyncd.Session.KeyLogin
import SimpleRsyncd.Session.Mirror
import SimpleRsyncd.Session.Patterns
import SimpleRsyncd.Session.RoundTrip
import SimpleRsyncd.Session.Sharing
import SimpleRsyncd.Session.TransferMode
import SimpleRsyncd.Module.WriteTest
