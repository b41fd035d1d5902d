import RemoteDesk.Auth.Parallel
import RemoteDesk.Command.Envelope
import RemoteDesk.Command.Request
import RemoteDesk.Desktop.Crashing
import RemoteDesk.Desktop.Recording
import RemoteDesk.Frame.Stream
import RemoteDesk.Main
import RemoteDesk.Response
import RemoteDesk.Session.Run
import RemoteDesk.Proofs.Auth.BackToBack
import RemoteDesk.Proofs.Auth.Streak
import RemoteDesk.Proofs.Auth.Together
import RemoteDesk.Proofs.Session.Mediation
import RemoteDesk.Proofs.Session.Rate
import RemoteDesk.Proofs.Session.Secrecy
import RemoteDesk.Proofs.Session.Transcript
import RemoteDesk.Proofs.Frame.Chunks
import RemoteDesk.Proofs.Session.Duplicates
import RemoteDesk.Proofs.Session.Effects
import RemoteDesk.Proofs.Desktop.Calls
import RemoteDesk.Proofs.Desktop.Held
import RemoteDesk.Proofs.Desktop.Recollection
import RemoteDesk.Proofs.Desktop.Steady
import RemoteDesk.Proofs.Session.Neighbours
import RemoteDesk.Proofs.Command.Secrets
import RemoteDesk.Proofs.Session.Audited
import RemoteDesk.Proofs.Session.Discretion
import RemoteDesk.Proofs.Cli.Account
import RemoteDesk.Proofs.Desktop.InTurn
import RemoteDesk.Proofs.Auth.UpToDate
import RemoteDesk.Proofs.Session.Lifetime
import RemoteDesk.Proofs.Session.Reports
import RemoteDesk.Proofs.Session.Shape
import RemoteDesk.Proofs.Command.Payloads
import RemoteDesk.Proofs.Command.Envelopes
import RemoteDesk.Proofs.Json.Reading
import RemoteDesk.Proofs.Json.Slots
import RemoteDesk.Proofs.Response
import RemoteDesk.Proofs.Desktop.Pictures
import RemoteDesk.Proofs.Frame.Incremental
import RemoteDesk.Proofs.Config.Accounts
import RemoteDesk.Proofs.Password.Acceptance
import RemoteDesk.Proofs.Desktop.Overlap
import RemoteDesk.Proofs.Json.Lengths
import RemoteDesk.Proofs.Frame.Canonical
import RemoteDesk.Proofs.Session.Timed
import RemoteDesk.Proofs.Session.Punctual
import RemoteDesk.Proofs.Toml.Kinds
import RemoteDesk.Proofs.Config.Overlay
import RemoteDesk.Proofs.Auth.WordByWord
import RemoteDesk.Proofs.Auth.Leftover
