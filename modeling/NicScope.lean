import NicScope.Chip
import NicScope.Command.Basic
import NicScope.Command.Director
import NicScope.Command.DirectorView
import NicScope.Command.Dump
import NicScope.Command.Interface
import NicScope.Command.Port
import NicScope.Command.PortView
import NicScope.Command.Scaling
import NicScope.CommandLine
import NicScope.Device.Discovery
import NicScope.Device.Scripted
import NicScope.Device.Window
import NicScope.Error.Basic
import NicScope.Error.Errno
import NicScope.Feature
import NicScope.Host.Basic
import NicScope.Host.Clock
import NicScope.Host.FileTree
import NicScope.Host.Path
import NicScope.Log
import NicScope.Main
import NicScope.OperationLog
import NicScope.Options
import NicScope.Output
import NicScope.Proofs.Device.Accesses
import NicScope.Proofs.Device.RequestCourse
import NicScope.Proofs.Recording
import NicScope.Proofs.Tables.Records
import NicScope.Proofs.Transfer.BlobReading
import NicScope.Proofs.Transfer.BlobSplitting
import NicScope.Proofs.Transfer.BlockReply
import NicScope.Proofs.Transfer.EntryAccounting
import NicScope.Proofs.Transfer.EntryCursor
import NicScope.Proofs.Transfer.EntryReading
import NicScope.Proofs.Transfer.TablePaging
import NicScope.Proofs.Transfer.Transcript
import NicScope.Proofs.Wire.ReadBack
import NicScope.Session
import NicScope.Settings
import NicScope.Tables.Director
import NicScope.Tables.Port
import NicScope.Tables.Record
import NicScope.Tables.Scaling
import NicScope.Target
import NicScope.Text.Blank
import NicScope.Text.Column
import NicScope.Text.Cut
import NicScope.Text.Numeral
import NicScope.Text.Unsigned
import NicScope.Tool
import NicScope.Transfer.Blocks
import NicScope.Transfer.Dialogue
import NicScope.Transfer.Entries
import NicScope.Transfer.Fetch
import NicScope.Transfer.Response
import NicScope.Transfer.Scripted
import NicScope.Wire.Address
import NicScope.Wire.Bits
import NicScope.Wire.BlockHead
import NicScope.Wire.Bytes
import NicScope.Wire.Cursor
import NicScope.Wire.Error
import NicScope.Wire.Header
import NicScope.Wire.Layout
import NicScope.Wire.Request
import NicScope.Proofs.Device.RequestEnding
import NicScope.Proofs.Device.ConformingDevice
import NicScope.Proofs.Device.RequestAnswered
import NicScope.Proofs.Transfer.Held
import NicScope.Proofs.Transfer.Orders
import NicScope.Proofs.Transfer.Plans
import NicScope.Proofs.Command.Orders
import NicScope.Proofs.Session.Requests
import NicScope.Proofs.Session.FailedRequest
import NicScope.Proofs.Command.ChosenTarget
import NicScope.Proofs.Session.RequestTarget
import NicScope.Proofs.Device.RequestArea
import NicScope.Proofs.Command.OptionHandling
import NicScope.Proofs.Session.Contacts
import NicScope.Proofs.Command.UnfitChoices
import NicScope.Proofs.Session.Admission
import NicScope.Proofs.Text.Unmarked
import NicScope.Proofs.Command.UnmarkedViews
import NicScope.Proofs.Session.WholeDumps
import NicScope.Proofs.Command.RuleKeys
import NicScope.Proofs.Session.Stages
import NicScope.Proofs.Session.VirtualFunctions
import NicScope.Proofs.Transfer.EntryFilling
import NicScope.Proofs.Host.Walking
import NicScope.Proofs.Host.Making
import NicScope.Proofs.Text.LineEnds
import NicScope.Proofs.Session.LogKeeping
import NicScope.Proofs.Session.LogSpared
import NicScope.Proofs.Session.LogLines
import NicScope.Proofs.Command.AddressViews
import NicScope.Proofs.Device.Keeping
import NicScope.Proofs.Tables.TernaryKey
import NicScope.Proofs.Device.Ownership
import NicScope.Proofs.Host.Looking
import NicScope.Proofs.Host.Parallel
import NicScope.Proofs.Session.LogConfined
import NicScope.Proofs.Session.Remote
import NicScope.Proofs.Session.Views
import NicScope.Proofs.Session.LogIgnored
import NicScope.Proofs.Text.UnsignedGrammar
import NicScope.Proofs.Tables.FunctionIds
import NicScope.Proofs.Command.AcceptedKeys
import NicScope.Proofs.Text.AddressGrammar
import NicScope.Proofs.Wire.Framing
import NicScope.Proofs.Tables.SizedRecords
import NicScope.Proofs.Transfer.RecordFetching
import NicScope.Proofs.Command.OptionOrder
import NicScope.Proofs.Session.ArrangedOptions
import NicScope.Proofs.Command.ActionFields
import NicScope.Proofs.Tables.BitmapNumber
import NicScope.Proofs.Command.BitmapColumns
import NicScope.Proofs.Device.Finding
import NicScope.Proofs.Host.InDirectory
import NicScope.Proofs.Host.Rooted
import NicScope.Proofs.Session.LogHoused
import NicScope.Proofs.Session.LogOpening
import NicScope.Proofs.Session.LogRollover
import NicScope.Proofs.Wire.PayloadAccesses
import NicScope.Proofs.Tables.TruncatedRecords
