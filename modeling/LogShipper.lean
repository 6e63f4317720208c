import LogShipper.CommandLine.Machine
import LogShipper.Main
import LogShipper.Run.Session
import LogShipper.Section.Edit
import LogShipper.Proofs.Json.Grammar
import LogShipper.Proofs.Pieces
import LogShipper.Proofs.SectionOrder
import LogShipper.Proofs.Layout
import LogShipper.Proofs.Slots
import LogShipper.Proofs.AnyHost
import LogShipper.Proofs.Following
import LogShipper.Proofs.Attempts
import LogShipper.Proofs.EffectiveView
import LogShipper.Proofs.LineBreaks
import LogShipper.Proofs.OneVerdict
import LogShipper.Proofs.SelectionRules
import LogShipper.Proofs.JoiningDocument
import LogShipper.Proofs.JoiningAgreement
import LogShipper.Proofs.Json.Strings
import LogShipper.Proofs.Digits
import LogShipper.Proofs.Json.Numbers
import LogShipper.Proofs.Json.Skipping
import LogShipper.Proofs.Json.Fields
import LogShipper.Proofs.Json.Shapes
import LogShipper.Proofs.SettingsGrammar
import LogShipper.Proofs.Json.Printing
import LogShipper.Proofs.Layers
import LogShipper.Proofs.Json.CanonicalForm
import LogShipper.Proofs.Timestamps
import LogShipper.Proofs.Json.Fits
import LogShipper.Proofs.WireFormat
import LogShipper.Proofs.DiskWrites
import LogShipper.Proofs.StoredRuns
import LogShipper.Proofs.ReportOnDisk
import LogShipper.Proofs.CommandsAgree
import LogShipper.Proofs.DocumentPair
import LogShipper.Proofs.ExitStatus
import LogShipper.Proofs.ClosedChain
import LogShipper.Proofs.FieldAccount
import LogShipper.Proofs.UsableRules
import LogShipper.Proofs.ValidationCount
import LogShipper.Proofs.SeparatedLists
import LogShipper.Proofs.EditLog
import LogShipper.Proofs.PathParents
import LogShipper.Proofs.Holdings
import LogShipper.Proofs.MadeDirectories
import LogShipper.Proofs.WriteFrame
