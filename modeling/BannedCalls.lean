import BannedCalls.CallDump
import BannedCalls.FrontEnd.Library
import BannedCalls.Main
import BannedCalls.Proofs.Analysis.Foreign
import BannedCalls.Proofs.CommandLine.Blocks
import BannedCalls.Proofs.CommandLine.Echo
import BannedCalls.Proofs.CommandLine.Faults
import BannedCalls.Proofs.CommandLine.Trace
import BannedCalls.Proofs.Ban.Multiset
import BannedCalls.Proofs.Call.Siblings
import BannedCalls.Proofs.Call.Wrapping
import BannedCalls.Proofs.Call.Noise
import BannedCalls.Proofs.Source.Outline
import BannedCalls.Proofs.Call.Chains
import BannedCalls.Proofs.Call.Spans
import BannedCalls.Proofs.Engine.Isolation
import BannedCalls.Proofs.Analysis.Warning
import BannedCalls.Proofs.CommandLine.BanValues
import BannedCalls.Proofs.Ban.Log
import BannedCalls.Proofs.Report.Stable
import BannedCalls.Proofs.Engine.Composition
import BannedCalls.Proofs.Source.Lineage
import BannedCalls.Proofs.Call.Dump
import BannedCalls.Proofs.FrontEnd.Search
import BannedCalls.Proofs.CommandLine.Rounds
import BannedCalls.Proofs.Report.Totals
