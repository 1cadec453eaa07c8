import RouteTree.Http.Uri
import RouteTree.Proofs.Allocation
import RouteTree.Proofs.Bindings
import RouteTree.Proofs.Census
import RouteTree.Proofs.Commutation
import RouteTree.Proofs.Continuation
import RouteTree.Proofs.FirstDefect
import RouteTree.Proofs.ForeignFaults
import RouteTree.Proofs.Formatting
import RouteTree.Proofs.Grammar
import RouteTree.Proofs.Ledger
import RouteTree.Proofs.Naming
import RouteTree.Proofs.Positions
import RouteTree.Proofs.Recovery
import RouteTree.Proofs.Suspension
import RouteTree.Proofs.Transcript
import RouteTree.Script
import RouteTree.Session.Compiler
import RouteTree.Session.Draft
import RouteTree.Session.Tree
import RouteTree.Settings.Document
