import Blueprint.Analysis
import Blueprint.Logging
import Blueprint.Proofs.Document.Roundtrip
import Blueprint.Proofs.Document.Stripping
import Blueprint.Proofs.Graph.Asymmetries
import Blueprint.Proofs.Graph.Dump
import Blueprint.Proofs.Graph.Grounds
import Blueprint.Proofs.Graph.Inheritance
import Blueprint.Proofs.Graph.OperationCalls
import Blueprint.Proofs.Graph.Remarks
import Blueprint.Proofs.Graph.Slashes
import Blueprint.Proofs.Graph.States
import Blueprint.Proofs.Model.ApiKeys
import Blueprint.Proofs.Model.Census
import Blueprint.Proofs.Ownership.Awards
import Blueprint.Proofs.Ownership.Flows
import Blueprint.Proofs.Ownership.Jurisdiction
import Blueprint.Proofs.Ownership.Ties
import Blueprint.Proofs.Resolution.ComponentIncludes
import Blueprint.Proofs.Resolution.Containment
import Blueprint.Proofs.Resolution.Cycles
import Blueprint.Proofs.Resolution.Dangling
import Blueprint.Proofs.Resolution.Inlining
import Blueprint.Proofs.Resolution.Limit
import Blueprint.Proofs.Settings.Validity
