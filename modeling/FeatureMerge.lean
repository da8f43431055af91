import FeatureMerge.Samples
import FeatureMerge.Session.Run
import FeatureMerge.Settings.Json
import FeatureMerge.Proofs.Selection
import FeatureMerge.Proofs.Artifact.Parts
import FeatureMerge.Proofs.Artifact.RoundTrip
import FeatureMerge.Proofs.Artifact.Forms
import FeatureMerge.Proofs.Artifact.Grammar
import FeatureMerge.Proofs.Artifact.Canonical
import FeatureMerge.Proofs.Artifact.Obtained
import FeatureMerge.Proofs.Toml.Quoting
import FeatureMerge.Proofs.Ascending
import FeatureMerge.Proofs.Toml.Lines
import FeatureMerge.Proofs.Except
import FeatureMerge.Proofs.Maps
import FeatureMerge.Proofs.Lookup
import FeatureMerge.Proofs.Toml.Tables
import FeatureMerge.Proofs.Settings.Fields
import FeatureMerge.Proofs.Toml.Ordered
import FeatureMerge.Proofs.Settings.RoundTrip
import FeatureMerge.Proofs.Settings.Acceptance
import FeatureMerge.Proofs.Settings.Json
import FeatureMerge.Proofs.Settings.Layers
import FeatureMerge.Proofs.Settings.Composition
import FeatureMerge.Properties.Calls
import FeatureMerge.Proofs.Json.Documents
import FeatureMerge.Proofs.Properties.Positions
import FeatureMerge.Proofs.Json.Decoding
import FeatureMerge.Proofs.Feature.RoundTrip
import FeatureMerge.Proofs.Properties.History
import FeatureMerge.Proofs.Properties.Layering
import FeatureMerge.Proofs.Context.Edits
import FeatureMerge.Proofs.Context.Fields
import FeatureMerge.Proofs.Context.Derivation
import FeatureMerge.Proofs.Context.Inheritance
import FeatureMerge.Proofs.Context.Family
import FeatureMerge.Proofs.Dispatch.Calls
import FeatureMerge.Proofs.Dispatch.Claimant
import FeatureMerge.Proofs.Dispatch.Contributions
import FeatureMerge.Proofs.Dispatch.Turns
import FeatureMerge.Proofs.Dispatch.Log
import FeatureMerge.Proofs.Version.Numerals
import FeatureMerge.Proofs.Version.Spelling
import FeatureMerge.Proofs.Text.Bytes
import FeatureMerge.Proofs.Dispatch.ArtifactLists
import FeatureMerge.Proofs.Artifact.Locations
import FeatureMerge.Proofs.Dispatch.Frame
import FeatureMerge.Proofs.Report
