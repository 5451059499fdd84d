import ClusterTuning.Command.Execute
import ClusterTuning.Tuning.Replicas
import ClusterTuning.Tuning.Resources
import ClusterTuning.Proofs.Outcome
import ClusterTuning.Proofs.Text.ByteOrder
import ClusterTuning.Proofs.Patch.Collecting
import ClusterTuning.Proofs.Generation.Contribution
import ClusterTuning.Proofs.Generation.Grouping
import ClusterTuning.Proofs.Generation.Failing
import ClusterTuning.Proofs.Generation.Counting
import ClusterTuning.Proofs.Naming.Words
import ClusterTuning.Proofs.Naming.Growing
import ClusterTuning.Proofs.Tuning.Agreement
import ClusterTuning.Proofs.Yaml.Numerals
import ClusterTuning.Proofs.Yaml.Records
import ClusterTuning.Proofs.Yaml.Mapping
import ClusterTuning.Proofs.Yaml.Keys
import ClusterTuning.Proofs.Yaml.Sameness
import ClusterTuning.Proofs.Stream.Identity
import ClusterTuning.Proofs.Stream.Incremental
import ClusterTuning.Proofs.Selector.Structure
import ClusterTuning.Proofs.Patch.BareInts
import ClusterTuning.Proofs.Patch.Placeholders
import ClusterTuning.Proofs.Patch.Setting
import ClusterTuning.Proofs.Patch.Finding
import ClusterTuning.Proofs.Patch.Growing
import ClusterTuning.Proofs.Stream.Grouping
import ClusterTuning.Proofs.Stream.Pointwise
import ClusterTuning.Proofs.Stream.Named
import ClusterTuning.Proofs.Stream.Absorbing
import ClusterTuning.Proofs.Stream.RoundTrip
import ClusterTuning.Proofs.Patch.Adding
import ClusterTuning.Proofs.Generation.Rearranging
import ClusterTuning.Proofs.Generation.Output
import ClusterTuning.Proofs.Application.Metrics
import ClusterTuning.Proofs.Experiment.Document
import ClusterTuning.Proofs.Application.Document
import ClusterTuning.Proofs.Quantity.Amounts
import ClusterTuning.Proofs.Tuning.Memory
import ClusterTuning.Proofs.Trial.ImageNames
import ClusterTuning.Proofs.Patch.Accepting
import ClusterTuning.Proofs.Stream.Headers
import ClusterTuning.Proofs.Tuning.Feasible
import ClusterTuning.Proofs.Objective.Addresses
import ClusterTuning.Proofs.Quantity.Spelling
import ClusterTuning.Proofs.Patch.Unquoting
import ClusterTuning.Proofs.Path.Slicing
