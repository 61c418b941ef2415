import CiTranslate.Json.Typed
import CiTranslate.Main
import CiTranslate.Proofs.RoundTrip.Bamboo
import CiTranslate.Proofs.RoundTrip.GitHub
import CiTranslate.Proofs.RoundTrip.GitLab
import CiTranslate.Proofs.RoundTrip.Jenkins
import CiTranslate.Registry
import CiTranslate.Proofs.RoundTrip.Azure
import CiTranslate.Proofs.RoundTrip.CircleCi
import CiTranslate.Proofs.Decimal
import CiTranslate.Proofs.Json.Fence
import CiTranslate.Proofs.RoundTrip.CodePipeline
import CiTranslate.Proofs.Outline
import CiTranslate.Proofs.Registry
import CiTranslate.Proofs.Jenkins.Parse
import CiTranslate.Proofs.Yaml.Plain
import CiTranslate.Proofs.Yaml.Block
import CiTranslate.Proofs.Groovy.Command
import CiTranslate.Proofs.Comment
import CiTranslate.Proofs.Jenkins.StageNames
import CiTranslate.Proofs.Restoration
import CiTranslate.Proofs.Groovy.DebugCall
import CiTranslate.Proofs.Groovy.Segment
import CiTranslate.Proofs.Payload.Written
import CiTranslate.Proofs.Pipeline.Call
import CiTranslate.Proofs.Registry.History
import CiTranslate.Proofs.Pipeline.Validation
import CiTranslate.Proofs.GitLab.Reading
import CiTranslate.Proofs.Azure.JobIdentifiers
import CiTranslate.Proofs.Classification
import CiTranslate.Proofs.Pipeline.Json
import CiTranslate.Proofs.Keys.Allocation
import CiTranslate.Proofs.Groovy.Scan
import CiTranslate.Proofs.Groovy.Pattern
