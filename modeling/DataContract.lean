import DataContract.CommandLine.Run
import DataContract.Lifecycle.Validator
import DataContract.Main
import DataContract.Proofs.CommandLine.Outcome
import DataContract.Proofs.CommandLine.SchemaDocument
import DataContract.Proofs.Lifecycle.BodyReading
import DataContract.Proofs.Lifecycle.Events
import DataContract.Proofs.Lifecycle.ReturnedBody
import DataContract.Proofs.Lifecycle.Views
import DataContract.Proofs.Schema.DocumentMeaning
import DataContract.Proofs.Schema.FirstDefect
import DataContract.Proofs.Schema.Rereading
import DataContract.Proofs.Schema.Spelling
import DataContract.Proofs.Validation.DateReading
import DataContract.Proofs.Validation.DocumentKeys
import DataContract.Proofs.Validation.ItemsAsProperties
import DataContract.Proofs.Validation.KeyOrder
import DataContract.Proofs.Validation.MissingDefaults
import DataContract.Proofs.Validation.NestedPlaces
import DataContract.Proofs.Validation.NumberBounds
import DataContract.Proofs.Validation.OwnWords
import DataContract.Proofs.Validation.Relabelling
import DataContract.Proofs.Validation.RuleByRule
import DataContract.Proofs.Validation.Verdict
import DataContract.Proofs.Yaml.RoundTrip
import DataContract.Schema.Assembly
import DataContract.Proofs.Calendar.IsoText
import DataContract.Proofs.Validation.DateTexts
import DataContract.Proofs.Pattern.WholeMatch
import DataContract.Proofs.Text.CaseFold
import DataContract.Proofs.Text.Hexadecimal
import DataContract.Proofs.Validation.UuidPatterns
import DataContract.Proofs.Validation.UuidTexts
