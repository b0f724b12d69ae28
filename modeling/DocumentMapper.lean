import DocumentMapper.Sample.Declarations
import DocumentMapper.Session.Basic
import DocumentMapper.Proofs.Dialogue.Outcome
import DocumentMapper.Proofs.Dialogue.Quiet
import DocumentMapper.Proofs.Repository.Submission
import DocumentMapper.Proofs.Association
import DocumentMapper.Proofs.Codec.Decoding
import DocumentMapper.Proofs.Codec.Encoding
import DocumentMapper.Proofs.Codec.RoundTrip
import DocumentMapper.Proofs.Codec.Marks
import DocumentMapper.Proofs.Repository.Discipline
import DocumentMapper.Proofs.Repository.LostUpdate
import DocumentMapper.Proofs.Repository.ReadYourWrites
import DocumentMapper.Proofs.Dialogue.Course
import DocumentMapper.Proofs.Codec.Course
import DocumentMapper.Proofs.Repository.Setback
import DocumentMapper.Proofs.Repository.Lifecycle
import DocumentMapper.Proofs.Entity.TokenRange
import DocumentMapper.Proofs.Repository.Answers
import DocumentMapper.Proofs.Error.Taxonomy
import DocumentMapper.Proofs.Codec.Failing
import DocumentMapper.Proofs.Dialogue.Account
import DocumentMapper.Proofs.Repository.Reporting
import DocumentMapper.Proofs.Repository.Handover
import DocumentMapper.Proofs.Repository.Cancellation
import DocumentMapper.Proofs.Transaction
import DocumentMapper.Proofs.Transaction.Log
import DocumentMapper.Proofs.Error.Relaying
import DocumentMapper.Proofs.Repository.Failures
import DocumentMapper.Proofs.Repository.Keeping
import DocumentMapper.Proofs.Repository.Chronicle
import DocumentMapper.Proofs.Repository.Forwarding
import DocumentMapper.Proofs.Repository.Provenance
import DocumentMapper.Proofs.Repository.Existence
import DocumentMapper.Proofs.Dialogue.Context
import DocumentMapper.Proofs.Repository.Naming
import DocumentMapper.Proofs.Config.Keys
import DocumentMapper.Proofs.Config.Precedence
import DocumentMapper.Proofs.Conversion.Restoring
import DocumentMapper.Proofs.Codec.Showing
import DocumentMapper.Proofs.Dialogue.Replies
import DocumentMapper.Proofs.Repository.Substitution
import DocumentMapper.Proofs.Json.Objects
import DocumentMapper.Proofs.Conversion.Integers
import DocumentMapper.Proofs.Codec.Consulting
import DocumentMapper.Proofs.Codec.Ownership
import DocumentMapper.Proofs.Codec.Collisions
import DocumentMapper.Proofs.Conversion.Timestamps
import DocumentMapper.Proofs.Conversion.Structure
import DocumentMapper.Proofs.Codec.Support
import DocumentMapper.Proofs.Conversion.Locality
import DocumentMapper.Proofs.Repository.Finding
import DocumentMapper.Proofs.Event.Delivery
import DocumentMapper.Proofs.Codec.Content
import DocumentMapper.Proofs.Json.Reading
import DocumentMapper.Proofs.Document.Merging
import DocumentMapper.Proofs.Config.File
import DocumentMapper.Proofs.Config.Quotes
import DocumentMapper.Proofs.Config.Comments
import DocumentMapper.Proofs.Config.Location
import DocumentMapper.Proofs.Config.Home
import DocumentMapper.Proofs.Repository.Identification
import DocumentMapper.Proofs.Document.Log
import DocumentMapper.Proofs.Number.Words
import DocumentMapper.Proofs.Entity.KeyRange
import DocumentMapper.Proofs.Repository.Retrieval
