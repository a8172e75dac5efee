import EnvelopeLog.Bytes
import EnvelopeLog.Digest.Sha256
import EnvelopeLog.Cipher.Aes
import EnvelopeLog.Cipher.Gcm
import EnvelopeLog.Entropy
import EnvelopeLog.Text.Base64
import EnvelopeLog.Text.Blank
import EnvelopeLog.Text.Decimal
import EnvelopeLog.Text.Hidden
import EnvelopeLog.Text.Quoted
import EnvelopeLog.Json.Fault
import EnvelopeLog.Json.Lexeme
import EnvelopeLog.Json.Skip
import EnvelopeLog.Json.Record
import EnvelopeLog.Json.Printer
import EnvelopeLog.Rsa.Arithmetic
import EnvelopeLog.Rsa.Key
import EnvelopeLog.Rsa.Oaep
import EnvelopeLog.Rsa.Prime
import EnvelopeLog.Fault
import EnvelopeLog.Settings
import EnvelopeLog.KeyBlob
import EnvelopeLog.KeyMaterial
import EnvelopeLog.Source
import EnvelopeLog.Frame
import EnvelopeLog.Envelope
import EnvelopeLog.Log
import EnvelopeLog.Sink
import EnvelopeLog.Sink.Script
import EnvelopeLog.Writer
import EnvelopeLog.Hook
import EnvelopeLog.Appender
import EnvelopeLog.FileSystem.Path
import EnvelopeLog.FileSystem.Basic
import EnvelopeLog.FileSystem.Access
import EnvelopeLog.KeyPair
import EnvelopeLog.LogFile
import EnvelopeLog.Command.Arguments
import EnvelopeLog.Command.Help
import EnvelopeLog.Command.Run
import EnvelopeLog.Main
import EnvelopeLog.Proofs.Bytes
import EnvelopeLog.Proofs.Rsa.Arithmetic
import EnvelopeLog.Proofs.Rsa.Prime
import EnvelopeLog.Proofs.Rsa.Examination
import EnvelopeLog.Proofs.Rsa.Key
import EnvelopeLog.Proofs.Rsa.Oaep
import EnvelopeLog.Proofs.Cipher.Aes
import EnvelopeLog.Proofs.Cipher.Gcm
import EnvelopeLog.Proofs.Cipher.Field
import EnvelopeLog.Proofs.Cipher.Tag
import EnvelopeLog.Proofs.Source
import EnvelopeLog.Proofs.Frame
import EnvelopeLog.Proofs.Envelope
import EnvelopeLog.Proofs.Log
import EnvelopeLog.Proofs.Journal
import EnvelopeLog.Proofs.Sink
import EnvelopeLog.Proofs.Writer.Session
import EnvelopeLog.Proofs.Writer.Accounting
import EnvelopeLog.Proofs.Writer.Poisoning
import EnvelopeLog.Proofs.RoundTrip
import EnvelopeLog.Proofs.Frame.Exact
import EnvelopeLog.Proofs.Frame.Reader
import EnvelopeLog.Proofs.Delivery
import EnvelopeLog.Proofs.Text.Base64
import EnvelopeLog.Proofs.KeyBlob
import EnvelopeLog.Proofs.Json.Forms
import EnvelopeLog.Proofs.Json.Objects
import EnvelopeLog.Proofs.Json.Numbers
import EnvelopeLog.Proofs.Json.Listings
import EnvelopeLog.Proofs.Json.Printer
import EnvelopeLog.Proofs.Settings
import EnvelopeLog.Proofs.KeyBlob.Export
import EnvelopeLog.Proofs.KeyBlob.Arrangement
import EnvelopeLog.Proofs.KeyBlob.PublicHalf
import EnvelopeLog.Proofs.KeyBlob.Canonical
import EnvelopeLog.Proofs.FileSystem
import EnvelopeLog.Proofs.FileSystem.Writing
import EnvelopeLog.Proofs.FileSystem.Directories
import EnvelopeLog.Proofs.KeyPair
import EnvelopeLog.Proofs.LogFile
import EnvelopeLog.Proofs.Log.Joining
import EnvelopeLog.Proofs.Log.Tampering
import EnvelopeLog.Proofs.LogFile.Decrypting
import EnvelopeLog.Proofs.Writer.Operation
import EnvelopeLog.Proofs.Writer.Freshness
import EnvelopeLog.Proofs.Writer.Gain
import EnvelopeLog.Proofs.Writer.Lengths
import EnvelopeLog.Proofs.Writer.LifeCycle
import EnvelopeLog.Proofs.Writer.Retry
import EnvelopeLog.Proofs.LogFile.Growth
import EnvelopeLog.Proofs.Appender
import EnvelopeLog.Proofs.SharedLog
import EnvelopeLog.Proofs.LogFile.InPlace
import EnvelopeLog.Proofs.Writer.Regrouping
import EnvelopeLog.Proofs.Appender.Entries
import EnvelopeLog.Proofs.Appender.Failures
import EnvelopeLog.Proofs.Appender.Closing
