import EnvelopeLog.Json.Fault
import EnvelopeLog.Rsa.Key
import EnvelopeLog.Text.Base64

/-!
# Faults

Everything that can go wrong, by cause, with the words for it. Faults of the library proper and faults of input and output
are kept apart: an `Error` is one or the other, and a fault of input and output may carry one of the library to a caller
who only knows input and output. Converting to and fro keeps faults of input and output as they are.
-/

namespace EnvelopeLog

/-- A cause that the library knows, or one in the words of a caller. -/
inductive Reason (α : Type) where
  | cause (a : α)
  | words (text : String)
deriving DecidableEq, Repr

/-- The words for a reason. -/
def Reason.message {α : Type} (render : α → String) : Reason α → String
  | .cause a => render a
  | .words text => text

/-! ## Frames -/

/-- The fields of a frame whose length is written before them. -/
inductive FrameField where
  | wrappedKey
  | cipherText
deriving DecidableEq, Repr

/-- The name of a field in messages. -/
def FrameField.name : FrameField → String
  | .wrappedKey => "wrapped key"
  | .cipherText => "cipher text"

/-- Why bytes are no frame, or a frame cannot be laid out. -/
inductive FrameFault where
  /-- The bytes end within the length of the wrapped key. -/
  | tornStart (got : Nat)
  | overLimit (field : FrameField) (length limit : Nat)
  | truncated (field : FrameField) (expected got : Nat)
  | tornNonce (expected got : Nat)
  /-- The bytes end within the length of the cipher text. -/
  | tornLength (got : Nat)
  /-- The length of a field does not fit its four bytes. -/
  | tooLong (field : FrameField)
deriving DecidableEq, Repr

/-- The words for a fault of a frame. -/
def FrameFault.message : FrameFault → String
  | .tornStart got => s!"stream ends {got} bytes into a wrapped-key length prefix"
  | .overLimit field length limit => s!"{field.name} length {length} exceeds the limit of {limit} bytes"
  | .truncated field expected got => s!"{field.name} truncated: expected {expected} bytes, got {got}"
  | .tornNonce expected got => s!"nonce truncated: expected {expected} bytes, got {got}"
  | .tornLength got => s!"cipher-text length prefix truncated: got {got} of 4 bytes"
  | .tooLong field => s!"{field.name} is too long for a u32 length prefix"

/-! ## Settings -/

/-- Why settings are refused. -/
inductive SettingsFault where
  | keyBitsOutOfRange (bits : Nat)
  | keyBitsNotBytes (bits : Nat)
  | zeroFieldLimit
  | zeroChunk
  /-- A slice that no memory could hold. -/
  | chunkTooLarge
deriving DecidableEq, Repr

/-- The words for a fault of the settings. -/
def SettingsFault.message : SettingsFault → String
  | .keyBitsOutOfRange bits => s!"RSA key size must be 1024..=4096 bits, got {bits}"
  | .keyBitsNotBytes bits => s!"RSA key size must be a multiple of 8 bits, got {bits}"
  | .zeroFieldLimit => "max_field_len must be greater than zero"
  | .zeroChunk => "chunk size must be greater than zero"
  | .chunkTooLarge => "capacity overflow"

/-! ## Keys -/

/-- Why the parameters of a key make no key. -/
inductive KeyDefect where
  | base64 (field : String) (fault : Base64.Fault)
  | empty (field : String)
  | missing (field : String)
  | publicRefused (refusal : Rsa.Refusal)
  | privateRefused (refusal : Rsa.Refusal)
  /-- The numbers for fast decryption cannot be derived. -/
  | noShortcut (refusal : Rsa.Refusal)
  /-- A stored number differs from the derived one. -/
  | inconsistent (field : String)
  | publicOnly
  | notTwoPrimes
deriving DecidableEq, Repr

/-- The words for a defect of a key. -/
def KeyDefect.message : KeyDefect → String
  | .base64 field fault => s!"field {field} is not valid base64: {fault.message}"
  | .empty field => s!"field {field} is empty"
  | .missing field => s!"private key blob is missing field {field}"
  | .publicRefused refusal => s!"invalid public key: {refusal.message}"
  | .privateRefused refusal => s!"invalid private key: {refusal.message}"
  | .noShortcut refusal => s!"CRT precomputation failed: {refusal.message}"
  | .inconsistent field => s!"field {field} is inconsistent with the key's primes"
  | .publicOnly => "blob holds a public key only; a private key is required"
  | .notTwoPrimes => "only two-prime RSA keys can be exported"

/-- What can go wrong with a key or its use. -/
inductive KeyFault where
  | generation (refusal : Rsa.Refusal)
  | size (reason : Reason SettingsFault)
  | encryption (refusal : Rsa.Refusal)
  | decryption (refusal : Rsa.Refusal)
  | invalid (reason : Reason KeyDefect)
  /-- The text of a key is not of the right form. -/
  | form (fault : Json.Fault)
deriving DecidableEq, Repr

/-- The words for a fault of the settings, with what they are about. -/
def SettingsFault.report (f : SettingsFault) : String := s!"configuration error: {f.message}"

/-- The words for a fault of a key. -/
def KeyFault.message : KeyFault → String
  | .generation refusal => s!"RSA key generation failed: {refusal.message}"
  | .size reason => s!"unsupported RSA key size: {reason.message SettingsFault.report}"
  | .encryption refusal => s!"RSA encryption failed: {refusal.message}"
  | .decryption refusal => s!"RSA decryption failed: {refusal.message}"
  | .invalid reason => s!"invalid RSA key: {reason.message KeyDefect.message}"
  | .form fault => s!"key blob serialization failed: {fault.message}"

/-- The faults behind a fault of a key, in words. -/
def KeyFault.causes : KeyFault → List String
  | .generation refusal | .encryption refusal | .decryption refusal => [refusal.message]
  | .form fault => [fault.message]
  | .size _ | .invalid _ => []

/-! ## Payloads -/

/-- What can go wrong with a payload and its key material. -/
inductive CipherFault where
  | keySize (expected actual : Nat)
  | nonceSize (expected actual : Nat)
  | decryption
  /-- The payload has fewer bytes, as many as the cause says, than a tag. -/
  | malformed (reason : Reason Nat)
deriving DecidableEq, Repr

/-- The words for a fault of a payload. -/
def CipherFault.message : CipherFault → String
  | .keySize expected actual => s!"Invalid key size: expected {expected}, got {actual}"
  | .nonceSize expected actual => s!"Invalid nonce size: expected {expected}, got {actual}"
  | .decryption => "Decryption failed"
  | .malformed reason =>
    let short (length : Nat) : String := s!"ciphertext of {length} bytes is shorter than the 16-byte tag"
    s!"Ciphertext is malformed or truncated: {reason.message short}"

/-- Why a wrapped key cannot be used. -/
inductive UnwrapFault where
  | refused (fault : KeyFault)
  | length (actual expected : Nat)
deriving DecidableEq, Repr

/-- The words for a fault of a wrapped key. -/
def UnwrapFault.message : UnwrapFault → String
  | .refused fault => fault.message
  | .length actual expected => s!"unwrapped key is {actual} bytes, expected {expected}"

/-! ## Faults of the library -/

/-- A fault other than one of input and output. -/
inductive Fault where
  | unsupported (operation : String)
  | framing (reason : Reason FrameFault)
  | keyMismatch (reason : Reason UnwrapFault)
  | payloadAuthentication
  | key (reason : Reason KeyFault)
  | settings (reason : Reason SettingsFault)
  | rsa (fault : KeyFault)
  | cipher (fault : CipherFault)
  | json (fault : Json.Fault)
deriving DecidableEq, Repr

/-- The words for a fault. -/
def Fault.message : Fault → String
  | .unsupported operation => s!"operation `{operation}` is not supported on a write-only encrypting stream"
  | .framing reason => s!"malformed frame: {reason.message FrameFault.message}"
  | .keyMismatch reason =>
    let why := reason.message UnwrapFault.message
    s!"wrapped key could not be unwrapped (wrong private key or corrupted data): {why}"
  | .payloadAuthentication => "frame payload failed authentication"
  | .key reason => s!"invalid key material: {reason.message KeyFault.message}"
  | .settings reason => s!"configuration error: {reason.message SettingsFault.message}"
  | .rsa fault => s!"RSA error: {fault.message}"
  | .cipher fault => s!"AES-GCM error: {fault.message}"
  | .json fault => s!"serialization error (JSON): {fault.message}"

/-- The faults behind a fault, the nearest first, in words. -/
def Fault.causes : Fault → List String
  | .rsa fault => fault.message :: fault.causes
  | .cipher fault => [fault.message]
  | .json fault => [fault.message]
  | _ => []

/-! ## Input and output -/

/-- The kinds of faults of input and output. -/
inductive IoKind where
  | notFound
  | permissionDenied
  | connectionRefused
  | connectionReset
  | hostUnreachable
  | networkUnreachable
  | connectionAborted
  | notConnected
  | addrInUse
  | addrNotAvailable
  | networkDown
  | brokenPipe
  | alreadyExists
  | wouldBlock
  | notADirectory
  | isADirectory
  | directoryNotEmpty
  | readOnlyFilesystem
  | staleNetworkFileHandle
  | invalidInput
  | invalidData
  | timedOut
  | writeZero
  | storageFull
  | notSeekable
  | quotaExceeded
  | fileTooLarge
  | resourceBusy
  | executableFileBusy
  | deadlock
  | crossesDevices
  | tooManyLinks
  | invalidFilename
  | argumentListTooLong
  | interrupted
  | unsupported
  | unexpectedEof
  | outOfMemory
  | other
deriving DecidableEq, Repr

/-- What the operating system answers when it refuses. -/
inductive OsFault where
  | notFound
  | alreadyExists
  | notADirectory
  | isADirectory
  | storageFull
  | nameTooLong
  /-- A path that contains a zero character, which the operating system is not even asked about. -/
  | nulInPath
deriving DecidableEq, Repr

/-- The kind of an answer of the operating system. -/
def OsFault.kind : OsFault → IoKind
  | .notFound => .notFound
  | .alreadyExists => .alreadyExists
  | .notADirectory => .notADirectory
  | .isADirectory => .isADirectory
  | .storageFull => .storageFull
  | .nameTooLong => .invalidFilename
  | .nulInPath => .invalidInput

theorem OsFault.kind_ne_interrupted (fault : OsFault) : fault.kind ≠ .interrupted := by
  cases fault <;> decide

/-- The words and the number of an answer of the operating system. -/
def OsFault.message : OsFault → String
  | .notFound => "No such file or directory (os error 2)"
  | .alreadyExists => "File exists (os error 17)"
  | .notADirectory => "Not a directory (os error 20)"
  | .isADirectory => "Is a directory (os error 21)"
  | .storageFull => "No space left on device (os error 28)"
  | .nameTooLong => "File name too long (os error 36)"
  | .nulInPath => "file name contained an unexpected NUL byte"

/-- A fault of input and output. -/
inductive IoFault where
  | os (fault : OsFault)
  /-- A sink that takes no byte of what it is given. -/
  | writeZero
  /-- A fault in words. -/
  | told (kind : IoKind) (text : String)
  /-- A fault of the library, as it passes through an interface of input and output. -/
  | carried (fault : Fault)
deriving DecidableEq, Repr

/-- The kind of a fault of input and output. -/
def IoFault.kind : IoFault → IoKind
  | .os fault => fault.kind
  | .writeZero => .writeZero
  | .told kind _ => kind
  | .carried (.unsupported _) => .unsupported
  | .carried _ => .other

/-- The words for a fault of input and output. -/
def IoFault.message : IoFault → String
  | .os fault => fault.message
  | .writeZero => "write zero"
  | .told _ text => text
  | .carried fault => fault.message

/-- The faults behind a fault of input and output, in words; a fault that is carried is none of them. -/
def IoFault.causes : IoFault → List String
  | .carried fault => fault.causes
  | _ => []

/-! ## Errors -/

/-- What an operation of the library answers when it fails. -/
inductive Error where
  | library (fault : Fault)
  | io (fault : IoFault)
deriving DecidableEq, Repr

/-- The words for an error. -/
def Error.message : Error → String
  | .library fault => fault.message
  | .io fault => s!"I/O error: {fault.message}"

/-- The faults behind an error, the nearest first, in words. -/
def Error.causes : Error → List String
  | .library fault => fault.causes
  | .io fault => fault.message :: fault.causes

/-- The error as a fault of input and output. -/
def Error.toIo : Error → IoFault
  | .library fault => .carried fault
  | .io fault => fault

end EnvelopeLog
