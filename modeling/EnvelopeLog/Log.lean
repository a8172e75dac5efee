import EnvelopeLog.Envelope
import EnvelopeLog.Settings

/-!
# Logs

Opening a log opens its frames one after the other and joins their payloads. The first frame that cannot be read or opened
decides: there is no partial answer.
-/

namespace EnvelopeLog

namespace Log

/-- The payloads of the frames that a source delivers, joined, no field of a frame being longer than the limit. -/
def decrypt (k : Rsa.PrivateKey) (limit : Nat) (s : Source) : Except Error Bytes × Source :=
  match _h : (Frame.read KeyMaterial.nonceSize limit).run s with
  | (.error e, s') => (.error e, s')
  | (.ok none, s') => (.ok [], s')
  | (.ok (some f), s') =>
    match openFrame k f with
    | .error e => (.error (.library e), s')
    | .ok payload =>
      match decrypt k limit s' with
      | (.error e, s'') => (.error e, s'')
      | (.ok rest, s'') => (.ok (payload ++ rest), s'')
termination_by s.unread.length
decreasing_by exact Frame.unread_lt_of_read _h

/-- The payload of the log that a byte string is. -/
def decryptBytes (k : Rsa.PrivateKey) (limit : Nat) (b : Bytes) : Except Error Bytes :=
  (decrypt k limit (Source.ofBytes b)).1

/-- The limit of a reader without settings of its own. -/
def defaultLimit : Nat := ({} : Settings).maxFieldLength.toNat

end Log

end EnvelopeLog
