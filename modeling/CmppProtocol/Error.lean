/-! # Errors -/

namespace CmppProtocol

/-- What can go wrong; the text of an `io` error is the system's. -/
inductive Error
  | io (message : String)
  | decode (message : String)
  | connect (message : String)
  | auth (status : UInt8)
  | authenticatorMismatch
  | timeout
  | closed
  | channelClosed
  | terminated
  | partialSubmit (sequenceIds : List UInt32) (source : Error)
  | resourceExhausted (message : String)
  | config (message : String)
  deriving DecidableEq, Repr

end CmppProtocol
