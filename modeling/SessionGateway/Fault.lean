import SessionGateway.Identity.Response
import SessionGateway.Transport
/-!
# Errors

What can go wrong with the shared cache, with opening a connection and with dispatching a frame:
each error with its text, its kind and, for a frame, the processor that it concerns.
-/

namespace SessionGateway

/-- An error of the shared cache. -/
inductive CacheError where
  /-- The backend's server failed or answered with an error. -/
  | redis
  /-- A cached value does not decode. -/
  | malformed
  | wrongType (key : String)
  | unavailable (text : String)
  deriving DecidableEq, Repr, Inhabited

namespace CacheError

def message : CacheError → String
  | .redis => "redis"
  | .malformed => "cache value encoding"
  | .wrongType key => "key " ++ key ++ " holds a value of the wrong type"
  | .unavailable text => "cache unavailable: " ++ text

def kind (_ : CacheError) : FailureKind := .registration

end CacheError

/-- Why a connection could not be registered. -/
inductive OpenError where
  | unrecognizedTransport
  | unclassified
  | identity (e : Identity.Error)
  | lockTimeout (after : Duration)
  | cache (e : CacheError)
  deriving DecidableEq, Repr, Inhabited

namespace OpenError

def message : OpenError → String
  | .unrecognizedTransport => "transport not recognized"
  | .unclassified => "handshake attributes match no connection kind"
  | .identity e => e.message
  | .lockTimeout after => "registration lock not acquired within " ++ after.text
  | .cache e => e.message

def kind : OpenError → FailureKind
  | .unrecognizedTransport | .unclassified => .classification
  | .identity e => e.kind
  | .lockTimeout _ => .registrationTimeout
  | .cache e => e.kind

end OpenError

/-- An error that a processor gives back. -/
inductive ProcessorError where
  | invalidMessage (text : String)
  | failed (text : String)
  deriving DecidableEq, Repr, Inhabited

namespace ProcessorError

def message : ProcessorError → String
  | .invalidMessage text => "invalid message: " ++ text
  | .failed text => text

def kind : ProcessorError → FailureKind
  | .invalidMessage _ => .dispatchDecode
  | .failed _ => .processor

end ProcessorError

/-- Why a frame did not reach a processor, or any. -/
inductive DispatchError where
  | undecodable
  | processor (name : String) (e : ProcessorError)
  | timeout (name : String) (after : Duration)
  | unauthenticated (name : String) (e : Identity.Error)
  deriving DecidableEq, Repr, Inhabited

namespace DispatchError

def message : DispatchError → String
  | .undecodable => "frame does not decode"
  | .processor name e => "processor " ++ name ++ " failed: " ++ e.message
  | .timeout name after => "processor " ++ name ++ " timed out after " ++ after.text
  | .unauthenticated name e =>
    "processor " ++ name ++ " skipped, credential did not resolve: " ++ e.message

def kind : DispatchError → FailureKind
  | .undecodable => .dispatchDecode
  | .processor _ e => e.kind
  | .timeout _ _ => .processor
  | .unauthenticated _ e => e.kind

/-- The processor that the error concerns; none if the frame reached no processor at all. -/
def processorName? : DispatchError → Option String
  | .undecodable => none
  | .processor name _ | .timeout name _ | .unauthenticated name _ => some name

end DispatchError

end SessionGateway
