import SessionGateway.Json.Decode
/-!
# Kinds of failure

Every error of the gateway falls into one of six kinds. The kind is the label in logs and metrics,
and it decides whether the connection is closed.
-/

namespace SessionGateway

inductive FailureKind where
  /-- The attributes describe no connection kind, or the transport is not recognized. -/
  | classification
  /-- The identity service is unreachable or gave no principal. -/
  | authentication
  /-- The registration lock was not acquired in time. -/
  | registrationTimeout
  /-- Writing to the shared cache failed. -/
  | registration
  /-- A frame did not have the expected shape. -/
  | dispatchDecode
  /-- A processor failed or took too long. -/
  | processor
  deriving DecidableEq, Repr, Inhabited

namespace FailureKind

def all : List FailureKind :=
  [.classification, .authentication, .registrationTimeout, .registration, .dispatchDecode,
    .processor]

def label : FailureKind → String
  | .classification => "classification"
  | .authentication => "authentication"
  | .registrationTimeout => "registration_timeout"
  | .registration => "registration"
  | .dispatchDecode => "dispatch_decode"
  | .processor => "processor"

/-- Setup failures end the connection; a lock timeout leaves it open, and so do all failures while
frames are dispatched. -/
def closesConnection : FailureKind → Bool
  | .classification | .authentication | .registration => true
  | .registrationTimeout | .dispatchDecode | .processor => false

def decode : Json.Decoder FailureKind := .choice (all.map fun k => (k.label, k))

def toJson (k : FailureKind) : Json := .text k.label

end FailureKind

end SessionGateway
