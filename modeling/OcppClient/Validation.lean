import OcppClient.Errors

/-!
# Schema violations

`validation_error_parts` of `error.rs` and the `From<ValidationError>` of each version: the
CALLERROR that answers a payload `ocpp_types` found in violation of its schema. The details carry
the path of the offending field, so that a peer need not parse the description.
-/

namespace OcppClient

/-- `ocpp_types::validate::PathSegment`. -/
inductive PathSegment
  | field (name : String)
  | index (index : ℕ)
  deriving DecidableEq

/-- `ocpp_types::validate::ConstraintClass`. -/
inductive ConstraintClass
  | property
  | occurrence
  deriving DecidableEq

/-- What of `ocpp_types::validate::ValidationError` is read: its path, whether the path lost its
first segments, the class of its kind, and the text its `Display` writes. -/
structure ValidationError where
  path : List PathSegment
  pathTruncated : Bool
  constraintClass : ConstraintClass
  text : String

/-- One round of the loop over `error.path().iter().enumerate()`. -/
def pushSegment (pathTruncated : Bool) (path : String) : PathSegment × ℕ → String
  | (.field name, position) =>
    (if position > 0 || pathTruncated then path.push '.' else path) ++ name
  | (.index index, _) => path ++ s!"[{index}]"

def detailsPath (error : ValidationError) : String :=
  let path := if error.pathTruncated then "..." else ""
  let path := if error.path.isEmpty && !error.pathTruncated then path ++ "<payload>" else path
  error.path.zipIdx.foldl (pushSegment error.pathTruncated) path

/-- The description and the details. -/
def validationErrorParts (error : ValidationError) : String × Value :=
  (error.text, .object [("path", .string (detailsPath error))])

/-- `details["path"]`, where it is a string. -/
def pathOf : Value → Option String
  | .object fields =>
    match fields.lookup "path" with
    | some (.string path) => some path
    | _ => none
  | _ => none

/-- The versions' `From<ValidationError>`, which differ in the code of a class. -/
def RpcError.fromValidation {C : Type} (code : ConstraintClass → C) (error : ValidationError) :
    RpcError C :=
  let (description, details) := validationErrorParts error
  ⟨code error.constraintClass, description, details⟩

def OCPP1_6Error.fromValidation : ValidationError → OCPP1_6Error :=
  RpcError.fromValidation fun
    | .property => .propertyConstraintViolation
    | .occurrence => .occurenceConstraintViolation

def OCPP2_0_1Error.fromValidation : ValidationError → OCPP2_0_1Error :=
  RpcError.fromValidation fun
    | .property => .propertyConstraintViolation
    | .occurrence => .occurrenceConstraintViolation

def OCPP2_1Error.fromValidation : ValidationError → OCPP2_1Error :=
  RpcError.fromValidation fun
    | .property => .propertyConstraintViolation
    | .occurrence => .occurrenceConstraintViolation

def Version.fromValidation : (ver : Version) → ValidationError → ver.Error
  | .v16 => OCPP1_6Error.fromValidation
  | .v201 => OCPP2_0_1Error.fromValidation
  | .v21 => OCPP2_1Error.fromValidation

end OcppClient
