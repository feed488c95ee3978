import OcppClient.Frame

/-!
# The errors of each version

`ocpp_1_6/error.rs`, `ocpp_2_0_1/error.rs` and `ocpp_2_1/error.rs`. An error is a code of its
version's table with a description and details. The table is written out twice in the source, in
`wire_code` and in `from_wire`; the second takes what it does not know for a `GenericError`.
-/

namespace OcppClient

/-- The codes of a version, and how they are spelled on the wire. -/
class ErrorTable (C : Type) where
  wireCode : C → String
  codeFromWire : String → C
  notImplemented : C
  codeFromWire_wireCode : ∀ c, codeFromWire (wireCode c) = c

/-- The error of a version whose codes are `C`. -/
structure RpcError (C : Type) where
  code : C
  description : String
  details : Value
  deriving DecidableEq

variable {C : Type} [ErrorTable C]

instance : ProtocolError (RpcError C) where
  code e := ErrorTable.wireCode e.code
  description e := e.description
  details e := e.details
  notImplemented action :=
    ⟨ErrorTable.notImplemented, s!"Action '{action}' is not implemented", .object []⟩
  fromWire code description details := ⟨ErrorTable.codeFromWire code, description, details⟩

/-- An error is read as it was written. -/
theorem fromWire_of_parts (e : RpcError C) :
    ProtocolError.fromWire (ProtocolError.code e) (ProtocolError.description e)
      (ProtocolError.details e) = e := by
  simp only [ProtocolError.fromWire, ProtocolError.code, ProtocolError.description,
    ProtocolError.details, ErrorTable.codeFromWire_wireCode]

/-! ## 1.6 -/

/-- `ocpp_types::v16::RpcErrorCode`; `occurenceConstraintViolation` has one `r` there. -/
inductive RpcErrorCode16
  | notImplemented
  | notSupported
  | internalError
  | protocolError
  | securityError
  | formationViolation
  | propertyConstraintViolation
  | occurenceConstraintViolation
  | typeConstraintViolation
  | genericError
  deriving DecidableEq

namespace RpcErrorCode16

def wireCode : RpcErrorCode16 → String
  | notImplemented => "NotImplemented"
  | notSupported => "NotSupported"
  | internalError => "InternalError"
  | protocolError => "ProtocolError"
  | securityError => "SecurityError"
  | formationViolation => "FormationViolation"
  | propertyConstraintViolation => "PropertyConstraintViolation"
  | occurenceConstraintViolation => "OccurenceConstraintViolation"
  | typeConstraintViolation => "TypeConstraintViolation"
  | genericError => "GenericError"

def fromWire : String → RpcErrorCode16
  | "NotImplemented" => notImplemented
  | "NotSupported" => notSupported
  | "InternalError" => internalError
  | "ProtocolError" => protocolError
  | "SecurityError" => securityError
  | "FormationViolation" => formationViolation
  | "PropertyConstraintViolation" => propertyConstraintViolation
  | "OccurenceConstraintViolation" => occurenceConstraintViolation
  | "TypeConstraintViolation" => typeConstraintViolation
  | _ => genericError

instance : ErrorTable RpcErrorCode16 where
  wireCode := wireCode
  codeFromWire := fromWire
  notImplemented := notImplemented
  codeFromWire_wireCode c := by cases c <;> rfl

end RpcErrorCode16

abbrev OCPP1_6Error := RpcError RpcErrorCode16

/-! ## 2.0.1 and 2.1 -/

/-- `ocpp_types::v201::RpcErrorCode` and `ocpp_types::v21::RpcErrorCode`, which have the same
codes. -/
inductive RpcErrorCode2
  | formatViolation
  | genericError
  | internalError
  | messageTypeNotSupported
  | notImplemented
  | notSupported
  | occurrenceConstraintViolation
  | propertyConstraintViolation
  | protocolError
  | rpcFrameworkError
  | securityError
  | typeConstraintViolation
  deriving DecidableEq

namespace RpcErrorCode2

def wireCode : RpcErrorCode2 → String
  | formatViolation => "FormatViolation"
  | genericError => "GenericError"
  | internalError => "InternalError"
  | messageTypeNotSupported => "MessageTypeNotSupported"
  | notImplemented => "NotImplemented"
  | notSupported => "NotSupported"
  | occurrenceConstraintViolation => "OccurrenceConstraintViolation"
  | propertyConstraintViolation => "PropertyConstraintViolation"
  | protocolError => "ProtocolError"
  | rpcFrameworkError => "RpcFrameworkError"
  | securityError => "SecurityError"
  | typeConstraintViolation => "TypeConstraintViolation"

def fromWire : String → RpcErrorCode2
  | "FormatViolation" => formatViolation
  | "InternalError" => internalError
  | "MessageTypeNotSupported" => messageTypeNotSupported
  | "NotImplemented" => notImplemented
  | "NotSupported" => notSupported
  | "OccurrenceConstraintViolation" => occurrenceConstraintViolation
  | "PropertyConstraintViolation" => propertyConstraintViolation
  | "ProtocolError" => protocolError
  | "RpcFrameworkError" => rpcFrameworkError
  | "SecurityError" => securityError
  | "TypeConstraintViolation" => typeConstraintViolation
  | _ => genericError

instance : ErrorTable RpcErrorCode2 where
  wireCode := wireCode
  codeFromWire := fromWire
  notImplemented := notImplemented
  codeFromWire_wireCode c := by cases c <;> rfl

end RpcErrorCode2

abbrev OCPP2_0_1Error := RpcError RpcErrorCode2

abbrev OCPP2_1Error := RpcError RpcErrorCode2

/-! ## The versions -/

inductive Version
  | v16
  | v201
  | v21

/-- The error type a client of a version is instantiated at. -/
def Version.Error : Version → Type
  | .v16 => OCPP1_6Error
  | .v201 => OCPP2_0_1Error
  | .v21 => OCPP2_1Error

instance : (ver : Version) → ProtocolError ver.Error
  | .v16 => inferInstanceAs (ProtocolError OCPP1_6Error)
  | .v201 => inferInstanceAs (ProtocolError OCPP2_0_1Error)
  | .v21 => inferInstanceAs (ProtocolError OCPP2_1Error)

instance : (ver : Version) → DecidableEq ver.Error
  | .v16 => inferInstanceAs (DecidableEq OCPP1_6Error)
  | .v201 => inferInstanceAs (DecidableEq OCPP2_0_1Error)
  | .v21 => inferInstanceAs (DecidableEq OCPP2_1Error)

/-- In every version a peer reads the error that was written: its code, description and details. -/
theorem Version.fromWire_of_parts (ver : Version) (e : ver.Error) :
    ProtocolError.fromWire (ProtocolError.code e) (ProtocolError.description e)
      (ProtocolError.details e) = e := by
  cases ver with
  | v16 => exact OcppClient.fromWire_of_parts (C := RpcErrorCode16) e
  | v201 | v21 => exact OcppClient.fromWire_of_parts (C := RpcErrorCode2) e

end OcppClient
