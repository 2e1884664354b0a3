namespace DiagBus

/-- The services a client can request. -/
inductive Service
  | sessionControl
  | ecuReset
  | clearDiagnosticInformation
  | readDtcInformation
  | readDataByLocalIdentifier
  | readDataByIdentifier
  | securityAccess
  | writeDataByIdentifier
  | inputOutputControl
  | routineControl
  | testerPresent
  deriving DecidableEq

def Service.all : List Service :=
  [.sessionControl, .ecuReset, .clearDiagnosticInformation, .readDtcInformation,
    .readDataByLocalIdentifier, .readDataByIdentifier, .securityAccess, .writeDataByIdentifier,
    .inputOutputControl, .routineControl, .testerPresent]

/-- The first byte of a request. -/
def Service.toByte : Service → UInt8
  | .sessionControl => 0x10
  | .ecuReset => 0x11
  | .clearDiagnosticInformation => 0x14
  | .readDtcInformation => 0x19
  | .readDataByLocalIdentifier => 0x21
  | .readDataByIdentifier => 0x22
  | .securityAccess => 0x27
  | .writeDataByIdentifier => 0x2E
  | .inputOutputControl => 0x2F
  | .routineControl => 0x31
  | .testerPresent => 0x3E

def Service.ofByte? (byte : UInt8) : Option Service :=
  Service.all.find? fun service => service.toByte = byte

theorem Service.ofByte?_toByte (service : Service) :
    Service.ofByte? service.toByte = some service := by
  cases service <;> rfl

/-- Why a server rejects a request. -/
inductive ResponseCode
  | generalReject
  | serviceNotSupported
  | subFunctionNotSupported
  | incorrectMessageLengthOrInvalidFormat
  | responseTooLong
  | busyRepeatRequest
  | conditionsNotCorrect
  | requestSequenceError
  | requestOutOfRange
  | securityAccessDenied
  | invalidKey
  | exceededNumberOfAttempts
  | requiredTimeDelayNotExpired
  | generalProgrammingFailure
  | responsePending
  | subFunctionNotSupportedInActiveSession
  | serviceNotSupportedInActiveSession
  | other (byte : UInt8)
  deriving DecidableEq

/-- The codes with a name. -/
def ResponseCode.named : List ResponseCode :=
  [.generalReject, .serviceNotSupported, .subFunctionNotSupported,
    .incorrectMessageLengthOrInvalidFormat, .responseTooLong, .busyRepeatRequest,
    .conditionsNotCorrect, .requestSequenceError, .requestOutOfRange, .securityAccessDenied,
    .invalidKey, .exceededNumberOfAttempts, .requiredTimeDelayNotExpired,
    .generalProgrammingFailure, .responsePending, .subFunctionNotSupportedInActiveSession,
    .serviceNotSupportedInActiveSession]

def ResponseCode.toByte : ResponseCode → UInt8
  | .generalReject => 0x10
  | .serviceNotSupported => 0x11
  | .subFunctionNotSupported => 0x12
  | .incorrectMessageLengthOrInvalidFormat => 0x13
  | .responseTooLong => 0x14
  | .busyRepeatRequest => 0x21
  | .conditionsNotCorrect => 0x22
  | .requestSequenceError => 0x24
  | .requestOutOfRange => 0x31
  | .securityAccessDenied => 0x33
  | .invalidKey => 0x35
  | .exceededNumberOfAttempts => 0x36
  | .requiredTimeDelayNotExpired => 0x37
  | .generalProgrammingFailure => 0x72
  | .responsePending => 0x78
  | .subFunctionNotSupportedInActiveSession => 0x7E
  | .serviceNotSupportedInActiveSession => 0x7F
  | .other byte => byte

def ResponseCode.ofByte (byte : UInt8) : ResponseCode :=
  (ResponseCode.named.find? fun code => code.toByte = byte).getD (.other byte)

theorem ResponseCode.toByte_ofByte (byte : UInt8) : (ResponseCode.ofByte byte).toByte = byte := by
  unfold ResponseCode.ofByte
  cases found : ResponseCode.named.find? fun code => code.toByte = byte with
  | none => rfl
  | some code => simpa using List.find?_some found

/-- The first byte of a negative response. -/
def negativeResponse : UInt8 := 0x7F

/-- What a positive response adds to the service. -/
def positiveOffset : UInt8 := 0x40

/-- The bit of a sub-function that asks the server not to answer. -/
def suppressAnswer : UInt8 := 0x80

/-- The session a server starts in. -/
def defaultSession : UInt8 := 0x01

end DiagBus
