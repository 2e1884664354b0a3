import DiagBus.Proofs.Bytes
import DiagBus.Proofs.FailedRequests

namespace DiagBus

variable {ω : Type}

/-- The bytes of a number say nothing of it beyond their width. -/
theorem bigEndian_mod (width value : Nat) :
    bigEndian width (value % 256 ^ width) = bigEndian width value := by
  induction width generalizing value with
  | zero => rfl
  | succ width ih =>
    have power : (2 : Nat) ^ (8 * width) = 256 ^ width := by rw [pow_mul]; norm_num
    have byte : value % 256 ^ (width + 1) / 256 ^ width = value / 256 ^ width % 256 := by
      rw [pow_succ, Nat.mod_mul_right_div_self]
    have rest : value % 256 ^ (width + 1) % 256 ^ width = value % 256 ^ width :=
      Nat.mod_mod_of_dvd _ (pow_dvd_pow _ (Nat.le_succ width))
    rw [bigEndian, bigEndian, ← ih (value % 256 ^ (width + 1)), rest, ih]
    congr 1
    simp only [Nat.shiftRight_eq_div_pow, power, byte]
    exact UInt8.toNat_inj.mp (by simp)

namespace Request

/-- What the bytes of a request say of it. -/
def stated : Request → Request
  | .clearCodes group => .clearCodes (group % 0x1000000)
  | request => request

/-- The request for a service that these parameters belong to. -/
def ofParameters? : Service → List UInt8 → Option Request
  | .sessionControl, [target] => some (.session target)
  | .ecuReset, [kind] => some (.reset kind)
  | .securityAccess, subFunction :: parameter => some (.security subFunction parameter)
  | .testerPresent, [subFunction] => some (.testerPresent subFunction)
  | .readDataByLocalIdentifier, [identifier] => some (.readLocal identifier)
  | .readDataByIdentifier, [high, low] => some (.read (ofBigEndian [high, low]).toUInt16)
  | .writeDataByIdentifier, high :: low :: record =>
    some (.write (ofBigEndian [high, low]).toUInt16 record)
  | .routineControl, subFunction :: high :: low :: option =>
    some (.routine subFunction (ofBigEndian [high, low]).toUInt16 option)
  | .clearDiagnosticInformation, [high, middle, low] =>
    some (.clearCodes (ofBigEndian [high, middle, low]).toUInt32)
  | .readDtcInformation, [subFunction, mask] => some (.readCodes subFunction mask)
  | .inputOutputControl, high :: low :: parameter :: state =>
    some (.control (ofBigEndian [high, low]).toUInt16 parameter state)
  | _, _ => none

/-- The request that a server reads from a message. -/
def ofBytes? : List UInt8 → Option Request
  | [] => none
  | service :: parameters => (Service.ofByte? service).bind (ofParameters? · parameters)

/-- An identifier is read back from its two bytes. -/
theorem ofBigEndian_identifier (identifier : UInt16) :
    (ofBigEndian (bigEndian 2 identifier.toNat)).toUInt16 = identifier := by
  have small : identifier.toNat % 256 ^ 2 = identifier.toNat :=
    Nat.mod_eq_of_lt identifier.toNat_lt
  rw [ofBigEndian_bigEndian, small]
  exact UInt16.ofNat_toNat

/-- Three bytes say of a group its low 24 bits. -/
theorem ofBigEndian_group (group : UInt32) :
    (ofBigEndian (bigEndian 3 group.toNat)).toUInt32 = group % 0x1000000 := by
  rw [ofBigEndian_bigEndian]
  apply UInt32.toNat_inj.mp
  have bound := group.toNat_lt
  simp
  omega

theorem ofParameters?_parameters (request : Request) :
    ofParameters? request.service request.parameters = some request.stated := by
  cases request with
  | read identifier => exact congrArg (some <| read ·) (ofBigEndian_identifier identifier)
  | write identifier record =>
    exact congrArg (some <| write · record) (ofBigEndian_identifier identifier)
  | routine subFunction identifier option =>
    exact congrArg (some <| routine subFunction · option) (ofBigEndian_identifier identifier)
  | control identifier parameter state =>
    exact congrArg (some <| control · parameter state) (ofBigEndian_identifier identifier)
  | clearCodes group => exact congrArg (some <| clearCodes ·) (ofBigEndian_group group)
  | _ => rfl

/-- A server reads from the bytes of a request what they say of it. -/
theorem ofBytes?_bytes (request : Request) : ofBytes? request.bytes = some request.stated := by
  rw [bytes, ofBytes?, Service.ofByte?_toByte, Option.bind_some, ofParameters?_parameters]

theorem bytes_stated (request : Request) : request.stated.bytes = request.bytes := by
  cases request with
  | clearCodes group =>
    have low : (group % 0x1000000).toNat = group.toNat % 256 ^ 3 := UInt32.toNat_mod ..
    simp only [stated, bytes, service, parameters, low, bigEndian_mod]
  | _ => rfl

/-- Requests have the same bytes if these say the same of them, and only then. -/
theorem bytes_eq_iff {first second : Request} :
    first.bytes = second.bytes ↔ first.stated = second.stated := by
  constructor
  · intro same
    have read := ofBytes?_bytes first
    rw [same, ofBytes?_bytes second] at read
    exact (Option.some.inj read).symm
  · intro same
    rw [← bytes_stated first, same, bytes_stated second]

end Request

/-- The request that a call to a client makes, if it is made by the name of its service. -/
def Deed.request? : Deed ω → Option Request
  | .request _ made => some made
  | .startSession _ _ session => some (.session session)
  | _ => none

/-- The client asks for this message to be sent, and its stack takes it. -/
structure Deed.Hands (deed : Deed ω) (desk : Desk ω) (message : List UInt8) : Prop where
  asks : ∃ now expectsAnswer, deed.asks? = some (now, message, expectsAnswer)
  taken : ∃ now ready, deed.Readies desk ready ∧
    (ready.send now desk.client.connection message).1 = .ok () ∧
    (deed.run desk).stack = (ready.send now desk.client.connection message).2

theorem Deed.Hands.unique {deed : Deed ω} {desk : Desk ω} {message other : List UInt8}
    (hands : deed.Hands desk message) (again : deed.Hands desk other) : other = message := by
  obtain ⟨_, _, asks⟩ := hands.asks
  obtain ⟨_, _, same⟩ := again.asks
  rw [asks] at same
  cases same
  rfl

/-- A request that is accepted was sent by the stack. -/
theorem Client.request_taken {client : Client} {now : Tick} {request : Request} {stack : Stack ω}
    (accepted : (client.request now request stack).1 = .ok ()) :
    (stack.send now client.connection request.bytes).1 = .ok () ∧
      (client.request now request stack).2.2 =
        (stack.send now client.connection request.bytes).2 := by
  rw [Client.request_eq] at accepted ⊢
  split
  · rename_i idle
    rw [if_pos idle, Client.send_eq] at accepted
    rw [Client.send_eq]
    rcases sending : stack.send now client.connection request.bytes with ⟨fault | _, after⟩
    · rw [sending] at accepted
      cases accepted
    · exact ⟨rfl, rfl⟩
  · rename_i busy
    rw [if_neg busy] at accepted
    cases accepted

/-- An accepted call hands over the bytes of its request. -/
theorem Deed.hands {deed : Deed ω} {desk : Desk ω} {request : Request}
    (makes : deed.request? = some request) (accepted : deed.answer desk = .ok ()) :
    deed.Hands desk request.bytes := by
  cases deed with
  | request now made =>
    cases makes
    exact ⟨⟨now, _, rfl⟩, now, desk.stack, .same, Client.request_taken accepted⟩
  | startSession now address session =>
    cases makes
    refine ⟨⟨now, _, rfl⟩, now, ?_⟩
    simp only [Deed.answer, Deed.run, Desk.adopt, Client.startSession] at accepted ⊢
    split
    · rename_i busy
      rw [if_pos busy] at accepted
      cases accepted
    · rename_i idle
      rw [if_neg idle] at accepted
      rcases desk.stack.bind_cases desk.client.connection address with
        ⟨fault, _, refused⟩ | ⟨connection, live, rests, bound⟩
      · rw [refused] at accepted
        cases accepted
      · rw [bound] at accepted ⊢
        exact ⟨_, .readdressed rfl live rests, Client.request_taken accepted⟩
  | _ => cases makes

/-- Two calls that make a request by its name and are accepted, of any clients at any time, each hand
a message over. It is the same message just if both make the same request with the same parameters,
a group of trouble codes taken for its low 24 bits. -/
theorem requests_are_uniquely_decodable {first second : Deed ω} {one other : Request}
    {here there : Desk ω} (makes : first.request? = some one)
    (makesOther : second.request? = some other) (accepted : first.answer here = .ok ())
    (acceptedOther : second.answer there = .ok ()) :
    (∃ message, first.Hands here message) ∧ (∃ message, second.Hands there message) ∧
      ∀ message, first.Hands here message →
        (second.Hands there message ↔ one.stated = other.stated) := by
  have hands := Deed.hands makes accepted
  have handsOther := Deed.hands makesOther acceptedOther
  refine ⟨⟨_, hands⟩, ⟨_, handsOther⟩, fun message handed => ?_⟩
  rw [← Request.bytes_eq_iff, ← handed.unique hands]
  constructor
  · intro handedOther
    exact (handedOther.unique handsOther).symm
  · intro same
    rw [same]
    exact handsOther

/-- The client's connection is bound to the obliging interface. -/
def sampleReadyDesk : Desk Unit :=
  sampleDesk.calls [.deed (.call (.bind sampleHandle sampleAddress))]

/-- The request of a session and that of a routine, by two clients. -/
theorem sample_requests_are_uniquely_decodable :
    let first : Deed Unit := .startSession 0 sampleAddress 3
    let second : Deed Unit := .request 7 (.routine 3 0x1003 [0x31])
    first.answer sampleDesk = .ok () ∧ second.answer sampleReadyDesk = .ok () ∧
      (∃ message, first.Hands sampleDesk message) ∧
      (∃ message, second.Hands sampleReadyDesk message) ∧
      ∀ message, first.Hands sampleDesk message →
        (second.Hands sampleReadyDesk message ↔
          (Request.session 3).stated = (Request.routine 3 0x1003 [0x31]).stated) := by
  intro first second
  have accepted : first.answer sampleDesk = .ok () := rfl
  have acceptedOther : second.answer sampleReadyDesk = .ok () := rfl
  exact ⟨accepted, acceptedOther,
    requests_are_uniquely_decodable rfl rfl accepted acceptedOther⟩

/-- To clear a group of trouble codes that takes more than 24 bits, the client sends what it sends to
clear another group. -/
theorem groups_share_their_bytes :
    let first : Deed Unit := .request 0 (.clearCodes 0x123456)
    let second : Deed Unit := .request 0 (.clearCodes 0x1123456)
    first.answer sampleReadyDesk = .ok () ∧ second.answer sampleReadyDesk = .ok () ∧
      first.Hands sampleReadyDesk [0x14, 0x12, 0x34, 0x56] ∧
      second.Hands sampleReadyDesk [0x14, 0x12, 0x34, 0x56] ∧
      Request.clearCodes 0x123456 ≠ .clearCodes 0x1123456 := by
  intro first second
  have accepted : first.answer sampleReadyDesk = .ok () := rfl
  have acceptedOther : second.answer sampleReadyDesk = .ok () := rfl
  have hands : first.Hands sampleReadyDesk (Request.clearCodes 0x123456).bytes :=
    Deed.hands rfl accepted
  have handsOther : second.Hands sampleReadyDesk (Request.clearCodes 0x1123456).bytes :=
    Deed.hands rfl acceptedOther
  exact ⟨accepted, acceptedOther, hands, handsOther, by decide⟩

end DiagBus
