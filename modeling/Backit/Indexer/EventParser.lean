import Backit.CallRegistry.Types
import Backit.OutcomeManager.Types

/-!
# Events and their parser

## Events on the ledger

The topics and the data of every event that the registry and the outcome manager publish. A tuple is
published as a vector, and a string literal as a string.
-/

namespace Backit.Indexer

open Soroban

/-- A value as the host publishes it. -/
inductive ScVal where
  | bool (b : Bool)
  | void
  | u32 (n : Nat)
  | u64 (n : Nat)
  | i128 (n : Int)
  | bytes (b : Bytes)
  | string (s : String)
  | symbol (s : String)
  | vec (elements : List ScVal)
  | map (entries : List (ScVal × ScVal))
  | address (a : Address)

/-- A published event. -/
structure ContractEvent where
  topics : List ScVal
  data : ScVal

/-- An event under two string topics. -/
def named (contract event : String) (data : ScVal) : ContractEvent :=
  ⟨[.string contract, .string event], data⟩

/-- An event under two short symbols. -/
def symbols (subject event : String) (data : ScVal) : ContractEvent :=
  ⟨[.symbol subject, .symbol event], data⟩

def paramValue : CallRegistry.ParamValue → ScVal
  | .address value => .address value
  | .i128 value => .i128 value
  | .u32 value => .u32 value
  | .u64 value => .u64 value

/-- What the registry publishes for an event. -/
def registryEvent : CallRegistry.Event → ContractEvent
  | .initialized admin outcomeManager =>
    named "call_registry" "initialized" (.vec [.address admin, .address outcomeManager])
  | .callCreated callId creator stakeToken stakeAmount startPrice endTs tokenAddress pairId
      metadataHash outcomeCount =>
    named "call_registry" "call_created" (.vec [.u64 callId, .address creator,
      .address stakeToken, .i128 stakeAmount, .i128 startPrice, .u64 endTs,
      .address tokenAddress, .bytes pairId, .bytes metadataHash.bytes, .u32 outcomeCount])
  | .xlmCallCreated callId creator stakeAmount startPrice endTs tokenAddress pairId metadataHash
      outcomeCount =>
    named "call_registry" "xlm_call_created" (.vec [.u64 callId, .address creator,
      .i128 stakeAmount, .i128 startPrice, .u64 endTs, .address tokenAddress, .bytes pairId,
      .bytes metadataHash.bytes, .u32 outcomeCount])
  | .stakeAdded callId staker amount position =>
    named "call_registry" "stake_added"
      (.vec [.u64 callId, .address staker, .i128 amount, .u32 position])
  | .xlmStakeAdded callId staker amount position =>
    named "call_registry" "xlm_stake_added"
      (.vec [.u64 callId, .address staker, .i128 amount, .u32 position])
  | .callResolved callId outcome endPrice =>
    named "call_registry" "call_resolved" (.vec [.u64 callId, .u32 outcome, .i128 endPrice])
  | .adminParamsChanged param changedBy oldValue newValue =>
    named "call_registry" "admin_params_changed"
      (.vec [.symbol param, .address changedBy, paramValue oldValue, paramValue newValue])
  | .callCancelled callId creator refundedAmount =>
    named "call_registry" "call_cancelled"
      (.vec [.u64 callId, .address creator, .i128 refundedAmount])
  | .xlmCallCancelled callId creator refundedAmount =>
    named "call_registry" "xlm_call_cancelled"
      (.vec [.u64 callId, .address creator, .i128 refundedAmount])
  | .tokenWhitelisted token => named "call_registry" "token_whitelisted" (.address token)
  | .tokenDelisted token => named "call_registry" "token_delisted" (.address token)
  | .contractPaused admin => named "call_registry" "contract_paused" (.address admin)
  | .contractUnpaused admin => named "call_registry" "contract_unpaused" (.address admin)
  | .callMetadataUpdated callId creator oldHash newHash version =>
    symbols "call" "meta_upd" (.vec [.u64 callId, .address creator, .bytes oldHash.bytes,
      .bytes newHash.bytes, .u32 version])
  | .operationProposed proposalId proposer =>
    named "call_registry" "operation_proposed" (.vec [.u64 proposalId, .address proposer])
  | .proposalApproved proposalId approver =>
    named "call_registry" "proposal_approved" (.vec [.u64 proposalId, .address approver])
  | .proposalVetoed proposalId vetoer =>
    named "call_registry" "proposal_vetoed" (.vec [.u64 proposalId, .address vetoer])
  | .proposalExecuted proposalId executor =>
    named "call_registry" "proposal_executed" (.vec [.u64 proposalId, .address executor])
  | .adminAdded added => named "call_registry" "admin_added" (.address added)
  | .adminRemoved removed => named "call_registry" "admin_removed" (.address removed)
  | .adminSetUpdated admins threshold =>
    named "call_registry" "AdminSetUpdated"
      (.vec [.vec (admins.map .address), .u32 threshold])
  | .sharesMinted callId staker outcome amount =>
    named "call_registry" "shares_minted"
      (.vec [.u64 callId, .address staker, .u32 outcome, .i128 amount])
  | .sharesRedeemed callId staker outcome amount =>
    named "call_registry" "shares_redeemed"
      (.vec [.u64 callId, .address staker, .u32 outcome, .i128 amount])
  | .sharesTransferred callId sender recipient outcome amount =>
    named "call_registry" "shares_transferred"
      (.vec [.u64 callId, .address sender, .address recipient, .u32 outcome, .i128 amount])
  | .callVoided callId voidedBy =>
    named "call_registry" "call_voided" (.vec [.u64 callId, .address voidedBy])
  | .voidRefundClaimed callId staker amount =>
    named "call_registry" "void_refund_claimed"
      (.vec [.u64 callId, .address staker, .i128 amount])
  | .xlmVoidRefundClaimed callId staker amount =>
    named "call_registry" "xlm_void_refund" (.vec [.u64 callId, .address staker, .i128 amount])
  | .expiredRefundClaimed callId staker amount =>
    named "call_registry" "expired_refund_claimed"
      (.vec [.u64 callId, .address staker, .i128 amount])
  | .xlmExpiredRefundClaimed callId staker amount =>
    named "call_registry" "xlm_expired_refund"
      (.vec [.u64 callId, .address staker, .i128 amount])
  | .xlmEscrowReleased callId recipient amount =>
    named "call_registry" "xlm_escrow_released"
      (.vec [.u64 callId, .address recipient, .i128 amount])
  | .sep10Verified user homeDomain =>
    named "call_registry" "sep10_verified" (.vec [.address user, .bytes homeDomain])
  | .stakeWithdrawn callId staker refundedAmount penalty =>
    named "call_registry" "stake_withdrawn"
      (.vec [.u64 callId, .address staker, .i128 refundedAmount, .i128 penalty])
  | .xlmStakeWithdrawn callId staker refundedAmount penalty =>
    named "call_registry" "xlm_stake_withdrawn"
      (.vec [.u64 callId, .address staker, .i128 refundedAmount, .i128 penalty])
  | .stakeLimitUpdated user newLimit =>
    named "call_registry" "StakeLimitUpdated" (.vec [.address user, .i128 newLimit])
  | .emergencyCallCancelled callId cancelledBy =>
    named "call_registry" "emergency_call_cancelled" (.vec [.u64 callId, .address cancelledBy])
  | .proposalCreated id proposer parameter votingEndLedger =>
    named "governance" "ProposalCreated"
      (.vec [.u64 id, .address proposer, .symbol parameter, .u32 votingEndLedger])
  | .voteCast proposalId voter support stakeVolume =>
    named "governance" "VoteCast"
      (.vec [.u64 proposalId, .address voter, .bool support, .i128 stakeVolume])
  | .governanceProposalExecuted proposalId parameter =>
    named "governance" "ProposalExecuted" (.vec [.u64 proposalId, .symbol parameter])
  | .contractUpgraded oldVersion newVersion admin =>
    named "call_registry" "contract_upgraded"
      (.vec [.u32 oldVersion, .u32 newVersion, .address admin])

/-- What the outcome manager publishes for an event. -/
def managerEvent : OutcomeManager.Event → ContractEvent
  | .outcomeSubmitted callId oracle outcome =>
    symbols "outcome" "submitted" (.vec [.u64 callId, .bytes oracle.bytes, .u32 outcome])
  | .outcomeFinalized callId outcome price =>
    symbols "outcome" "finalized" (.vec [.u64 callId, .u32 outcome, .i128 price])
  | .payoutClaimed callId staker amount =>
    symbols "payout" "claimed" (.vec [.u64 callId, .address staker, .i128 amount])
  | .feeCollected callId amount collector =>
    symbols "fee" "collected" (.vec [.u64 callId, .i128 amount, .address collector])
  | .batchPayoutStarted callId stakerCount =>
    symbols "payout" "batch" (.vec [.u64 callId, .u32 stakerCount])
  | .outcomeDisputed callId newOutcome newPrice =>
    symbols "outcome" "disputed" (.vec [.u64 callId, .u32 newOutcome, .i128 newPrice])
  | .adminParamsChanged value => named "admin" "params_changed" (.u64 value)
  | .priceObservationSubmitted callId oracle price timestamp =>
    symbols "twap" "obs_sub"
      (.vec [.u64 callId, .bytes oracle.bytes, .i128 price, .u64 timestamp])
  | .twapComputed callId twapPrice observationCount =>
    symbols "twap" "computed" (.vec [.u64 callId, .i128 twapPrice, .u32 observationCount])
  | .claimableBalanceCreated callId staker balanceId amount =>
    symbols "claimbal" "created"
      (.vec [.u64 callId, .address staker, .bytes balanceId.bytes, .i128 amount])
  | .recoveryClaimed recoveryAgent originalWinner callId amount =>
    symbols "recovery" "claimed"
      (.vec [.address recoveryAgent, .address originalWinner, .u64 callId, .i128 amount])
  | .recoveryAddressSet user recoveryAddress =>
    symbols "recovery" "set" (.vec [.address user, .address recoveryAddress])
  | .recoveryAddressRemoved user => symbols "recovery" "removed" (.address user)

/-- Everything that the two contracts can publish. The last events are published by entry points that
are not modelled otherwise, or by none. -/
inductive Emitted where
  | registry (event : CallRegistry.Event)
  | manager (event : OutcomeManager.Event)
  | callSettled (callId winnerCount : Nat)
  | storageWarning (entryCount estimatedBytes : Nat)
  | managerPaused
  | managerUnpaused
  | managerUpgraded (oldVersion newVersion : Nat) (admin : Address)

def Emitted.published : Emitted → ContractEvent
  | .registry event => registryEvent event
  | .manager event => managerEvent event
  | .callSettled callId winnerCount =>
    named "call_registry" "call_settled" (.vec [.u64 callId, .u64 winnerCount])
  | .storageWarning entryCount estimatedBytes =>
    named "call_registry" "storage_warning" (.vec [.u32 entryCount, .u32 estimatedBytes])
  | .managerPaused => symbols "contract" "paused" .void
  | .managerUnpaused => symbols "contract" "unpaused" .void
  | .managerUpgraded oldVersion newVersion admin =>
    named "outcome_manager" "contract_upgraded"
      (.vec [.u32 oldVersion, .u32 newVersion, .address admin])

/-- The first topics that the contracts publish events under. -/
def firstTopics : List ScVal :=
  [.string "call_registry", .string "governance", .string "admin", .string "outcome_manager",
    .symbol "call", .symbol "outcome", .symbol "payout", .symbol "fee", .symbol "twap",
    .symbol "claimbal", .symbol "recovery", .symbol "contract"]

theorem registry_first_topic (event : CallRegistry.Event) :
    ∃ first rest, (registryEvent event).topics = first :: rest ∧ first ∈ firstTopics := by
  cases event <;> exact ⟨_, _, rfl, by simp [firstTopics]⟩

theorem manager_first_topic (event : OutcomeManager.Event) :
    ∃ first rest, (managerEvent event).topics = first :: rest ∧ first ∈ firstTopics := by
  cases event <;> exact ⟨_, _, rfl, by simp [firstTopics]⟩

theorem published_first_topic (event : Emitted) :
    ∃ first rest, event.published.topics = first :: rest ∧ first ∈ firstTopics := by
  cases event with
  | registry event => exact registry_first_topic event
  | manager event => exact manager_first_topic event
  | callSettled | storageWarning | managerPaused | managerUnpaused | managerUpgraded => exact ⟨_, _, rfl, by simp [firstTopics]⟩

/-!
## The event parser

`parseEvent` expects an event's name in its first topic and the fields in the others. The topics
reach it as objects of the client library, or as the native values of these.
-/

/-- A value of the parser: an object of the client library, or a native value of another kind than
text, integers and bytes, is given by the published value. -/
inductive JsValue where
  | undefined
  | text (s : String)
  | int (n : Int)
  | bytes (b : Bytes)
  | scVal (v : ScVal)
  | other (v : ScVal)

/-- The conversions of the runtime and of the client library: the text of an address, the text and
the number of other values, the nearest floating-point number, the number in a text and the bytes of
a text. -/
structure Conversions where
  strkey : Address → String
  describe : JsValue → String
  coerce : JsValue → Option Int
  double : Int → Int
  numeral : String → Option Int
  utf8 : String → Bytes

/-- How the topics are handed to the parser. -/
inductive Presentation where
  | raw
  | native

section Values

variable (c : Conversions)

/-- `scValToNative` -/
def scValToNative : ScVal → JsValue
  | .string s => .text s
  | .symbol s => .text s
  | .u32 n => .int n
  | .u64 n => .int n
  | .i128 n => .int n
  | .address a => .text (c.strkey a)
  | .bytes b => .bytes b
  | v => .other v

def Presentation.topic : Presentation → ScVal → JsValue
  | .raw, v => .scVal v
  | .native, v => scValToNative c v

/-- `val.toString()`, which throws on `undefined`. -/
def toText : JsValue → Option String
  | .undefined => none
  | .text s => some s
  | .int n => some (toString n)
  | v => some (c.describe v)

/-- `Number(val)`, where `none` is not a number. -/
def toNumber : JsValue → Option Int
  | .int n => some (c.double n)
  | .text s => (c.numeral s).map c.double
  | .undefined => none
  | v => c.coerce v

def hexDigit (n : Nat) : Char := if n < 10 then Char.ofNat (48 + n) else Char.ofNat (87 + n)

def hex (b : Bytes) : String :=
  String.ofList (b.flatMap fun byte => [hexDigit (byte.toNat / 16), hexDigit (byte.toNat % 16)])

/-- `Buffer.from(val).toString('hex')`, which throws on other values. -/
def toHex : JsValue → Option String
  | .bytes b => some (hex b)
  | .text s => some (hex (c.utf8 s))
  | _ => none

end Values

/-- The fields of an event. A number is `none` where it is not a number. -/
inductive EventData where
  | callCreated (callId : Option Int) (creator stakeToken stakeAmount : String)
      (endTs : Option Int) (tokenAddress pairId ipfsCid : String)
  | stakeAdded (callId : Option Int) (staker amount : String) (position : Option Int)
  | callResolved (callId outcome : Option Int) (endPrice : String)
  | callSettled (callId winnerCount : Option Int)
  | adminChanged (oldAdmin newAdmin : String)
  | outcomeManagerChanged (oldManager newManager : String)
  | outcomeFinalized (callId : Option Int)
  | initialized (admin outcomeManager : String)
  | adminParamsChanged (paramName : String) (newValue : Option Int)

/-- An event as the parser receives it. Its value is base64 text of an XDR value or not. -/
structure RawEvent where
  contractId : String
  ledger : Nat
  txHash : String
  pagingToken : String
  createdAt : String
  topic : List JsValue
  valueIsXdr : Bool

structure ParsedEvent where
  contractId : String
  ledger : Nat
  txHash : String
  txOrder : String
  timestamp : String
  eventData : EventData

section Parsers

variable (c : Conversions) (event : RawEvent) (topics : List JsValue)

/-- `topics[i]` -/
def topicAt (i : Nat) : JsValue := topics.getD i .undefined

def parseAddress (i : Nat) : Option String := toText c (topicAt topics i)

def parseI128 (i : Nat) : Option String := toText c (topicAt topics i)

def parseU64 (i : Nat) : Option Int := toNumber c (topicAt topics i)

def parseU32 (i : Nat) : Option Int := toNumber c (topicAt topics i)

def parseBytes (i : Nat) : Option String := toHex c (topicAt topics i)

def parseCallCreated : Option EventData := do
  if event.valueIsXdr then
    return .callCreated (parseU64 c topics 1) (← parseAddress c topics 2)
      (← parseAddress c topics 3) (← parseI128 c topics 4) (parseU64 c topics 5)
      (← parseAddress c topics 6) (← parseBytes c topics 7) (← parseBytes c topics 8)
  else none

def parseStakeAdded : Option EventData := do
  return .stakeAdded (parseU64 c topics 1) (← parseAddress c topics 2) (← parseI128 c topics 3)
    (parseU32 c topics 4)

def parseCallResolved : Option EventData := do
  return .callResolved (parseU64 c topics 1) (parseU32 c topics 2) (← parseI128 c topics 3)

def parseCallSettled : Option EventData :=
  some (.callSettled (parseU64 c topics 1) (parseU64 c topics 2))

def parseAdminChanged : Option EventData := do
  return .adminChanged (← parseAddress c topics 1) (← parseAddress c topics 2)

def parseOutcomeManagerChanged : Option EventData := do
  return .outcomeManagerChanged (← parseAddress c topics 1) (← parseAddress c topics 2)

def parseOutcomeFinalized : Option EventData := some (.outcomeFinalized (parseU64 c topics 1))

def parseInitialized : Option EventData := do
  return .initialized (← parseAddress c topics 1) (← parseAddress c topics 2)

def parseAdminParamsChangedTopics : Option EventData := do
  return .adminParamsChanged (← parseBytes c topics 1) (parseU32 c topics 2)

/-- The fields of an event of a name. -/
def parseData (name : String) : Option EventData :=
  if name = "call_created" then parseCallCreated c event topics
  else if name = "stake_added" then parseStakeAdded c topics
  else if name = "call_resolved" then parseCallResolved c topics
  else if name = "call_settled" then parseCallSettled c topics
  else if name = "admin_changed" then parseAdminChanged c topics
  else if name = "outcome_manager_changed" then parseOutcomeManagerChanged c topics
  else if name = "outcome_finalized" ∨ name = "finalized" then parseOutcomeFinalized c topics
  else if name = "initialized" then parseInitialized c topics
  else if name = "admin_params_changed" then parseAdminParamsChangedTopics c topics
  else none

/-- An unknown event and an error both give `none`. -/
def parseEvent : Option ParsedEvent :=
  match event.topic with
  | .text name :: _ =>
    (parseData c event event.topic name).map fun eventData =>
      ⟨event.contractId, event.ledger, event.txHash, event.pagingToken, event.createdAt, eventData⟩
  | _ => none

end Parsers

/-- The parser knows none of the first topics of the contracts. -/
theorem parseEvent_first_topic (c : Conversions) (p : Presentation) {event : RawEvent}
    {first : ScVal} {rest : List ScVal} (hfirst : first ∈ firstTopics)
    (htopic : event.topic = (first :: rest).map (p.topic c)) : parseEvent c event = none := by
  cases p with
  | raw => simp [parseEvent, htopic, Presentation.topic]
  | native =>
    obtain ⟨name, hname, hunknown⟩ : ∃ name, scValToNative c first = .text name ∧
        ∀ topics, parseData c event topics name = none := by
      simp only [firstTopics, List.mem_cons, List.not_mem_nil, or_false] at hfirst
      rcases hfirst with rfl | rfl | rfl | rfl | rfl | rfl | rfl | rfl | rfl | rfl | rfl | rfl <;>
        exact ⟨_, rfl, fun topics => by simp [parseData]⟩
    simp [parseEvent, htopic, Presentation.topic, hname, hunknown]

/-!
## Dispatching events

What the indexer makes of an event: it ignores it, or it is a change of the admin parameters, or a
claim of a payout.
-/

/-- A change of the admin parameters. The fee is in basis points, and not a number in `some none`. -/
structure AdminParamsChangedEvent where
  feePercent : Option (Option Int)
  contractId : Option String
  oracleContractId : Option String
  txHash : String
  ledger : Nat

/-- A claim of a payout. -/
structure PayoutClaimedEvent where
  callId : String
  stakerAddress : String
  amount : String

inductive Dispatched where
  | ignored
  | adminParamsChanged (parsed : AdminParamsChangedEvent)
  | payoutClaimed (parsed : PayoutClaimedEvent)

/-- The value under a key of a map, as `payload[key]` finds it. -/
def payloadField (entries : List (ScVal × ScVal)) (key : String) : Option ScVal :=
  (entries.reverse.find? fun entry =>
    match entry.1 with
    | .string s => s = key
    | .symbol s => s = key
    | _ => false).map (·.2)

/-- The parameters in the data of an event, and `none` where the parser throws. -/
def parseAdminParamsChanged (c : Conversions) (data : ScVal) (txHash : String) (ledger : Nat) :
    Option AdminParamsChangedEvent :=
  let fieldOf := fun key =>
    match data with
    | .map entries => (payloadField entries key).map (scValToNative c)
    | _ => none
  match data with
  | .void => none
  | _ => some {
      feePercent := (fieldOf "fee_percent").map (toNumber c)
      contractId := (fieldOf "contract_id").bind (toText c)
      oracleContractId := (fieldOf "oracle_contract_id").bind (toText c)
      txHash := txHash
      ledger := ledger }

def asString : Option ScVal → Option String
  | some (.string s) => some s
  | some (.symbol s) => some s
  | _ => none

def asU64 : Option ScVal → Option String
  | some (.u64 n) => some (toString n)
  | _ => none

/-- The low half of an `i128`. -/
def asI128Lo : Option ScVal → Option String
  | some (.i128 n) => some (toString (n % 2 ^ 64))
  | _ => none

/-- The claim in the topics of an event. An event without a call or a staker is ignored. -/
def parsePayoutClaimed (topics : List ScVal) : Option PayoutClaimedEvent :=
  let callId := ((asString topics[1]?).or (asU64 topics[1]?)).getD ""
  let stakerAddress := (asString topics[2]?).getD ""
  let amount := ((asI128Lo topics[3]?).or (asU64 topics[3]?)).getD "0"
  if callId = "" ∨ stakerAddress = "" then none else some ⟨callId, stakerAddress, amount⟩

/-- What `dispatchEvent` recognises. -/
def dispatch (c : Conversions) (event : ContractEvent) (txHash : String) (ledger : Nat) :
    Dispatched :=
  match event.topics with
  | .symbol name :: _ =>
    if name = "AdminParamsChanged" then
      match parseAdminParamsChanged c event.data txHash ledger with
      | some parsed => .adminParamsChanged parsed
      | none => .ignored
    else if name = "PayoutClaimed" then
      match parsePayoutClaimed event.topics with
      | some parsed => .payoutClaimed parsed
      | none => .ignored
    else .ignored
  | _ => .ignored

/-- The indexer knows none of the first topics of the contracts. -/
theorem dispatch_first_topic (c : Conversions) {event : ContractEvent} {first : ScVal}
    {rest : List ScVal} (hfirst : first ∈ firstTopics) (htopics : event.topics = first :: rest)
    (txHash : String) (ledger : Nat) : dispatch c event txHash ledger = .ignored := by
  simp only [firstTopics, List.mem_cons, List.not_mem_nil, or_false] at hfirst
  rcases hfirst with rfl | rfl | rfl | rfl | rfl | rfl | rfl | rfl | rfl | rfl | rfl | rfl <;>
    simp [dispatch, htopics]

/-- A raw event with the topics of a published one. -/
def Presents (c : Conversions) (p : Presentation) (event : Emitted) (raw : RawEvent) : Prop :=
  raw.topic = event.published.topics.map (p.topic c)

/-- A decoder of the backend makes a record of the event. -/
def Recognised (c : Conversions) (event : Emitted) : Prop :=
  (∃ p raw record, Presents c p event raw ∧ parseEvent c raw = some record) ∨
    ∃ txHash ledger, dispatch c event.published txHash ledger ≠ .ignored

/-- No event of the contracts is recognised by a decoder of the backend. -/
theorem no_event_recognised (c : Conversions) (event : Emitted) : ¬ Recognised c event := by
  obtain ⟨first, rest, htopics, hfirst⟩ := published_first_topic event
  rintro (⟨p, raw, record, hpresents, hrecord⟩ | ⟨txHash, ledger, hdispatch⟩)
  · unfold Presents at hpresents
    rw [htopics] at hpresents
    rw [parseEvent_first_topic c p hfirst hpresents] at hrecord
    cases hrecord
  · exact hdispatch (dispatch_first_topic c hfirst htopics txHash ledger)

/-- Conversions of small values. -/
def plainConversions : Conversions where
  strkey a := toString a.id
  describe _ := "[object Object]"
  coerce _ := none
  double n := n
  numeral _ := none
  utf8 s := s.toList.map fun c => UInt8.ofNat c.toNat

/-- A claim of 1400 on call 7 reaches no handler and no record. -/
theorem payout_claim_unrecognised : (∀ raw record, Presents plainConversions .native
        (.manager (.payoutClaimed 7 ⟨1⟩ 1400)) raw → parseEvent plainConversions raw ≠ some record) ∧
      dispatch plainConversions (managerEvent (.payoutClaimed 7 ⟨1⟩ 1400)) "tx" 100 = .ignored := by
  refine ⟨fun raw record hpresents hrecord => ?_, rfl⟩
  have htopic : raw.topic = [.text "payout", .text "claimed"] := hpresents
  simp [parseEvent, htopic, parseData] at hrecord

end Backit.Indexer
