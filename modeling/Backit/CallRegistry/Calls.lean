import Backit.CallRegistry.Staking

/-!
# Calls and their data entries

## Data entries of a call

Creating a call writes its metadata under textual keys: the base64 encoding of the IPFS CID and of
the metadata hash. The key is assembled in a 64-byte buffer with at most 20 digits, and the
encoder stops at the end of a 128-byte buffer.
-/

namespace Backit.CallRegistry

open Soroban Contract Lib

/-- The decimal digits of `temp`, least significant first, in an array of `room` places; `none` is
an index out of bounds. -/
def digits : Nat → Nat → Option Bytes
  | 0, temp => if temp = 0 then some [] else none
  | room + 1, temp =>
    if temp = 0 then some []
    else (digits room (temp / 10)).map (UInt8.ofNat (48 + temp % 10) :: ·)

/-- `format_key`: the prefix, the decimal id and the suffix, in a 64-byte buffer. -/
def formatKey (before : Bytes) (id : Nat) (suffix : Bytes) : Option Bytes := do
  let number ← if id = 0 then some [48] else (digits 20 id).map List.reverse
  let key := before ++ number ++ suffix
  if key.length ≤ 64 then some key else none

def keyPrefix : Bytes := ascii ['c', 'a', 'l', 'l', '_']

def cidSuffix : Bytes := ascii ['_', 'c', 'i', 'd']

def hashSuffix : Bytes := ascii ['_', 'h', 'a', 's', 'h']

/-- The base64 character of a six-bit value. -/
def base64Char (n : Nat) : UInt8 :=
  UInt8.ofNat <|
    if n < 26 then 65 + n
    else if n < 52 then 97 + (n - 26)
    else if n < 62 then 48 + (n - 52)
    else if n = 62 then 43
    else 47

/-- The four characters of a 24-bit group. -/
def base64Group (n : Nat) : Bytes :=
  [base64Char (n / 2 ^ 18 % 64), base64Char (n / 2 ^ 12 % 64), base64Char (n / 2 ^ 6 % 64),
    base64Char (n % 64)]

/-- `encode_base64` from output position `outIdx` on. A whole group that no longer fits the
128-byte buffer ends the loop, and then nothing is left of one or two bytes to pad. -/
def encodeBase64From (outIdx : Nat) : Bytes → Bytes
  | b0 :: b1 :: b2 :: rest =>
    if 128 < outIdx + 4 then []
    else base64Group (b0.toNat * 2 ^ 16 + b1.toNat * 2 ^ 8 + b2.toNat) ++
      encodeBase64From (outIdx + 4) rest
  | [b0] => if outIdx + 4 ≤ 128 then (base64Group (b0.toNat * 2 ^ 16)).take 2 ++ [61, 61] else []
  | [b0, b1] =>
    if outIdx + 4 ≤ 128 then
      (base64Group (b0.toNat * 2 ^ 16 + b1.toNat * 2 ^ 8)).take 3 ++ [61]
    else []
  | [] => []

def encodeBase64 (input : Bytes) : Bytes := encodeBase64From 0 input

example : formatKey keyPrefix 120 cidSuffix =
    some (ascii ['c', 'a', 'l', 'l', '_', '1', '2', '0', '_', 'c', 'i', 'd']) := by decide

example : encodeBase64 (ascii ['M', 'a']) = ascii ['T', 'W', 'E', '='] := by decide

/-!
## Creating calls and trading their shares

Creation of a call, the oracle-signed correction of its start price, updates of its metadata, and
the transfer and redemption of its outcome shares.
-/

/-- The default limit on a call's duration: 30 days in seconds. -/
def defaultMaxDurationSecs : Nat := 2592000

def getMaxDuration (s : Storage) : Nat := s.control.maxDuration.getD defaultMaxDurationSecs

/-- The positions of a call, in order. -/
def positions (outcomeCount : Nat) : List Nat := List.range' 1 outcomeCount

/-- A map that gives every position the same value. -/
def everyPosition {V : Type} (outcomeCount : Nat) (value : V) : Map Nat V :=
  (positions outcomeCount).foldl (fun m position => m.insert position value) ∅

/-- The message an oracle signs to set a start price. -/
def buildStartPriceMessage (callId : Nat) (price : Int) : Bytes :=
  ascii ['s', 't', 'a', 'r', 't', '_', 'p', 'r', 'i', 'c', 'e', ':'] ++ beBytes 8 callId ++
    i128Bytes price

/-- Whether the price movement satisfies the condition. `none` is an arithmetic overflow. -/
def evaluateCondition (condition : ConditionType) (startPrice endPrice : Int) : Option Bool :=
  match condition with
  | .targetAbove target => some (decide (target < endPrice))
  | .targetBelow target => some (decide (endPrice < target))
  | .percentUp percent =>
    if startPrice ≤ 0 then some false
    else do
      let scaledEnd ← checkedMul endPrice 100
      let factor ← checkedAdd 100 percent
      let scaledStart ← checkedMul startPrice factor
      some (decide (scaledStart ≤ scaledEnd))
  | .percentDown percent =>
    if startPrice ≤ 0 then some false
    else do
      let scaledEnd ← checkedMul endPrice 100
      let factor ← checkedSub 100 percent
      let scaledStart ← checkedMul startPrice factor
      some (decide (scaledEnd ≤ scaledStart))
  | .range min max =>
    if max < min then some false else some (decide (min ≤ endPrice ∧ endPrice ≤ max))

variable {T : Type} [Tokens T]

/-- `duration::assert_duration_within_limit`. -/
def assertDurationWithinLimit (endTs : Nat) : Registry T Unit := do
  let environment ← env
  rejectIf (endTs ≤ environment.timestamp) (.panic "end_ts must be in the future")
  rejectIf (getMaxDuration (← getStore) < endTs - environment.timestamp)
    (.panic "call duration exceeds maximum allowed")

/-- Deploy a share token for each of the given positions. -/
def deployShareTokens [Crypto] (wasmHash : BytesN 32) (callId : Nat) :
    List Nat → Map Nat Address → Registry T (Map Nat Address)
  | [], shareTokens => pure shareTokens
  | position :: rest, shareTokens => do
      let token ← deployShareToken wasmHash callId position
      deployShareTokens wasmHash callId rest (shareTokens.insert position token)

/-- The share tokens of a new call: one per position when share tokens are configured. -/
def createShareTokens [Crypto] (config : ContractConfig) (callId outcomeCount : Nat) :
    Registry T (Map Nat Address) :=
  match config.shareWasmHash with
  | some wasmHash => deployShareTokens wasmHash callId (positions outcomeCount) ∅
  | none => pure ∅

/-- The call that `createCall` stores. -/
def newCall (callId : Nat) (creator : Address) (args : CallInitArgs) (createdAt : Nat)
    (shareTokens : Map Nat Address) : Call where
  id := callId
  creator := creator
  stakeToken := args.stakeToken
  stakeAmount := args.stakeAmount
  endTs := args.endTs
  tokenAddress := args.tokenAddress
  pairId := args.pairId
  metadataHash := args.metadataHash
  outcomeCount := args.outcomeCount
  outcomeStakes := everyPosition args.outcomeCount 0
  stakes := everyPosition args.outcomeCount ∅
  outcome := 0
  startPrice := args.startPrice
  endPrice := 0
  condition := args.condition
  settled := false
  voided := false
  createdAt := createdAt
  cancelled := false
  metadataVersion := 0
  shareTokens := shareTokens
  gate := args.gate

/-- Record the current ledger as a creator's first interaction. -/
def trackFirstCreation (creator : Address) : Registry T Unit := do
  let environment ← env
  if ((← getStore).getAccountFirstSeen creator).isNone then
    modifyStore (·.setAccountFirstSeen creator environment.sequence)
  else pure ()

/-- Count a created call in its creator's track record. -/
def countCreated (creator : Address) : Registry T Unit := do
  let stats := (← getStore).getCreatorStats creator
  let totalCreated ← unsigned 32 (stats.totalCreated + 1)
  modifyStore (·.onMarket (·.setCreatorStats creator { stats with totalCreated := totalCreated }))

/-- Write the call's data entries. -/
def writeDataEntries (callId : Nat) (args : CallInitArgs) : Registry T Unit := do
  let keyCid ← unwrap (formatKey keyPrefix callId cidSuffix) (.panic "index out of bounds")
  let keyHash ← unwrap (formatKey keyPrefix callId hashSuffix) (.panic "index out of bounds")
  modifyStore (·.setDataEntry keyCid (encodeBase64 args.ipfsCid))
  modifyStore (·.setDataEntry keyHash (encodeBase64 args.metadataHash.bytes))

/-- The event a new call is announced with. -/
def callCreatedEvent (callId : Nat) (creator : Address) (args : CallInitArgs) : Event :=
  byToken args.stakeToken
    (.xlmCallCreated callId creator args.stakeAmount args.startPrice args.endTs args.tokenAddress
      args.pairId args.metadataHash args.outcomeCount)
    (.callCreated callId creator args.stakeToken args.stakeAmount args.startPrice args.endTs
      args.tokenAddress args.pairId args.metadataHash args.outcomeCount)

def createCall [Crypto] (creator : Address) (args : CallInitArgs) : Registry T Call := do
  requireAuth creator
  reentrancyGuard
  let config ← requireConfig
  rejectIf (config.paused = true) (.panic "Contract is paused")
  rejectIf (args.stakeAmount < config.minStake ∨ args.stakeAmount ≤ 0)
    (.error .invalidStakeAmount)
  rejectIf (args.startPrice ≤ 0) (.error .invalidStakeAmount)
  rejectIf (args.outcomeCount < 2) (.error .invalidOutcomeCount)
  let environment ← env
  rejectIf (args.endTs ≤ environment.timestamp) (.error .invalidEndTime)
  assertDurationWithinLimit args.endTs
  let config ← requireConfig
  rejectIf (isNativeXlm args.stakeToken = false ∧
    (config.whitelistedTokens.lookup args.stakeToken).getD false = false)
    (.panic "stake token not whitelisted")
  let callId ← nextCallId
  let shareTokens ← createShareTokens config callId args.outcomeCount
  let call := newCall callId creator args environment.timestamp shareTokens
  modifyStore (·.setCall call)
  recordCallCreated
  trackFirstCreation creator
  countCreated creator
  publish (callCreatedEvent callId creator args)
  writeDataEntries callId args
  releaseLock
  pure call

def updateCallMetadata (creator : Address) (callId : Nat) (newMetadataHash : BytesN 32) :
    Registry T Unit := do
  requireAuth creator
  let call ← requireCall callId
  rejectIf (call.creator ≠ creator) (.panic "not the call creator")
  rejectIf (call.settled = true ∨ call.cancelled = true) (.panic "call is ended or cancelled")
  let environment ← env
  rejectIf (call.endTs ≤ environment.timestamp) (.panic "call has expired")
  let version ← unsigned 32 (call.metadataVersion + 1)
  modifyStore (·.setCall { call with metadataHash := newMetadataHash, metadataVersion := version })
  publish (.callMetadataUpdated callId creator call.metadataHash newMetadataHash version)

def setStartPrice [Crypto] (callId : Nat) (price : Int) (oraclePubkey : BytesN 32)
    (signature : BytesN 64) : Registry T Call := do
  rejectIf (price ≤ 0) (.error .invalidStakeAmount)
  let config ← requireConfig
  requireAuth config.outcomeManager
  let call ← requireCall callId
  rejectIf (call.settled = true) (.error .callSettled)
  rejectIf (call.cancelled = true) (.panic "Call has been cancelled")
  rejectIf (call.voided = true) (.panic "Call has been voided")
  ed25519Verify oraclePubkey (buildStartPriceMessage callId price) signature
  modifyStore (·.setCall { call with startPrice := price })
  pure { call with startPrice := price }

/-- The pools of all positions of a call, in order. -/
def Call.pools (call : Call) : List Int :=
  (positions call.outcomeCount).map (valueAt call.outcomeStakes)

/-- What `redeemShares` pays for a balance of winning shares. -/
def redemption (balance winning total : Int) : Registry T Int :=
  if 0 < winning then do
    let scaled ← i128 (balance * total)
    pure (scaled.tdiv winning)
  else pure 0

def redeemShares (redeemer : Address) (callId : Nat) : Registry T Int := do
  requireAuth redeemer
  let call ← requireCall callId
  rejectIf (call.outcome = 0) (.panic "call not yet resolved")
  rejectIf (call.settled = false) (.panic "call not yet settled")
  let shareToken ← unwrap (call.shareTokens.lookup call.outcome)
    (.panic "share tokens not configured for this call")
  let balance ← shareBalance shareToken redeemer
  rejectIf (balance ≤ 0) (.panic "no winning shares to redeem")
  let total ← sumI128 call.pools
  let payout ← redemption balance (valueAt call.outcomeStakes call.outcome) total
  rejectIf (payout ≤ 0) (.panic "zero payout")
  burnShares shareToken redeemer balance
  let environment ← env
  transferToken call.stakeToken environment.contract redeemer payout
  publish (.sharesRedeemed callId redeemer call.outcome balance)
  pure payout

def transferShares (sender recipient : Address) (callId outcome : Nat) (amount : Int) :
    Registry T Unit := do
  requireAuth sender
  let call ← requireCall callId
  rejectIf (outcome < 1 ∨ call.outcomeCount < outcome) (.error .invalidPosition)
  let shareToken ← unwrap (call.shareTokens.lookup outcome) (.error .notInitialized)
  tokenTransfer shareToken sender recipient amount
  publish (.sharesTransferred callId sender recipient outcome amount)

end Backit.CallRegistry
