import Backit.Soroban.Bytes

/-!
# The relay's signature

The relay validates the inner transaction of what it is sent, and signs a fee bump around it with
the hot wallet: the caller's own, or one that it builds. The checks of the inner transaction bind
both. Nothing bounds the fee of a caller's fee bump, and the fee that the relay builds with is one
for each operation, which the client library multiplies.
-/

namespace Backit.Relay

open Soroban

inductive ScAddress where
  | account (publicKey : Bytes)
  | contract (contractId : Bytes)
  deriving DecidableEq

/-- A host function. The others than contract invocations create contracts and upload code. -/
inductive HostFunction where
  | invokeContract (contractAddress : ScAddress)
  | other (kind : Nat)
  deriving DecidableEq

structure Operation where
  type : String
  func : Option HostFunction
  deriving DecidableEq

/-- Bounds in seconds; zero is no bound. -/
structure TimeBounds where
  minTime : Nat
  maxTime : Nat
  deriving DecidableEq

structure Transaction where
  fee : Nat
  operations : List Operation
  signatures : List Bytes
  timeBounds : Option TimeBounds
  deriving DecidableEq

structure FeeBumpTransaction where
  feeSource : String
  fee : Int
  innerTransaction : Transaction
  deriving DecidableEq

/-- What an envelope decodes to. -/
inductive Envelope where
  | transaction (tx : Transaction)
  | feeBump (tx : FeeBumpTransaction)
  deriving DecidableEq

/-- `tx instanceof FeeBumpTransaction ? tx.innerTransaction : tx` -/
def Envelope.innerTx : Envelope → Transaction
  | .transaction tx => tx
  | .feeBump tx => tx.innerTransaction

/-- The client library. Building a fee bump takes the source of the fee and a base fee, and may
throw. -/
structure StellarSdk where
  fromXdr : String → Option Envelope
  encodeContract : Bytes → String
  buildFeeBumpTransaction : String → Nat → Transaction → Except String FeeBumpTransaction

/-- The base fee of a fee bump is the fee for each operation of the inner transaction, and the fee
bump itself counts as one more. -/
structure StellarSdk.Documented (sdk : StellarSdk) : Prop where
  inner : ∀ feeSource baseFee tx bump,
    sdk.buildFeeBumpTransaction feeSource baseFee tx = .ok bump → bump.innerTransaction = tx
  fee : ∀ feeSource baseFee tx bump,
    sdk.buildFeeBumpTransaction feeSource baseFee tx = .ok bump →
    ((baseFee * (tx.operations.length + 1) : Nat) : Int) ≤ bump.fee

variable (sdk : StellarSdk)

def validateOperation (allowedContractId : String) (op : Operation) : Except String Unit :=
  if op.type ≠ "invokeHostFunction" then
    .error ("Operation type " ++ op.type ++
      " not allowed in relay. Only invokeHostFunction is permitted.")
  else
    match op.func with
    | none => .error "Malformed host function operation: missing function definition"
    | some (.other _) => .error "Only contract invocations are allowed in this relay"
    | some (.invokeContract (.account _)) =>
      .error "Invalid contract address type: must be a contract ID"
    | some (.invokeContract (.contract id)) =>
      if sdk.encodeContract id ≠ allowedContractId then
        .error ("Transaction directed at unauthorized contract: " ++ sdk.encodeContract id ++
          ". Only " ++ allowedContractId ++ " is allowed.")
      else .ok ()

/-- The loop over the operations, which stops at the first that is refused. -/
def validateOperations (allowedContractId : String) : List Operation → Except String Unit
  | [] => .ok ()
  | op :: rest => do
      validateOperation sdk allowedContractId op
      validateOperations allowedContractId rest

/-- The contract that the settings allow. An empty text is none. -/
def validateTransaction (contractId : Option String) (tx : Transaction) : Except String Unit :=
  match contractId with
  | none => .error "Relay target contract not configured"
  | some allowedContractId =>
    if allowedContractId = "" then .error "Relay target contract not configured"
    else if tx.operations = [] then .error "Transaction has no operations"
    else validateOperations sdk allowedContractId tx.operations

/-- The check of the time bounds, at a time in seconds. -/
def checkTimeBounds (now : Nat) : Option TimeBounds → Except String Unit
  | none => .ok ()
  | some bounds =>
    if bounds.maxTime ≠ 0 ∧ bounds.maxTime < now then .error "Transaction has expired"
    else if bounds.minTime ≠ 0 ∧ now < bounds.minTime then
      .error "Transaction is not yet valid"
    else .ok ()

/-- The margin over the inner fee, in stroops. -/
def feeMargin : Nat := 500

/-- The fee bump that the wallet signs. -/
def chooseFeeBump (hotWallet : String) : Envelope → Except String FeeBumpTransaction
  | .feeBump tx =>
    if tx.feeSource ≠ hotWallet then
      .error ("Fee source mismatch. Expected " ++ hotWallet)
    else .ok tx
  | .transaction tx => sdk.buildFeeBumpTransaction hotWallet (tx.fee + feeMargin) tx

/-- Everything up to the signature of the hot wallet: what it signs. -/
def sponsor (hotWallet contractId : Option String) (now : Nat) (xdrString : String) :
    Except String FeeBumpTransaction :=
  match hotWallet with
  | none => .error "Relay not configured (missing secret key)"
  | some wallet =>
    match sdk.fromXdr xdrString with
    | none => .error "Invalid XDR"
    | some tx => do
        validateTransaction sdk contractId tx.innerTx
        if tx.innerTx.signatures = [] then
          .error "Inner transaction must be signed by the user"
        else do
          checkTimeBounds now tx.innerTx.timeBounds
          chooseFeeBump sdk wallet tx

/-- The answer of the network to a transaction. -/
structure SendResponse where
  status : String
  errorResultXdr : Option String
  errorResult : Option String
  hash : String

/-- What a refused transaction is reported with. -/
def SendResponse.errorMsg (response : SendResponse) : String :=
  if response.errorResultXdr.getD "" = "" then response.errorResult.getD "Unknown error"
  else response.errorResultXdr.getD ""

/-- The reply to the caller after the network's answer, or the message of what was thrown. -/
def submissionReply : Except String SendResponse → Except String String
  | .error message => .error ("Submission failed: " ++ message)
  | .ok response =>
    if response.status = "ERROR" then
      .error ("Submission failed: Transaction submission failed: " ++ response.errorMsg)
    else .ok response.hash

/-- The fee bump that the hot wallet signed, if it did, and the reply. -/
def sponsorAndSubmit (sendTransaction : FeeBumpTransaction → Except String SendResponse)
    (hotWallet contractId : Option String) (now : Nat) (xdrString : String) :
    Option FeeBumpTransaction × Except String String :=
  match sponsor sdk hotWallet contractId now xdrString with
  | .error message => (none, .error message)
  | .ok finalTx => (some finalTx, submissionReply (sendTransaction finalTx))

/-- An invocation of the allowed contract. -/
def Operation.Invokes (allowedContractId : String) (op : Operation) : Prop :=
  op.type = "invokeHostFunction" ∧ ∃ id, op.func = some (.invokeContract (.contract id)) ∧
    sdk.encodeContract id = allowedContractId

/-- The time is within the bounds, if there are any. -/
def InBounds (now : Nat) (timeBounds : Option TimeBounds) : Prop :=
  ∀ bounds ∈ timeBounds, bounds.minTime ≤ now ∧
    (bounds.maxTime = 0 ∨ now ≤ bounds.maxTime)

/-- What a transaction that the relay signs is meant to satisfy. -/
structure Permitted (contractId : Option String) (now : Nat) (tx : FeeBumpTransaction) : Prop where
  invokes : ∃ allowed, contractId = some allowed ∧
    ∀ op ∈ tx.innerTransaction.operations, op.Invokes sdk allowed
  signed : tx.innerTransaction.signatures ≠ []
  inBounds : InBounds now tx.innerTransaction.timeBounds
  bounded : tx.fee ≤ tx.innerTransaction.fee + feeMargin

/-- The caller supplies a fee bump whose fee is within the margin. -/
def SuppliesWithinMargin (xdrString : String) : Prop :=
  ∃ tx, sdk.fromXdr xdrString = some (.feeBump tx) ∧
    tx.fee ≤ tx.innerTransaction.fee + feeMargin

section Specs

variable {sdk} {allowed wallet xdrString : String} {hotWallet contractId : Option String}
  {now : Nat} {u : Unit} {tx : Transaction} {finalTx : FeeBumpTransaction}

theorem bind_ok_iff {α β : Type} {first : Except String α} {rest : α → Except String β}
    {b : β} : first >>= rest = .ok b ↔ ∃ a, first = .ok a ∧ rest a = .ok b := by
  cases first with
  | error message => simp [bind, Except.bind]
  | ok a => simp [bind, Except.bind]

theorem validate_operation_ok {op : Operation} :
    validateOperation sdk allowed op = .ok u ↔ op.Invokes sdk allowed := by
  unfold validateOperation Operation.Invokes
  split
  · next htype => simp [htype]
  · next htype =>
    rw [not_ne_iff] at htype
    cases hfunc : op.func with
    | none => simp
    | some func =>
      cases func with
      | other kind => simp
      | invokeContract address =>
        cases address with
        | account key => simp
        | contract id => simp [htype]

theorem validate_operations_ok {operations : List Operation} :
    validateOperations sdk allowed operations = .ok u ↔
      ∀ op ∈ operations, op.Invokes sdk allowed := by
  induction operations with
  | nil => simp [validateOperations]
  | cons op rest ih =>
    rw [validateOperations, bind_ok_iff, List.forall_mem_cons, ← ih]
    constructor
    · rintro ⟨_, hop, hrest⟩
      exact ⟨validate_operation_ok.mp hop, hrest⟩
    · rintro ⟨hop, hrest⟩
      exact ⟨(), validate_operation_ok.mpr hop, hrest⟩

/-- A valid transaction has operations, and all of them invoke the allowed contract. -/
theorem validate_transaction_ok (h : validateTransaction sdk contractId tx = .ok u) :
    tx.operations ≠ [] ∧ ∃ allowed, contractId = some allowed ∧
      ∀ op ∈ tx.operations, op.Invokes sdk allowed := by
  unfold validateTransaction at h
  cases contractId with
  | none => cases h
  | some allowed =>
    dsimp only at h
    split at h
    · cases h
    · split at h
      · cases h
      · next hsome => exact ⟨hsome, allowed, rfl, validate_operations_ok.mp h⟩

theorem check_time_bounds_ok {timeBounds : Option TimeBounds} :
    checkTimeBounds now timeBounds = .ok u ↔ InBounds now timeBounds := by
  cases timeBounds with
  | none => simp [checkTimeBounds, InBounds]
  | some bounds =>
    simp only [checkTimeBounds, InBounds, Option.mem_def, Option.some.injEq, forall_eq']
    split
    · simp; omega
    · split
      · simp; omega
      · simp; omega

theorem choose_own {bump : FeeBumpTransaction} (h : bump.feeSource = wallet) :
    chooseFeeBump sdk wallet (.feeBump bump) = .ok bump := by
  rw [chooseFeeBump, if_neg (not_not.mpr h)]

/-- A fee bump that the caller supplies is signed as it is. -/
theorem choose_supplied {bump : FeeBumpTransaction}
    (h : chooseFeeBump sdk wallet (.feeBump bump) = .ok finalTx) : finalTx = bump := by
  rw [chooseFeeBump] at h
  split at h
  · cases h
  · cases h
    rfl

/-- What the wallet signs passed every check of its inner transaction. -/
theorem sponsor_ok (hsdk : sdk.Documented)
    (h : sponsor sdk hotWallet contractId now xdrString = .ok finalTx) :
    ∃ wallet tx, hotWallet = some wallet ∧ sdk.fromXdr xdrString = some tx ∧
      chooseFeeBump sdk wallet tx = .ok finalTx ∧ finalTx.innerTransaction = tx.innerTx ∧
      tx.innerTx.operations ≠ [] ∧
      (∃ allowed, contractId = some allowed ∧
        ∀ op ∈ tx.innerTx.operations, op.Invokes sdk allowed) ∧
      tx.innerTx.signatures ≠ [] ∧ InBounds now tx.innerTx.timeBounds := by
  unfold sponsor at h
  cases hotWallet with
  | none => cases h
  | some wallet =>
    cases htx : sdk.fromXdr xdrString with
    | none => simp [htx] at h
    | some tx =>
      simp only [htx, bind_ok_iff] at h
      obtain ⟨_, hvalid, h⟩ := h
      split at h
      · cases h
      · next hsigned =>
        obtain ⟨_, htime, hchosen⟩ := bind_ok_iff.mp h
        obtain ⟨hsome, hinvokes⟩ := validate_transaction_ok hvalid
        refine ⟨wallet, tx, rfl, rfl, hchosen, ?_, hsome, hinvokes, hsigned,
          check_time_bounds_ok.mp htime⟩
        cases tx with
        | transaction tx => exact hsdk.inner _ _ _ _ hchosen
        | feeBump tx => rw [choose_supplied hchosen, Envelope.innerTx]

/-- A fee bump that the relay builds costs more than the margin over the inner fee: the base fee is
paid for every operation and once more. -/
theorem built_exceeds_margin (hsdk : sdk.Documented) (hsome : tx.operations ≠ [])
    (h : sdk.buildFeeBumpTransaction wallet (tx.fee + feeMargin) tx = .ok finalTx) :
    (tx.fee : Int) + feeMargin < finalTx.fee := by
  have hfee := hsdk.fee _ _ _ _ h
  have hlength : 1 ≤ tx.operations.length := List.length_pos_iff.mpr hsome
  have hmargin : 0 < tx.fee + feeMargin := Nat.add_pos_right _ (by decide)
  have hmore : tx.fee + feeMargin < (tx.fee + feeMargin) * (tx.operations.length + 1) := by
    calc tx.fee + feeMargin < (tx.fee + feeMargin) * 2 := by omega
      _ ≤ (tx.fee + feeMargin) * (tx.operations.length + 1) := Nat.mul_le_mul_left _ (by omega)
  have hcast : ((tx.fee + feeMargin : Nat) : Int) <
      (((tx.fee + feeMargin) * (tx.operations.length + 1) : Nat) : Int) := by exact_mod_cast hmore
  rw [Nat.cast_add] at hcast
  exact lt_of_lt_of_le hcast hfee

/-- What the hot wallet signs is permitted exactly when the caller supplies a fee bump within the
margin. -/
theorem signed_permitted_iff {send : FeeBumpTransaction → Except String SendResponse}
    (hsdk : sdk.Documented)
    (h : (sponsorAndSubmit sdk send hotWallet contractId now xdrString).1 = some finalTx) :
    Permitted sdk contractId now finalTx ↔ SuppliesWithinMargin sdk xdrString := by
  have hsponsor : sponsor sdk hotWallet contractId now xdrString = .ok finalTx := by
    unfold sponsorAndSubmit at h
    split at h
    · cases h
    · next hok =>
      cases h
      exact hok
  obtain ⟨wallet, tx, rfl, htx, hchosen, hinner, hsome, hinvokes, hsigned, htime⟩ :=
    sponsor_ok hsdk hsponsor
  have hpermitted : Permitted sdk contractId now finalTx ↔
      finalTx.fee ≤ finalTx.innerTransaction.fee + feeMargin := by
    rw [← hinner] at hinvokes hsigned htime
    exact ⟨fun hp => hp.bounded, fun hfee => ⟨hinvokes, hsigned, htime, hfee⟩⟩
  rw [hpermitted]
  cases tx with
  | transaction tx =>
    have hover := built_exceeds_margin hsdk hsome hchosen
    constructor
    · intro hfee
      rw [hinner] at hfee
      exact absurd hfee (not_le.mpr hover)
    · rintro ⟨bump, hbump, -⟩
      rw [htx] at hbump
      cases hbump
  | feeBump bump =>
    obtain rfl := choose_supplied hchosen
    constructor
    · intro hfee
      exact ⟨finalTx, htx, hfee⟩
    · rintro ⟨bump, hbump, hfee⟩
      rw [htx] at hbump
      cases hbump
      exact hfee

end Specs

/-- The hot wallet, and the contract with the id zero. -/
def walletKey : String := "GB7BMDX2YMXP2W7QPBIG74PQJICHZB6I7524J267PM24TJSBJY55MNZG"

def zeroContract : String := "CAAAAAAAAAAAAAAAAAAAAAAAAAAAAAAAAAAAAAAAAAAAAAAAAAAABSC4"

def userSignature : Bytes :=
  beBytes 64 0x951f90c955b28f5bd5027ab0caa159882c9c17b03488646e21373784c0d92830895cd817ffa3fadb695697f68b6bc7188a89e26f4e54ed288351d406dc45f609

/-- An invocation of the contract, valid until 2000. -/
def stakeTransaction : Transaction where
  fee := 100
  operations := [⟨"invokeHostFunction", some (.invokeContract (.contract (List.replicate 32 0)))⟩]
  signatures := [userSignature]
  timeBounds := some ⟨0, 2000⟩

/-- A caller's fee bump around it. -/
def suppliedFeeBump (fee : Int) : FeeBumpTransaction := ⟨walletKey, fee, stakeTransaction⟩

/-- Its envelope, and those of its fee bumps with the fees 300 and 10000000000. -/
def plainXdr : String :=
  "AAAAAgAAAAB5+KeApTpL2QOxEp0cteug+aWc0N/xz7lds/CvyNAo4gAAAGQAAAAAAAAAAQAAAAEAAAAAAAAAAAAA" ++
    "AAAAAAfQAAAAAAAAAAEAAAAAAAAAGAAAAAAAAAABAAAAAAAAAAAAAAAAAAAAAAAAAAAAAAAAAAAAAAAAAAAAAAAF" ++
    "c3Rha2UAAAAAAAAAAAAAAAAAAAAAAAAByNAo4gAAAECVH5DJVbKPW9UCerDKoVmILJwXsDSIZG4hNzeEwNkoMIlc" ++
    "2Bf/o/rbaVaX9otrxxiKieJvTlTtKINR1AbcRfYJ"

def cheapXdr : String :=
  "AAAABQAAAAB+Fg76wy79W/B4UG/x8EoEfIfI/3XE6997NcmmQU471gAAAAAAAAEsAAAAAgAAAAB5+KeApTpL2QOx" ++
    "Ep0cteug+aWc0N/xz7lds/CvyNAo4gAAAGQAAAAAAAAAAQAAAAEAAAAAAAAAAAAAAAAAAAfQAAAAAAAAAAEAAAAA" ++
    "AAAAGAAAAAAAAAABAAAAAAAAAAAAAAAAAAAAAAAAAAAAAAAAAAAAAAAAAAAAAAAFc3Rha2UAAAAAAAAAAAAAAAAA" ++
    "AAAAAAAByNAo4gAAAECVH5DJVbKPW9UCerDKoVmILJwXsDSIZG4hNzeEwNkoMIlc2Bf/o/rbaVaX9otrxxiKieJv" ++
    "TlTtKINR1AbcRfYJAAAAAAAAAAA="

def dearXdr : String :=
  "AAAABQAAAAB+Fg76wy79W/B4UG/x8EoEfIfI/3XE6997NcmmQU471gAAAAJUC+QAAAAAAgAAAAB5+KeApTpL2QOx" ++
    "Ep0cteug+aWc0N/xz7lds/CvyNAo4gAAAGQAAAAAAAAAAQAAAAEAAAAAAAAAAAAAAAAAAAfQAAAAAAAAAAEAAAAA" ++
    "AAAAGAAAAAAAAAABAAAAAAAAAAAAAAAAAAAAAAAAAAAAAAAAAAAAAAAAAAAAAAAFc3Rha2UAAAAAAAAAAAAAAAAA" ++
    "AAAAAAAByNAo4gAAAECVH5DJVbKPW9UCerDKoVmILJwXsDSIZG4hNzeEwNkoMIlc2Bf/o/rbaVaX9otrxxiKieJv" ++
    "TlTtKINR1AbcRfYJAAAAAAAAAAA="

/-- What the client library makes of these envelopes. -/
def scenarioSdk : StellarSdk where
  fromXdr xdrString :=
    if xdrString = cheapXdr then some (.feeBump (suppliedFeeBump 300))
    else if xdrString = dearXdr then some (.feeBump (suppliedFeeBump 10000000000))
    else if xdrString = plainXdr then some (.transaction stakeTransaction)
    else none
  encodeContract id := if id = List.replicate 32 0 then zeroContract else ""
  buildFeeBumpTransaction feeSource baseFee tx :=
    if baseFee < 100 ∨ baseFee * tx.operations.length < tx.fee then .error "Invalid baseFee"
    else .ok ⟨feeSource, (baseFee * (tx.operations.length + 1) : Nat), tx⟩

theorem from_cheap_xdr : scenarioSdk.fromXdr cheapXdr = some (.feeBump (suppliedFeeBump 300)) := by
  simp only [scenarioSdk, if_true]

theorem from_dear_xdr :
    scenarioSdk.fromXdr dearXdr = some (.feeBump (suppliedFeeBump 10000000000)) := by
  have hne : dearXdr ≠ cheapXdr := by decide +kernel
  simp only [scenarioSdk, hne, if_true, if_false]

theorem from_plain_xdr : scenarioSdk.fromXdr plainXdr = some (.transaction stakeTransaction) := by
  have hcheap : plainXdr ≠ cheapXdr := by decide +kernel
  have hdear : plainXdr ≠ dearXdr := by decide +kernel
  simp only [scenarioSdk, hcheap, hdear, if_true, if_false]

theorem scenario_sdk_documented : scenarioSdk.Documented where
  inner feeSource baseFee tx bump h := by
    simp only [scenarioSdk] at h
    split at h
    · cases h
    · cases h
      rfl
  fee feeSource baseFee tx bump h := by
    simp only [scenarioSdk] at h
    split at h
    · cases h
    · cases h
      exact le_refl _

/-- A network that accepts everything. -/
def accepting (_ : FeeBumpTransaction) : Except String SendResponse :=
  .ok ⟨"PENDING", none, none, ""⟩

/-- The relay at the time 1000. -/
def relayed (xdrString : String) : Option FeeBumpTransaction × Except String String :=
  sponsorAndSubmit scenarioSdk accepting (some walletKey) (some zeroContract) 1000 xdrString

/-- The relay signs what it chooses for the invocation. -/
theorem relayed_of {xdrString : String} {tx : Envelope} {finalTx : FeeBumpTransaction}
    (htx : scenarioSdk.fromXdr xdrString = some tx) (hinner : tx.innerTx = stakeTransaction)
    (hchosen : chooseFeeBump scenarioSdk walletKey tx = .ok finalTx) :
    (relayed xdrString).1 = some finalTx := by
  have hvalid : validateTransaction scenarioSdk (some zeroContract) stakeTransaction = .ok () := by
    simp [validateTransaction, stakeTransaction, validateOperations, validateOperation,
      scenarioSdk, zeroContract, bind, Except.bind]
  have htime : checkTimeBounds 1000 stakeTransaction.timeBounds = .ok () :=
    check_time_bounds_ok.mpr (by simp [InBounds, stakeTransaction])
  have hsponsor : sponsor scenarioSdk (some walletKey) (some zeroContract) 1000 xdrString =
      .ok finalTx := by
    rw [sponsor, htx]
    simp only [hinner, hvalid, htime]
    exact hchosen
  rw [relayed, sponsorAndSubmit, hsponsor]

/-- A fee bump of 300 around a fee of 100 is permitted. -/
theorem cheap_fee_bump_permitted : (relayed cheapXdr).1 = some (suppliedFeeBump 300) ∧
      Permitted scenarioSdk (some zeroContract) 1000 (suppliedFeeBump 300) := by
  have hsigned := relayed_of from_cheap_xdr rfl (choose_own rfl)
  exact ⟨hsigned, (signed_permitted_iff scenario_sdk_documented hsigned).mpr
    ⟨_, from_cheap_xdr, by decide⟩⟩

/-- The wallet signs a caller's fee bump of 1000 XLM around a fee of 100 stroops, and builds one of
1200 stroops itself. -/
theorem dear_fee_bumps_signed : (relayed dearXdr).1 = some (suppliedFeeBump 10000000000) ∧
      (relayed plainXdr).1 = some (suppliedFeeBump 1200) ∧
      ¬ Permitted scenarioSdk (some zeroContract) 1000 (suppliedFeeBump 10000000000) ∧
      ¬ Permitted scenarioSdk (some zeroContract) 1000 (suppliedFeeBump 1200) := by
  have hbuilt : chooseFeeBump scenarioSdk walletKey (.transaction stakeTransaction) =
      .ok (suppliedFeeBump 1200) := by
    simp [chooseFeeBump, scenarioSdk, stakeTransaction, suppliedFeeBump, feeMargin]
  refine ⟨relayed_of from_dear_xdr rfl (choose_own rfl), relayed_of from_plain_xdr rfl hbuilt,
    fun hpermitted => ?_, fun hpermitted => ?_⟩
  · exact absurd hpermitted.bounded (by decide)
  · exact absurd hpermitted.bounded (by decide)

end Backit.Relay
