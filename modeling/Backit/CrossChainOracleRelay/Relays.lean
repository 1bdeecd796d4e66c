import Backit.Soroban.Bytes
import Backit.Soroban.Execution

/-!
# The cross-chain oracle relay

Trusted relayers submit headers of another chain, one for each block number, and relay prices with
a Merkle proof. The proof is folded into a root, and the root is not compared with anything. A
relayed price is proven when the relayer's proof starts with the element that commits to it and
leads to a root of the header that was submitted for the block, and this rests with the relayer.
-/

namespace Backit.CrossChainOracleRelay

open Soroban Contract Lib

/-- The contract's error codes that its entry points return. -/
inductive OracleRelayError where
  | alreadyInitialized
  | notInitialized
  | unauthorizedRelayer
  | invalidBlockHeader
  | merkleProofVerificationFailed
  | priceOutOfRange
  | blockAlreadyRelayed
  deriving DecidableEq

structure BlockHeader where
  parentHash : BytesN 32
  stateRoot : BytesN 32
  transactionsRoot : BytesN 32
  receiptsRoot : BytesN 32
  blockNumber : Nat
  timestamp : Nat
  deriving DecidableEq

structure OracleRelayConfig where
  admin : Address
  outcomeManager : Address
  stellarOracle : Address
  minSignatures : Nat
  feePerSubmission : Int
  feeToken : Address
  trustedRelayers : List Address
  deriving DecidableEq

structure CrossChainSource where
  chainName : Bytes
  latestBlock : Nat
  lastRelayedAt : Nat
  lastPrice : Int
  deriving DecidableEq

inductive Event where
  | headerSubmitted (relayer : Address) (blockNumber : Nat) (blockHash : BytesN 32)
  | priceRelayed (chainName : Bytes) (price : Int) (blockNumber : Nat)
  deriving DecidableEq

structure Storage where
  config : Option OracleRelayConfig
  trustedHashes : Map Nat (BytesN 32)
  relayedBlocks : Nat → Bool
  source : Bytes → Option CrossChainSource

namespace Storage

/-- The storage of a freshly deployed contract. -/
def empty : Storage := ⟨none, ∅, fun _ => false, fun _ => none⟩

variable (s : Storage)

def setConfig (config : OracleRelayConfig) : Storage := { s with config := some config }

def addTrustedHash (blockNumber : Nat) (hash : BytesN 32) : Storage :=
  { s with trustedHashes := s.trustedHashes.insert blockNumber hash }

def getTrustedHash (blockNumber : Nat) : Option (BytesN 32) := s.trustedHashes.lookup blockNumber

def markBlockRelayed (blockNumber : Nat) : Storage :=
  { s with relayedBlocks := Function.update s.relayedBlocks blockNumber true }

def setSource (chainName : Bytes) (source : CrossChainSource) : Storage :=
  { s with source := Function.update s.source chainName (some source) }

end Storage

/-- A computation of an entry point. -/
abbrev Relay (P α : Type) := Contract (Frame Storage P Event) OracleRelayError α

variable {P : Type}

section Hashing

variable (sha256 : Bytes → BytesN 32)

def computeBlockHash (header : BlockHeader) : BytesN 32 :=
  sha256 (ascii "eth_block:".toList ++ beBytes 8 header.blockNumber ++ header.parentHash.bytes ++
    header.stateRoot.bytes ++ header.transactionsRoot.bytes ++ header.receiptsRoot.bytes ++
    beBytes 8 header.timestamp)

/-- The node above the one computed so far and the next element of a proof. -/
def parentNode (computed next : BytesN 32) : BytesN 32 :=
  sha256 (ascii "merkle:".toList ++ computed.bytes ++ next.bytes)

/-- The root that a proof leads to. -/
def merkleRoot : List (BytesN 32) → Option (BytesN 32)
  | [] => none
  | leaf :: path => some (path.foldl (parentNode sha256) leaf)

/-- The root is computed, and the expected root is not looked at. -/
def verifyMerkleProof (proof : List (BytesN 32)) (_expectedRoot : BytesN 32) : Relay P Unit :=
  ignore (unwrap (merkleRoot sha256 proof) (.error .merkleProofVerificationFailed))

end Hashing

/-- The entry point `initialize`. -/
def initializeRelay (config : OracleRelayConfig) : Relay P Unit := do
  rejectIf ((← getStore).config.isSome = true) (.error .alreadyInitialized)
  requireAuth config.admin
  modifyStore (·.setConfig config)

/-- The configuration, once the relayer is known to be trusted. -/
def requireRelayer (config : OracleRelayConfig) (relayer : Address) : Relay P Unit := do
  rejectIf (relayer ∉ config.trustedRelayers) (.error .unauthorizedRelayer)

def submitBlockHeader (sha256 : Bytes → BytesN 32) (relayer : Address) (header : BlockHeader) :
    Relay P Unit := do
  requireAuth relayer
  let config ← unwrap (← getStore).config (.error .notInitialized)
  requireRelayer config relayer
  rejectIf ((← getStore).relayedBlocks header.blockNumber = true) (.error .blockAlreadyRelayed)
  let blockHash := computeBlockHash sha256 header
  modifyStore (·.addTrustedHash header.blockNumber blockHash)
  modifyStore (·.markBlockRelayed header.blockNumber)
  publish (.headerSubmitted relayer header.blockNumber blockHash)

def relayPrice (sha256 : Bytes → BytesN 32) (relayer : Address) (chainName : Bytes) (price : Int)
    (blockNumber : Nat) (merkleProof : List (BytesN 32)) (expectedRoot : BytesN 32) :
    Relay P Unit := do
  requireAuth relayer
  let config ← unwrap (← getStore).config (.error .notInitialized)
  rejectIf (price ≤ 0 ∨ 1000000000000000000 < price) (.error .priceOutOfRange)
  requireRelayer config relayer
  rejectIf ((← getStore).getTrustedHash blockNumber = none) (.error .invalidBlockHeader)
  verifyMerkleProof sha256 merkleProof expectedRoot
  let environment ← env
  modifyStore (·.setSource chainName ⟨chainName, blockNumber, environment.timestamp, price⟩)
  publish (.priceRelayed chainName price blockNumber)

/-- The arguments of `relay_price`. -/
structure PriceRelay where
  relayer : Address
  chainName : Bytes
  price : Int
  blockNumber : Nat
  merkleProof : List (BytesN 32)
  expectedRoot : BytesN 32
  deriving DecidableEq

/-- The entry points that write. -/
inductive RelayOp where
  | initializeRelay (config : OracleRelayConfig)
  | submitBlockHeader (relayer : Address) (header : BlockHeader)
  | relayPrice (relay : PriceRelay)
  deriving DecidableEq

/-- Run an entry point. -/
def RelayOp.perform (sha256 : Bytes → BytesN 32) : RelayOp → Relay P Unit
  | .initializeRelay config => CrossChainOracleRelay.initializeRelay config
  | .submitBlockHeader relayer header =>
    CrossChainOracleRelay.submitBlockHeader sha256 relayer header
  | .relayPrice r => CrossChainOracleRelay.relayPrice sha256 r.relayer r.chainName r.price
      r.blockNumber r.merkleProof r.expectedRoot

/-- The executions of the contract at an address. -/
abbrev relaySystem (sha256 : Bytes → BytesN 32) (address : Address) :
    System (Deployment Storage Unit) (Happening RelayOp Event) :=
  contractSystem (RelayOp.perform sha256) address (fun _ _ => False) fun d => d.store = .empty

/-!
## What the contract's runs leave
-/

variable {sha256 : Bytes → BytesN 32} {environment : Env} {f f' : Frame Storage P Event}

@[simp] theorem run_verifyMerkleProof_bind {β : Type} {b : β} (proof : List (BytesN 32))
    (expectedRoot : BytesN 32) (k : Unit → Relay P β) :
    run (verifyMerkleProof sha256 proof expectedRoot >>= k) environment f = .ok (b, f') ↔
      proof ≠ [] ∧ run (k ()) environment f = .ok (b, f') := by
  cases proof with
  | nil => simp [run_bind, verifyMerkleProof, merkleRoot]
  | cons leaf path =>
    simp only [run_bind, verifyMerkleProof, merkleRoot, run_ignore, run_unwrap]
    constructor
    · rintro ⟨u, _, ⟨_, -, rfl⟩, hrest⟩
      exact ⟨List.cons_ne_nil _ _, hrest⟩
    · exact fun h => ⟨(), f, ⟨_, rfl, rfl⟩, h.2⟩

theorem run_initializeRelay {config : OracleRelayConfig}
    (h : run (initializeRelay config) environment f = .ok ((), f')) :
    f'.store = f.store.setConfig config := by
  simp only [initializeRelay, run_steps] at h
  obtain ⟨-, -, rfl⟩ := h
  rfl

theorem run_submitBlockHeader {relayer : Address} {header : BlockHeader}
    (h : run (submitBlockHeader sha256 relayer header) environment f = .ok ((), f')) :
    f.store.relayedBlocks header.blockNumber = false ∧
      f'.store = (f.store.addTrustedHash header.blockNumber
        (computeBlockHash sha256 header)).markBlockRelayed header.blockNumber := by
  simp only [submitBlockHeader, requireRelayer, run_steps] at h
  obtain ⟨-, config, -, -, hfresh, rfl⟩ := h
  exact ⟨by simpa using hfresh, rfl⟩

theorem run_relayPrice {r : PriceRelay}
    (h : run (RelayOp.perform sha256 (.relayPrice r)) environment f = .ok ((), f')) :
    f'.store = f.store.setSource r.chainName
      ⟨r.chainName, r.blockNumber, environment.timestamp, r.price⟩ := by
  simp only [RelayOp.perform, relayPrice, requireRelayer, run_steps,
    run_verifyMerkleProof_bind] at h
  obtain ⟨-, config, -, -, -, -, -, rfl⟩ := h
  rfl

def submittedHeader : RelayOp → Option BlockHeader
  | .submitBlockHeader _ header => some header
  | _ => none

def relayedPrice : RelayOp → Option PriceRelay
  | .relayPrice r => some r
  | _ => none

variable {address : Address} {history : List (Happening RelayOp Event)} {d : Deployment Storage Unit}

/-- The headers that were submitted. -/
def headers (history : List (Happening RelayOp Event)) : List BlockHeader :=
  (invocations history).filterMap (submittedHeader ·.op)

/-- The prices that were relayed. -/
def relays (history : List (Happening RelayOp Event)) : List PriceRelay :=
  (invocations history).filterMap (relayedPrice ·.op)

/-- The trusted hashes are those of the submitted headers, of which each block has one, and the
stored prices were relayed. -/
structure Recorded (sha256 : Bytes → BytesN 32) (history : List (Happening RelayOp Event))
    (s : Storage) : Prop where
  relayed : ∀ header ∈ headers history, s.relayedBlocks header.blockNumber = true
  trusted : ∀ header ∈ headers history,
    s.getTrustedHash header.blockNumber = some (computeBlockHash sha256 header)
  sources : ∀ chainName source, s.source chainName = some source → ∃ r ∈ relays history,
    r.chainName = chainName ∧ r.blockNumber = source.latestBlock ∧ r.price = source.lastPrice

theorem recorded_empty : Recorded sha256 [] .empty where
  relayed := fun _ hheader => absurd hheader List.not_mem_nil
  trusted := fun _ hheader => absurd hheader List.not_mem_nil
  sources := fun _ _ hsource => by cases hsource

theorem Recorded.submit (h : Recorded sha256 history f.store) {relayer : Address}
    {header : BlockHeader} {effects : List (Effect Event)}
    (hfresh : f.store.relayedBlocks header.blockNumber = false) :
    Recorded sha256 (.invoked ⟨environment, .submitBlockHeader relayer header, effects⟩ :: history)
      ((f.store.addTrustedHash header.blockNumber
        (computeBlockHash sha256 header)).markBlockRelayed header.blockNumber) where
  relayed := by
    intro other hother
    obtain rfl | hother := List.mem_cons.mp hother
    · exact Function.update_self ..
    · by_cases heq : other.blockNumber = header.blockNumber
      · rw [heq]
        exact Function.update_self ..
      · exact (Function.update_of_ne heq ..).trans (h.relayed other hother)
  trusted := by
    intro other hother
    obtain rfl | hother := List.mem_cons.mp hother
    · exact AList.lookup_insert _
    · have hne : other.blockNumber ≠ header.blockNumber := by
        intro heq
        rw [← heq, h.relayed other hother] at hfresh
        cases hfresh
      exact (AList.lookup_insert_ne hne).trans (h.trusted other hother)
  sources := h.sources

theorem Recorded.relay (h : Recorded sha256 history f.store) {r : PriceRelay}
    {effects : List (Effect Event)} : Recorded sha256
      (.invoked ⟨environment, .relayPrice r, effects⟩ :: history)
      (f.store.setSource r.chainName
        ⟨r.chainName, r.blockNumber, environment.timestamp, r.price⟩) where
  relayed := h.relayed
  trusted := h.trusted
  sources := by
    intro chainName source hsource
    by_cases heq : chainName = r.chainName
    · subst heq
      simp only [Storage.setSource, Function.update_self, Option.some.injEq] at hsource
      subst hsource
      exact ⟨r, List.mem_cons_self, rfl, rfl, rfl⟩
    · simp only [Storage.setSource, Function.update_of_ne heq] at hsource
      obtain ⟨r', hr', hfields⟩ := h.sources chainName source hsource
      exact ⟨r', List.mem_cons_of_mem _ hr', hfields⟩

theorem recorded_of_run (run : (relaySystem sha256 address).Run history d) :
    Recorded sha256 history d.store := by
  refine contract_invariant (I := fun history d => Recorded sha256 history d.store) ?_ ?_ ?_ run
  · intro d hstart
    have hempty : d.store = .empty := hstart
    rw [hempty]
    exact recorded_empty
  · intro history d env op f _ ih _ hrun _
    cases op with
    | initializeRelay config =>
      rw [Deployment.after, run_initializeRelay hrun]
      exact ⟨ih.relayed, ih.trusted, ih.sources⟩
    | submitBlockHeader relayer header =>
      obtain ⟨hfresh, hstore⟩ := run_submitBlockHeader hrun
      rw [Deployment.after, hstore]
      exact ih.submit (f := d.frame) hfresh
    | relayPrice r =>
      rw [Deployment.after, run_relayPrice hrun]
      exact ih.relay (f := d.frame)
  · intro _ _ _ _ _ hout
    exact hout.elim

/-!
## Proven prices
-/

/-- The roots that a header carries. -/
def BlockHeader.roots (header : BlockHeader) : List (BytesN 32) :=
  [header.stateRoot, header.transactionsRoot, header.receiptsRoot]

/-- Proof elements that commit to a price of a chain. -/
abbrev Commitment := Bytes → Int → BytesN 32

/-- A relayed price is proven: its proof leads from an element that commits to it to the expected
root, which a header carries that was submitted for the block and whose hash is trusted. -/
structure Proven (sha256 : Bytes → BytesN 32) (commit : Commitment)
    (history : List (Happening RelayOp Event)) (s : Storage) (r : PriceRelay) : Prop where
  root : merkleRoot sha256 r.merkleProof = some r.expectedRoot
  bound : ∃ header ∈ headers history, header.blockNumber = r.blockNumber ∧
    s.getTrustedHash r.blockNumber = some (computeBlockHash sha256 header) ∧
    r.expectedRoot ∈ header.roots
  leaf : r.merkleProof.head? = some (commit r.chainName r.price)

/-- Stored prices were relayed, relayed prices are proven, and there is one price for a block and a
proof. -/
structure PricesProven (sha256 : Bytes → BytesN 32) (commit : Commitment)
    (history : List (Happening RelayOp Event)) (s : Storage) : Prop where
  stored : ∀ chainName source, s.source chainName = some source → ∃ r ∈ relays history,
    r.chainName = chainName ∧ r.blockNumber = source.latestBlock ∧ r.price = source.lastPrice
  proven : ∀ r ∈ relays history, Proven sha256 commit history s r
  determined : ∀ r ∈ relays history, ∀ r' ∈ relays history, r.blockNumber = r'.blockNumber →
    r.merkleProof = r'.merkleProof → r.price = r'.price

/-- The relayer has built the proof from the commitment to the price up to a root of the block's
header, and passes this root. -/
def Honest (sha256 : Bytes → BytesN 32) (commit : Commitment)
    (history : List (Happening RelayOp Event)) (r : PriceRelay) : Prop :=
  ∃ header ∈ headers history, header.blockNumber = r.blockNumber ∧ r.expectedRoot ∈ header.roots ∧
    ∃ path, r.merkleProof = commit r.chainName r.price :: path ∧
      path.foldl (parentNode sha256) (commit r.chainName r.price) = r.expectedRoot

/-- No two commitments to different relayed prices collide. -/
def Binding (commit : Commitment) (history : List (Happening RelayOp Event)) : Prop :=
  ∀ r ∈ relays history, ∀ r' ∈ relays history,
    commit r.chainName r.price = commit r'.chainName r'.price → r.price = r'.price

variable {commit : Commitment} {s : Storage} {r : PriceRelay}

theorem Proven.honest (h : Proven sha256 commit history s r) : Honest sha256 commit history r := by
  obtain ⟨header, hheader, hblock, -, hroot⟩ := h.bound
  have hleaf := h.leaf
  have hfold := h.root
  cases hproof : r.merkleProof with
  | nil =>
    rw [hproof] at hleaf
    cases hleaf
  | cons leaf path =>
    rw [hproof] at hleaf hfold
    obtain rfl := Option.some.inj hleaf
    exact ⟨header, hheader, hblock, hroot, path, hproof, Option.some.inj hfold⟩

theorem Honest.proven (h : Honest sha256 commit history r)
    (hrecorded : Recorded sha256 history s) : Proven sha256 commit history s r := by
  obtain ⟨header, hheader, hblock, hroot, path, hproof, hfold⟩ := h
  have htrusted := hrecorded.trusted header hheader
  rw [hblock] at htrusted
  exact ⟨by rw [hproof, merkleRoot, hfold], ⟨header, hheader, hblock, htrusted, hroot⟩,
    by rw [hproof, List.head?_cons]⟩

def home : Address := ⟨1⟩

def admin : Address := ⟨2⟩

def relayer : Address := ⟨3⟩

def ethereum : Bytes := ascii "ethereum:1".toList

/-- A price of a chain, hashed. -/
def hashedPrice : Commitment := fun chainName price =>
  Sha256.sha256 (i128Bytes price ++ chainName)

def word (x : Nat) : BytesN 32 := ⟨beBytes 32 x, length_beBytes 32 x⟩

def relayConfig : OracleRelayConfig := ⟨admin, ⟨4⟩, ⟨5⟩, 1, 0, ⟨6⟩, [relayer]⟩

/-- The header of block 100 with a state root. -/
def headerWith (stateRoot : BytesN 32) : BlockHeader :=
  ⟨word 1, stateRoot, word 3, word 4, 100, 1234567890⟩

/-- An invocation at a time. -/
def at_ (timestamp : Nat) (op : RelayOp) : Env × RelayOp :=
  (⟨home, timestamp, timestamp, [admin, relayer]⟩, op)

def deployed : Deployment Storage Unit := ⟨.empty, (), 0, 0⟩

/-- The contract is set up, and the header of block 100 is submitted. -/
def opening (stateRoot : BytesN 32) : List (Env × RelayOp) :=
  [at_ 1 (.initializeRelay relayConfig), at_ 2 (.submitBlockHeader relayer (headerWith stateRoot))]

/-- The root above the commitment to a price of 1000 and its sibling. -/
def genuineRoot : BytesN 32 := parentNode Sha256.sha256 (hashedPrice ethereum 1000) (word 7)

def genuineRelay : PriceRelay :=
  ⟨relayer, ethereum, 1000, 100, [hashedPrice ethereum 1000, word 7], genuineRoot⟩

/-- A price with a proof of one element that commits to nothing, and a root of nothing. -/
def inventedRelay (price : Int) : PriceRelay := ⟨relayer, ethereum, price, 100, [word 5], word 0⟩

def genuineRun : System.Replayed (relaySystem Sha256.sha256 home)
    (Deployment.next (RelayOp.perform Sha256.sha256) home) System.anything :=
  .of deployed rfl (opening genuineRoot ++ [at_ 3 (.relayPrice genuineRelay)]) (by decide +kernel)

def inventedRun : System.Replayed (relaySystem Sha256.sha256 home)
    (Deployment.next (RelayOp.perform Sha256.sha256) home) System.anything :=
  .of deployed rfl (opening (word 2) ++ [at_ 3 (.relayPrice (inventedRelay 1000)),
    at_ 4 (.relayPrice (inventedRelay 2000))]) (by decide +kernel)

end Backit.CrossChainOracleRelay
