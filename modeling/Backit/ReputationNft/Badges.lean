import Backit.Soroban.Execution

/-!
# Reputation badges

The administrator awards soulbound badges. Every badge is stored under its id; beside the badges the
contract keeps, for every user, the list of the ids of the user's badges, and, for every type and
user, whether the badge has been awarded.
-/

namespace Backit.ReputationNft

open Soroban Contract Lib

inductive ReputationError where
  | alreadyInitialized
  | notInitialized
  | unauthorized
  | badgeAlreadyAwarded
  | transferNotAllowed
  | invalidBadgeType
  | nonTransferable
  | badgeNotFound
  | invalidTier
  deriving DecidableEq

structure Badge where
  tokenId : Nat
  recipient : Address
  badgeType : String
  metadataUri : String
  mintedAt : Nat
  tier : Nat
  deriving DecidableEq

/-- The highest tier of a badge. -/
def maxTier : Nat := 5

structure ReputationConfig where
  admin : Address
  deriving DecidableEq

def badgeTop10 : String := "TOP10"

def badge100Correct : String := "100COR"

def badgeEarly : String := "EARLY"

def badgeMillion : String := "MILLION"

inductive Event where
  | badgeRevoked (user : Address) (badgeType : String) (tokenId : Nat)
  | badgeAwarded (user : Address) (badgeType : String) (tokenId : Nat)
  deriving DecidableEq

structure Storage where
  config : Option ReputationConfig
  badgeCounter : Nat
  badge : Map Nat Badge
  userBadges : Address → List Nat
  badgeAwarded : String → Address → Bool

namespace Storage

/-- The storage of a freshly deployed contract. -/
def empty : Storage := ⟨none, 0, ∅, fun _ => [], fun _ _ => false⟩

variable (s : Storage)

def setConfig (config : ReputationConfig) : Storage := { s with config := some config }

def setBadgeCounter (id : Nat) : Storage := { s with badgeCounter := id }

def setBadge (id : Nat) (badge : Badge) : Storage := { s with badge := s.badge.insert id badge }

def getBadge (id : Nat) : Option Badge := s.badge.lookup id

def addUserBadge (user : Address) (badgeId : Nat) : Storage :=
  { s with userBadges := Function.update s.userBadges user (s.userBadges user ++ [badgeId]) }

def removeBadge (id : Nat) : Storage := { s with badge := s.badge.erase id }

def removeUserBadge (user : Address) (badgeId : Nat) : Storage :=
  { s with
    userBadges := Function.update s.userBadges user ((s.userBadges user).filter (· ≠ badgeId)) }

def setBadgeAwarded (badgeType : String) (user : Address) (awarded : Bool) : Storage :=
  { s with
    badgeAwarded := Function.update s.badgeAwarded badgeType
      (Function.update (s.badgeAwarded badgeType) user awarded) }

def markBadgeAwarded (badgeType : String) (user : Address) : Storage :=
  s.setBadgeAwarded badgeType user true

def unmarkBadgeAwarded (badgeType : String) (user : Address) : Storage :=
  s.setBadgeAwarded badgeType user false

/-- The storage once a badge is handed out. -/
def withBadge (badge : Badge) : Storage :=
  (((s.setBadgeCounter badge.tokenId).setBadge badge.tokenId badge).addUserBadge badge.recipient
    badge.tokenId).markBadgeAwarded badge.badgeType badge.recipient

/-- The storage once the badge with an id is taken away. -/
def withoutBadge (id : Nat) (badge : Badge) : Storage :=
  ((s.removeBadge id).removeUserBadge badge.recipient id).unmarkBadgeAwarded badge.badgeType
    badge.recipient

end Storage

/-- A computation of an entry point. -/
abbrev Reputation (P α : Type) := Contract (Frame Storage P Event) ReputationError α

variable {P : Type}

/-- The entry point `initialize`. -/
def initializeReputation (admin : Address) : Reputation P Unit := do
  rejectIf ((← getStore).config.isSome = true) (.error .alreadyInitialized)
  requireAuth admin
  modifyStore (·.setConfig ⟨admin⟩)

def requireAdmin : Reputation P Unit := do
  let config ← unwrap (← getStore).config (.error .notInitialized)
  requireAuth config.admin

/-- The next id of a badge. The counter is written with the badge. -/
def nextBadgeId : Reputation P Nat := do
  unsigned 64 ((← getStore).badgeCounter + 1)

/-- Store a new badge, list it and mark it as awarded. -/
def handOut (recipient : Address) (badgeType metadataUri : String) (tier : Nat) :
    Reputation P Nat := do
  let tokenId ← nextBadgeId
  modifyStore (·.withBadge ⟨tokenId, recipient, badgeType, metadataUri, (← env).timestamp, tier⟩)
  publish (.badgeAwarded recipient badgeType tokenId)
  pure tokenId

def awardBadge (recipient : Address) (badgeType metadataUri : String) : Reputation P Nat := do
  requireAdmin
  rejectIf ((← getStore).badgeAwarded badgeType recipient = true) (.error .badgeAlreadyAwarded)
  handOut recipient badgeType metadataUri 1

def isValidBadge (badge : String) : Bool :=
  badge == "PARLAY_CHAMPION" || badge == "TOP_TIER_ACCURACY" || badge == badgeTop10 ||
    badge == badge100Correct || badge == badgeEarly || badge == badgeMillion

def mint (recipient : Address) (badgeId : String) (tier : Nat) (metadataUri : String) :
    Reputation P Nat := do
  requireAdmin
  rejectIf (isValidBadge badgeId = false) (.error .invalidBadgeType)
  rejectIf (tier = 0 ∨ maxTier < tier) (.error .invalidTier)
  rejectIf ((← getStore).badgeAwarded badgeId recipient = true) (.error .badgeAlreadyAwarded)
  handOut recipient badgeId metadataUri tier

def revoke (tokenId : Nat) : Reputation P Unit := do
  requireAdmin
  let badge ← unwrap ((← getStore).getBadge tokenId) (.error .badgeNotFound)
  modifyStore (·.withoutBadge tokenId badge)
  publish (.badgeRevoked badge.recipient badge.badgeType tokenId)

def ownerOf (tokenId : Nat) : Reputation P Address := do
  let badge ← unwrap ((← getStore).getBadge tokenId) (.error .badgeNotFound)
  pure badge.recipient

def balance (owner : Address) : Reputation P Nat := do
  pure ((← getStore).userBadges owner).length

def getUserBadges (user : Address) : Reputation P (List Badge) := do
  let s ← getStore
  pure ((s.userBadges user).filterMap s.getBadge)

def transferFrom (_spender _sender _recipient : Address) (_tokenId : Nat) : Reputation P Unit :=
  fail (.error .nonTransferable)

def transfer (_sender _recipient : Address) (_tokenId : Nat) : Reputation P Unit :=
  fail (.error .nonTransferable)

structure UserStats where
  totalPredictions : Nat
  correctPredictions : Nat
  accuracyBps : Nat
  totalPayout : Int
  deriving DecidableEq

/-- The statistics of a user: the contract knows none. -/
def getUserStats (_user : Address) : UserStats := ⟨0, 0, 0, 0⟩

/-- Award a badge if it can be awarded. An award returns its errors before it writes anything. -/
def tryAward (recipient : Address) (badgeType metadataUri : String) :
    Reputation P (List Nat) := fun env f =>
  match awardBadge recipient badgeType metadataUri env f with
  | .ok (id, f') => .ok ([id], f')
  | .error (.error _) => .ok ([], f)
  | .error trap => .error trap

/-- Award a badge to a user who meets its condition and does not have it. -/
def awardWhen (condition : Bool) (user : Address) (badgeType metadataUri : String) :
    Reputation P (List Nat) := do
  if condition && !(← getStore).badgeAwarded badgeType user then
    tryAward user badgeType metadataUri
  else
    pure []

def checkAndAwardBadges (user : Address) : Reputation P (List Nat) := do
  let stats := getUserStats user
  let correct ← awardWhen (100 ≤ stats.correctPredictions) user badge100Correct "ipfs://100correct"
  let top ← awardWhen (0 < stats.totalPredictions && 8000 ≤ stats.accuracyBps) user badgeTop10
    "ipfs://top10"
  let million ← awardWhen (1000000 ≤ stats.totalPayout) user badgeMillion "ipfs://millionaire"
  pure (correct ++ top ++ million)

/-- The entry points that write, and the transfers that are always refused. -/
inductive ReputationOp where
  | initializeReputation (admin : Address)
  | awardBadge (recipient : Address) (badgeType metadataUri : String)
  | mint (recipient : Address) (badgeId : String) (tier : Nat) (metadataUri : String)
  | revoke (tokenId : Nat)
  | checkAndAwardBadges (user : Address)
  | transferFrom (spender sender recipient : Address) (tokenId : Nat)
  | transfer (sender recipient : Address) (tokenId : Nat)
  deriving DecidableEq

/-- Run an entry point. -/
def ReputationOp.perform : ReputationOp → Reputation P Unit
  | .initializeReputation admin => ReputationNft.initializeReputation admin
  | .awardBadge recipient badgeType metadataUri =>
    ignore (ReputationNft.awardBadge recipient badgeType metadataUri)
  | .mint recipient badgeId tier metadataUri =>
    ignore (ReputationNft.mint recipient badgeId tier metadataUri)
  | .revoke tokenId => ReputationNft.revoke tokenId
  | .checkAndAwardBadges user => ignore (ReputationNft.checkAndAwardBadges user)
  | .transferFrom spender sender recipient tokenId =>
    ReputationNft.transferFrom spender sender recipient tokenId
  | .transfer sender recipient tokenId => ReputationNft.transfer sender recipient tokenId

end Backit.ReputationNft
