import Backit.SchellingOracle.Escrow

/-!
# Conservation of a dispute

A resolution pays exactly the bond and all stakes of its dispute, to whom the rules assign them. It
can be had for every dispute whose arithmetic stays in range, since nothing else is in its way.
-/

namespace Backit.SchellingOracle

open Soroban Contract Lib

section Run

variable {T : Type} [Tokens T] [Crypto] {self : Address} {outside : T → T → Prop}
  {d : Deployment Storage T} {history : List (Happening OracleOp Event)} {disputeId : Nat}
  {dispute : Dispute} {env : Env}

omit [Crypto] in
/-- What a dispute that is not resolved has in escrow is part of the obligation. -/
theorem Sound.escrowed_le_obligation {s : Storage} (h : Sound s)
    (hdispute : s.dispute disputeId = some dispute) (hpending : dispute.result = .pending) :
    dispute.bondAmount + staked (s.ballots disputeId) ≤ s.obligation dispute.stakeToken := by
  have hid := (h.numbered disputeId dispute hdispute).2
  have hmem : disputeId ∈ List.range' 1 s.disputeCounter := by
    rw [List.mem_range'_1]
    omega
  have hmine : s.escrowed dispute.stakeToken disputeId =
      dispute.bondAmount + staked (s.ballots disputeId) := by
    rw [escrowed_of hdispute, if_pos ⟨hpending, rfl⟩, staked_ballots]
  rw [← hmine]
  refine List.single_le_sum (fun x hx => ?_) _ (List.mem_map_of_mem hmem)
  obtain ⟨other, -, rfl⟩ := List.mem_map.mp hx
  exact h.escrowed_nonneg dispute.stakeToken other

/-- A dispute past its reveal deadline is resolved if and only if the arithmetic stays in range. The
resolution makes the payments that the rules assign and no others. They are positive and sum to the
bond and the stakes of all voters. -/
theorem resolution_conserves (hexact : ExactTransfers T) (hpay : HoldersPay T)
    (hundrained : Undrained self outside)
    (hheld : ∀ token, ∃ held, Tokens.balance d.peers token self = some held)
    (hrun : (oracle self outside).Run history d)
    (hdispute : d.store.dispute disputeId = some dispute) (hpending : dispute.result = .pending)
    (hadmissible : Admissible self d env) (hdeadline : dispute.revealDeadline ≤ env.timestamp) :
    ∃ config, d.store.config = some config ∧
      ((payments dispute config.admin (d.store.ballots disputeId)).map Prod.snd).sum =
        dispute.bondAmount +
          ((d.store.voters disputeId).map (d.store.stakeOf disputeId)).sum ∧
      (∀ p ∈ payments dispute config.admin (d.store.ballots disputeId), 0 < p.2) ∧
      ((∃ f, run (OracleOp.resolveDispute disputeId).perform env d.frame = .ok ((), f)) ↔
        (d.store.ballots disputeId ≠ [] →
          ResolutionFits dispute (d.store.ballots disputeId))) ∧
      ∀ f, run (OracleOp.resolveDispute disputeId).perform env d.frame = .ok ((), f) →
        f.effects =
            .event (.disputeResolved disputeId (resultOf dispute (d.store.ballots disputeId))
              (distributedOf dispute (d.store.ballots disputeId))) ::
            payEffects env dispute.stakeToken
              (payments dispute config.admin (d.store.ballots disputeId)) ∧
          f.store = d.store.resolved dispute (resultOf dispute (d.store.ballots disputeId)) := by
  have hs := sound_of_run hrun
  obtain ⟨config, hconfig⟩ := hs.config_of_dispute hdispute
  obtain ⟨hbond, hdiffer⟩ := hs.terms disputeId dispute hdispute
  have hcast := hs.ballots_cast hdispute
  have hsum := sum_payments dispute config.admin _ hbond hcast.positive
  have hpositive := payments_pos dispute config.admin _ hbond hcast.positive
  have hresolve : ∀ f, run (OracleOp.resolveDispute disputeId).perform env d.frame = .ok ((), f) ↔
      _ := fun f => run_resolveDispute hdispute (hs.voters_eq disputeId) hcast hbond hdiffer hconfig
  refine ⟨config, hconfig, ?_, hpositive, ⟨?_, fun hfits => ?_⟩, fun f hf => ?_⟩
  · rw [hsum, staked_ballots]
  · rintro ⟨f, hf⟩
    exact ((hresolve f).mp hf).2.2.1
  · -- The escrow covers the payments, so the token makes them.
    have hself := hadmissible.contract
    subst hself
    obtain ⟨held, hbalance⟩ := hheld dispute.stakeToken
    have hcovered : ((payments dispute config.admin (d.store.ballots disputeId)).map
        Prod.snd).sum ≤ held := by
      rw [hsum]
      exact (hs.escrowed_le_obligation hdispute hpending).trans
        (obligation_le_held hexact hundrained hrun dispute.stakeToken hbalance)
    obtain ⟨tokens, hreplay⟩ := hpay.pays hexact hpositive hbalance hcovered
    exact ⟨_, (hresolve _).mpr ⟨hpending, hdeadline, hfits, _, ⟨tokens, hreplay, rfl⟩, rfl⟩⟩
  · obtain ⟨-, -, -, _, ⟨tokens, -, rfl⟩, rfl⟩ := (hresolve f).mp hf
    refine ⟨?_, rfl⟩
    exact congrArg (_ :: ·) (List.append_nil _)

end Run

section Scenario

def alice : Address := ⟨1⟩

def bob : Address := ⟨2⟩

def carol : Address := ⟨3⟩

def dave : Address := ⟨4⟩

def admin : Address := ⟨10⟩

def usdc : Address := ⟨50⟩

/-- The contract's address in the scenarios. -/
def home : Address := ⟨700⟩

/-- An invocation of the contract at a time, with the addresses that authorise it. -/
def at_ (timestamp : Nat) (auths : List Address) (op : OracleOp) : Env × OracleOp :=
  (⟨home, timestamp, timestamp, auths⟩, op)

/-- Two salts. -/
def saltA : BytesN 32 := ⟨List.replicate 32 7, by simp⟩

def saltB : BytesN 32 := ⟨List.replicate 32 8, by simp⟩

/-- The hashes of votes in the scenarios. -/
def voteDigests : Sha256.Table where
  entries :=
    [(commitmentMessage 1 saltA,
        ⟨beBytes 32 0xc630af2f8762e653b8b85c0eac54e3543e41e070d3a7730bfa86842059e449aa, by simp⟩),
      (commitmentMessage 1 saltB,
        ⟨beBytes 32 0x87f3600f5be5e0ab9aaa4af5dda850e1947776ce6dccedb5c07fe862bb3b5ca1, by simp⟩),
      (commitmentMessage 2 saltA,
        ⟨beBytes 32 0xf51c48cda415dda8aab90eeb8f63121724db5f4f0ac78b929ea02aecb06016d1, by simp⟩)]
  correct := by decide +kernel

/-- SHA-256; the contract checks no signatures. -/
abbrev voteCrypto : Crypto where
  sha256 := voteDigests.sha256
  ed25519Verify _ _ _ := false

attribute [local instance] voteCrypto

/-- Nothing happens to the contracts around this one. -/
def nowhere : StandardLedger → StandardLedger → Prop := fun _ _ => False

theorem nowhere_undrained : Undrained home nowhere := fun _ _ h => h.elim

/-- Everybody in the scenarios starts with two to the eightieth of the token. -/
def sampleLedger : StandardLedger :=
  .ofHoldings fun token =>
    if token = usdc then
      (((Holdings.empty.set alice (2 ^ 80) (by decide)).set bob (2 ^ 80) (by decide)).set carol
        (2 ^ 80) (by decide)).set dave (2 ^ 80) (by decide)
    else .empty

def freshDeployment : Deployment Storage StandardLedger := ⟨Storage.empty, sampleLedger, 0, 0⟩

/-- The contract in a world where nothing else happens. -/
abbrev alone : System (Deployment Storage StandardLedger) (Happening OracleOp Event) :=
  oracle home nowhere

/-- Invoke the contract. -/
abbrev invoke (d : Deployment Storage StandardLedger) (input : Env × OracleOp) :
    Option (Happening OracleOp Event × Deployment Storage StandardLedger) :=
  d.next OracleOp.perform home input

theorem fresh_deployment_initial : alone.initial freshDeployment := by
  refine ⟨rfl, fun token held hheld => ?_⟩
  rw [← Option.some.inj hheld]
  exact (sampleLedger.holdings token).nonneg home

theorem balance_known (l : StandardLedger) (address token : Address) :
    ∃ held, Tokens.balance l token address = some held := ⟨_, rfl⟩

/-- Alice bonds an amount against outcome 1 of call 1 and says that it is 2. -/
def openedScript (bond : Int) : List (Env × OracleOp) :=
  [at_ 1 [admin] (.initializeOracle admin 100 100 500),
    at_ 10 [alice] (.disputeOutcome alice 1 1 2 1000 usdc bond)]

/-- Bob and Dave vote for outcome 1, and Carol for 2. All reveal. -/
def revealedScript : List (Env × OracleOp) :=
  openedScript 100 ++
    [at_ 20 [bob] (.voteOnDispute bob 1 (commitmentHash 1 saltA) 300),
      at_ 21 [carol] (.voteOnDispute carol 1 (commitmentHash 2 saltA) 200),
      at_ 22 [dave] (.voteOnDispute dave 1 (commitmentHash 1 saltB) 101),
      at_ 110 [bob] (.revealVote bob 1 1 saltA),
      at_ 111 [carol] (.revealVote carol 1 2 saltA),
      at_ 112 [dave] (.revealVote dave 1 1 saltB)]

/-- The bond and Bob's stake are two to the seventieth. -/
def largeScript : List (Env × OracleOp) :=
  openedScript (2 ^ 70) ++
    [at_ 20 [bob] (.voteOnDispute bob 1 (commitmentHash 1 saltA) (2 ^ 70)),
      at_ 110 [bob] (.revealVote bob 1 1 saltA)]

def revealedRun : System.Replayed alone invoke System.anything :=
  .of freshDeployment fresh_deployment_initial revealedScript (by decide +kernel)

def largeRun : System.Replayed alone invoke System.anything :=
  .of freshDeployment fresh_deployment_initial largeScript (by decide +kernel)

theorem revealed_run : alone.Run revealedRun.history revealedRun.state :=
  revealedRun.run Deployment.next_step System.anything_allowed

theorem large_run : alone.Run largeRun.history largeRun.state :=
  largeRun.run Deployment.next_step System.anything_allowed

/-- The dispute of the scenarios. -/
def sampleDispute (bond : Int) : Dispute where
  id := 1
  callId := 1
  disputer := alice
  originalOutcome := 1
  disputedOutcome := 2
  stakeToken := usdc
  bondAmount := bond
  totalPoolAmount := 1000
  commitDeadline := 110
  revealDeadline := 210
  result := .pending

/-- The environment of a resolution after the reveal deadline. -/
def resolutionEnv : Env := ⟨home, 210, 210, []⟩

/-- The resolution of the votes of Bob, Carol and Dave pays Bob 524, Dave 176 and the admin 1. -/
theorem resolution_conserves_three_votes :
    (∃ f, run (OracleOp.resolveDispute 1).perform resolutionEnv revealedRun.state.frame =
      .ok ((), f)) ∧
    payments (sampleDispute 100) admin (revealedRun.state.store.ballots 1) =
      [(bob, 524), (dave, 176), (admin, 1)] := by
  obtain ⟨config, -, -, -, hresolves, -⟩ := resolution_conserves
    StandardLedger.exact_transfers StandardLedger.holders_pay nowhere_undrained
    (balance_known _ home) revealed_run
    (show revealedRun.state.store.dispute 1 = some (sampleDispute 100) by decide +kernel) rfl
    (show Admissible home revealedRun.state resolutionEnv by decide +kernel) (by decide)
  refine ⟨hresolves.mpr fun _ => ⟨?_, ?_, ?_, ?_⟩, by decide +kernel⟩
  · intro side
    cases side <;> decide +kernel
  · decide +kernel
  · decide +kernel
  · decide +kernel

/-- The dispute over two to the seventieth cannot be resolved: its share's product is out of range. -/
theorem large_dispute_not_resolved : alone.Run largeRun.history largeRun.state ∧
      largeRun.state.store.dispute 1 = some (sampleDispute (2 ^ 70)) ∧
      Admissible home largeRun.state resolutionEnv ∧
      (invoke largeRun.state (resolutionEnv, .resolveDispute 1)).isNone = true :=
  ⟨large_run, by decide +kernel, by decide +kernel, by decide +kernel⟩

end Scenario

end Backit.SchellingOracle
