import Backit.SchellingOracle.Settlement

/-!
# What the entry points do

Every successful invocation makes one of the listed transitions. A transition carries the checks
that it passed, its effects, most recent first, and the storage it left.
-/

namespace Backit.SchellingOracle

open Soroban Contract Lib

namespace Storage

variable (s : Storage)

/-- The voters on a dispute with their commitments. -/
def ballots (disputeId : Nat) : List Ballot :=
  (s.voters disputeId).filterMap fun voter => (s.commitment (disputeId, voter)).map (voter, ·)

/-- The storage after a dispute is opened. -/
def opened (dispute : Dispute) : Storage := (s.setDisputeCounter dispute.id).setDispute dispute

/-- The storage after a voter commits. -/
def voted (disputeId : Nat) (voter : Address) (c : VoteCommitment) : Storage :=
  (s.setCommitment disputeId voter c).appendVoter disputeId voter

end Storage

/-- What holds of the contract's storage whatever is invoked. -/
structure Sound (s : Storage) : Prop where
  configured : s.config = none → s = Storage.empty
  numbered : ∀ id dispute, s.dispute id = some dispute →
    dispute.id = id ∧ 1 ≤ id ∧ id ≤ s.disputeCounter
  terms : ∀ id dispute, s.dispute id = some dispute →
    0 < dispute.bondAmount ∧ dispute.originalOutcome ≠ dispute.disputedOutcome
  cast : ∀ id voter c, s.commitment (id, voter) = some c →
    ∃ dispute, s.dispute id = some dispute ∧ 0 < c.stakeAmount ∧ (c.revealed = true →
      c.revealedOutcome = dispute.originalOutcome ∨ c.revealedOutcome = dispute.disputedOutcome)
  voters_nodup : ∀ id, (s.voters id).Nodup
  mem_voters : ∀ id voter, voter ∈ s.voters id ↔ s.commitment (id, voter) ≠ none

section Ballots

variable {s : Storage} {disputeId : Nat} {dispute : Dispute}

theorem Sound.voters_eq (h : Sound s) (disputeId : Nat) :
    s.voters disputeId = (s.ballots disputeId).map Prod.fst := by
  have hall : ∀ voters : List Address,
      (∀ voter ∈ voters, s.commitment (disputeId, voter) ≠ none) →
      voters = (voters.filterMap fun voter =>
        (s.commitment (disputeId, voter)).map (voter, ·)).map Prod.fst := by
    intro voters hvoters
    induction voters with
    | nil => rfl
    | cons voter rest ih =>
      obtain ⟨c, hc⟩ := Option.ne_none_iff_exists'.mp (hvoters voter (.head _))
      rw [List.filterMap_cons, hc, Option.map_some, List.map_cons]
      exact congrArg (voter :: ·) (ih fun v hv => hvoters v (.tail _ hv))
  exact hall _ fun voter hvoter => (h.mem_voters disputeId voter).mp hvoter

theorem mem_ballots {b : Ballot} (hb : b ∈ s.ballots disputeId) :
    s.commitment (disputeId, b.1) = some b.2 := by
  obtain ⟨voter, -, hvoter⟩ := List.mem_filterMap.mp hb
  obtain ⟨c, hc, rfl⟩ := Option.map_eq_some_iff.mp hvoter
  exact hc

theorem Sound.ballots_cast (h : Sound s) (hdispute : s.dispute disputeId = some dispute) :
    Cast s disputeId dispute (s.ballots disputeId) := by
  have hterms : ∀ b ∈ s.ballots disputeId, 0 < b.2.stakeAmount ∧ (b.2.revealed = true →
      b.2.revealedOutcome = dispute.originalOutcome ∨
        b.2.revealedOutcome = dispute.disputedOutcome) := by
    intro b hb
    obtain ⟨stored, hstored, hterms⟩ := h.cast disputeId b.1 b.2 (mem_ballots hb)
    obtain rfl : stored = dispute := Option.some.inj (hstored.symm.trans hdispute)
    exact hterms
  exact ⟨fun b hb => mem_ballots hb, fun b hb => (hterms b hb).1, fun b hb => (hterms b hb).2⟩

theorem Sound.config_of_dispute (h : Sound s) (hdispute : s.dispute disputeId = some dispute) :
    ∃ config, s.config = some config := by
  refine Option.ne_none_iff_exists'.mp fun hnone => ?_
  rw [h.configured hnone] at hdispute
  exact absurd hdispute (by simp [Storage.empty])

end Ballots

/-- A new dispute. -/
def newDispute (env : Env) (id callId : Nat) (disputer : Address)
    (originalOutcome disputedOutcome : Nat) (stakeToken : Address)
    (bondAmount totalPoolAmount : Int) (config : DisputeConfig) : Dispute where
  id := id
  callId := callId
  disputer := disputer
  originalOutcome := originalOutcome
  disputedOutcome := disputedOutcome
  stakeToken := stakeToken
  bondAmount := bondAmount
  totalPoolAmount := totalPoolAmount
  commitDeadline := env.timestamp + config.votingPeriodSecs
  revealDeadline := env.timestamp + config.votingPeriodSecs + config.revealPeriodSecs
  result := .pending

/-- A successful invocation: its checks, its effects and the storage it left. -/
inductive Transition [Crypto] (env : Env) :
    OracleOp → Storage → List (Effect Event) → Storage → Prop where
  | configured {admin voting reveal bondBps s} : s.config = none → admin ∈ env.auths →
      Transition env (.initializeOracle admin voting reveal bondBps) s []
        (s.setConfig ⟨admin, voting, reveal, bondBps⟩)
  | reconfigured {admin voting reveal bondBps config s} :
      s.config = some config → config.admin = admin → admin ∈ env.auths →
      Transition env (.setDisputeParams admin voting reveal bondBps) s []
        (s.setConfig { config with
          votingPeriodSecs := voting, revealPeriodSecs := reveal, bondBps := bondBps })
  | opened {disputer callId original disputed pool stakeToken bond config s} :
      disputer ∈ env.auths → s.config = some config → original ≠ disputed → 0 < bond →
      Transition env (.disputeOutcome disputer callId original disputed pool stakeToken bond) s
        [.event (.disputeOpened (s.disputeCounter + 1) callId disputer original disputed bond
            (env.timestamp + config.votingPeriodSecs)
            (env.timestamp + config.votingPeriodSecs + config.revealPeriodSecs)),
          .transfer stakeToken disputer env.contract bond]
        (s.opened (newDispute env (s.disputeCounter + 1) callId disputer original disputed
          stakeToken bond pool config))
  | voted {voter disputeId hash stakeAmount dispute s} :
      voter ∈ env.auths → s.dispute disputeId = some dispute → dispute.result = .pending →
      env.timestamp < dispute.commitDeadline → 0 < stakeAmount →
      s.commitment (disputeId, voter) = none →
      (s.voters disputeId).length < maxVotersPerDispute →
      Transition env (.voteOnDispute voter disputeId hash stakeAmount) s
        [.event (.voteCommitted disputeId voter hash stakeAmount),
          .transfer dispute.stakeToken voter env.contract stakeAmount]
        (s.voted disputeId voter ⟨hash, stakeAmount, false, 0⟩)
  | revealed {voter disputeId voteOutcome salt dispute c s} :
      voter ∈ env.auths → s.dispute disputeId = some dispute → dispute.result = .pending →
      dispute.commitDeadline ≤ env.timestamp → env.timestamp < dispute.revealDeadline →
      voteOutcome = dispute.originalOutcome ∨ voteOutcome = dispute.disputedOutcome →
      s.commitment (disputeId, voter) = some c → c.revealed = false →
      commitmentHash voteOutcome salt = c.commitmentHash →
      Transition env (.revealVote voter disputeId voteOutcome salt) s
        [.event (.voteRevealed disputeId voter voteOutcome c.stakeAmount)]
        (s.setCommitment disputeId voter
          { c with revealed := true, revealedOutcome := voteOutcome })
  | resolved {disputeId dispute config s} :
      s.dispute disputeId = some dispute → s.config = some config → dispute.result = .pending →
      dispute.revealDeadline ≤ env.timestamp →
      (s.ballots disputeId ≠ [] → ResolutionFits dispute (s.ballots disputeId)) →
      Transition env (.resolveDispute disputeId) s
        (.event (.disputeResolved disputeId (resultOf dispute (s.ballots disputeId))
            (distributedOf dispute (s.ballots disputeId))) ::
          payEffects env dispute.stakeToken
            (payments dispute config.admin (s.ballots disputeId)))
        (s.resolved dispute (resultOf dispute (s.ballots disputeId)))

section Specs

variable {T : Type} [Tokens T] [Crypto] {env : Env} {f f' : Frame Storage T Event}

omit [Tokens T] [Crypto] in
theorem run_computeMinBond_bind {α : Type} {r : α} (pool : Int) (bondBps : Nat)
    (k : Int → Oracle T α) :
    run (computeMinBond pool bondBps >>= k) env f = .ok (r, f') ↔
      InI128 (pool * bondBps) ∧ ∃ minBond, checkedDiv (pool * bondBps) 10000 = some minBond ∧
        run (k minBond) env f = .ok (r, f') := by
  simp only [computeMinBond, Contract.bind_assoc, run_orOverflow_bind, checkedMul, checked_eq_some]
  constructor
  · rintro ⟨_, ⟨hscaled, rfl⟩, hrest⟩
    exact ⟨hscaled, hrest⟩
  · rintro ⟨hscaled, hrest⟩
    exact ⟨_, ⟨hscaled, rfl⟩, hrest⟩

/-- An invocation that succeeds makes a listed transition. -/
theorem OracleOp.transitions {op : OracleOp} (hs : Sound f.store)
    (h : run op.perform env f = .ok ((), f')) :
    ∃ effects, f'.effects = effects ++ f.effects ∧ Replays env f.tokens effects f'.tokens ∧
      Transition env op f.store effects f'.store := by
  cases op with
  | initializeOracle admin voting reveal bondBps =>
    simp only [OracleOp.perform, SchellingOracle.initializeOracle, run_steps,
      run_validateParams_bind] at h
    obtain ⟨hnone, hauth, -, -, rfl⟩ := h
    exact ⟨[], rfl, .nil, .configured (by simpa using hnone) hauth⟩
  | setDisputeParams admin voting reveal bondBps =>
    simp only [OracleOp.perform, SchellingOracle.setDisputeParams, run_steps,
      run_validateParams_bind, ne_eq, not_not] at h
    obtain ⟨config, hconfig, hadmin, hauth, -, -, rfl⟩ := h
    exact ⟨[], rfl, .nil, .reconfigured hconfig hadmin hauth⟩
  | disputeOutcome disputer callId original disputed pool stakeToken bond =>
    simp only [OracleOp.perform, run_ignore, SchellingOracle.disputeOutcome, run_steps,
      run_computeMinBond_bind, transferToken_eq, checkedAddU64_eq_some, nextDisputeId,
      Contract.bind_assoc, not_le] at h
    obtain ⟨_, hauth, config, hconfig, -, hdiffer, -, hbond, -, minBond, -, -, tokens,
      htransfer, _, ⟨-, rfl⟩, _, ⟨-, rfl⟩, -, -, rfl⟩ := h
    exact ⟨_, rfl, .event (Replays.nil.transfer htransfer), .opened hauth hconfig hdiffer hbond⟩
  | voteOnDispute voter disputeId hash stakeAmount =>
    simp only [OracleOp.perform, SchellingOracle.voteOnDispute, run_steps,
      run_requireDispute_bind, transferToken_eq, ne_eq, not_not, not_le] at h
    obtain ⟨hauth, dispute, hdispute, hpending, hopen, hstake, hfresh, hroom, tokens,
      htransfer, rfl⟩ := h
    exact ⟨_, rfl, .event (Replays.nil.transfer htransfer),
      .voted hauth hdispute hpending hopen hstake (by simpa using hfresh) hroom⟩
  | revealVote voter disputeId voteOutcome salt =>
    simp only [OracleOp.perform, SchellingOracle.revealVote, run_steps, run_requireDispute_bind,
      run_requireCommitment_bind, ne_eq, not_not, not_lt, not_le, not_and_or, Bool.not_eq_true] at h
    obtain ⟨hauth, dispute, hdispute, hpending, hclosed, hopen, houtcome, c, hc, hhidden, hhash,
      rfl⟩ := h
    exact ⟨_, rfl, .event .nil,
      .revealed hauth hdispute hpending hclosed hopen houtcome hc hhidden hhash⟩
  | resolveDispute disputeId =>
    obtain ⟨dispute, hdispute⟩ : ∃ dispute, f.store.dispute disputeId = some dispute := by
      simp only [OracleOp.perform, SchellingOracle.resolveDispute, run_requireDispute_bind] at h
      obtain ⟨dispute, hdispute, -⟩ := h
      exact ⟨dispute, hdispute⟩
    obtain ⟨config, hconfig⟩ := hs.config_of_dispute hdispute
    obtain ⟨hbond, hdiffer⟩ := hs.terms disputeId dispute hdispute
    obtain ⟨hpending, hclosed, hfits, _, ⟨tokens, hreplay, rfl⟩, rfl⟩ :=
      (run_resolveDispute hdispute (hs.voters_eq disputeId) (hs.ballots_cast hdispute) hbond
        hdiffer hconfig).mp h
    exact ⟨_, rfl, .event hreplay, .resolved hdispute hconfig hpending hclosed hfits⟩

end Specs

end Backit.SchellingOracle
