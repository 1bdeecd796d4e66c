import Backit.Soroban.Execution
import Backit.SchellingOracle.Transitions

/-!
# The bonds and stakes in escrow

The contract holds, of every token, at least the bonds and stakes of the disputes that are not
resolved. So a resolution can make its payments.
-/

namespace Backit.SchellingOracle

open Soroban Contract Lib

namespace Storage

variable (s : Storage)

/-- The bond and the stakes of a dispute that is not resolved, when they are in a token. -/
def escrowed (token : Address) (disputeId : Nat) : Int :=
  match s.dispute disputeId with
  | some dispute =>
    if dispute.result = .pending ∧ dispute.stakeToken = token then
      dispute.bondAmount + staked (s.ballots disputeId)
    else 0
  | none => 0

/-- The bonds and stakes in a token of all disputes that are not resolved. -/
def obligation (token : Address) : Int :=
  ((List.range' 1 s.disputeCounter).map (s.escrowed token)).sum

end Storage

section Sound

variable {s s' : Storage} {disputeId : Nat} {dispute : Dispute} {c : VoteCommitment}
  {voter : Address}

theorem sound_empty : Sound Storage.empty := by
  constructor <;> simp [Storage.empty]

theorem Sound.escrowed_nonneg (h : Sound s) (token : Address) (disputeId : Nat) :
    0 ≤ s.escrowed token disputeId := by
  unfold Storage.escrowed
  split
  · next dispute hdispute =>
    have hbond := (h.terms disputeId dispute hdispute).1
    have hstaked := staked_nonneg (h.ballots_cast hdispute).positive
    split <;> omega
  · exact le_rfl

theorem Sound.fresh (h : Sound s) {id : Nat} (hid : s.disputeCounter < id) :
    s.dispute id = none ∧ s.voters id = [] := by
  have hdispute : s.dispute id = none := by
    cases hstored : s.dispute id with
    | none => rfl
    | some dispute =>
      have := h.numbered id dispute hstored
      omega
  refine ⟨hdispute, List.eq_nil_iff_forall_not_mem.mpr fun voter hvoter => ?_⟩
  obtain ⟨c, hc⟩ := Option.ne_none_iff_exists'.mp ((h.mem_voters id voter).mp hvoter)
  obtain ⟨dispute, hstored, -⟩ := h.cast id voter c hc
  exact absurd (hdispute.symm.trans hstored) (by simp)

/-- A dispute that is written keeps the storage sound when it keeps its votes' terms. -/
theorem Sound.setDispute (h : Sound s) (hcounter : disputeId ≤ s.disputeCounter)
    (hpositive : 1 ≤ disputeId) (hid : dispute.id = disputeId) (hbond : 0 < dispute.bondAmount)
    (hdiffer : dispute.originalOutcome ≠ dispute.disputedOutcome) (hfounded : s.config ≠ none)
    (hsame : ∀ old, s.dispute disputeId = some old →
      old.originalOutcome = dispute.originalOutcome ∧
        old.disputedOutcome = dispute.disputedOutcome) : Sound (s.setDispute dispute) := by
  subst hid
  refine ⟨fun hnone => absurd hnone hfounded, fun id stored hstored => ?_,
    fun id stored hstored => ?_, fun id who commitment hc => ?_, h.voters_nodup, h.mem_voters⟩
  · by_cases hsameId : id = dispute.id
    · subst hsameId
      obtain rfl : dispute = stored := by simpa [Storage.setDispute] using hstored
      exact ⟨rfl, hpositive, hcounter⟩
    · refine h.numbered id stored ?_
      simpa [Storage.setDispute, hsameId] using hstored
  · by_cases hsameId : id = dispute.id
    · subst hsameId
      obtain rfl : dispute = stored := by simpa [Storage.setDispute] using hstored
      exact ⟨hbond, hdiffer⟩
    · refine h.terms id stored ?_
      simpa [Storage.setDispute, hsameId] using hstored
  · obtain ⟨old, hold, hstake, houtcome⟩ := h.cast id who commitment hc
    by_cases hsameId : id = dispute.id
    · subst hsameId
      obtain ⟨horiginal, hdisputed⟩ := hsame old hold
      refine ⟨dispute, by simp [Storage.setDispute], hstake, ?_⟩
      rwa [← horiginal, ← hdisputed]
    · exact ⟨old, by simpa [Storage.setDispute, hsameId] using hold, hstake, houtcome⟩

theorem Sound.setDisputeCounter (h : Sound s) (hfounded : s.config ≠ none) {counter : Nat}
    (hcounter : s.disputeCounter ≤ counter) : Sound (s.setDisputeCounter counter) where
  configured hnone := absurd hnone hfounded
  numbered id stored hstored := by
    have := h.numbered id stored hstored
    show stored.id = id ∧ 1 ≤ id ∧ id ≤ counter
    omega
  terms := h.terms
  cast := h.cast
  voters_nodup := h.voters_nodup
  mem_voters := h.mem_voters

theorem Sound.voted (h : Sound s) (hdispute : s.dispute disputeId = some dispute)
    (hfresh : s.commitment (disputeId, voter) = none) (hstake : 0 < c.stakeAmount)
    (hhidden : c.revealed = false) : Sound (s.voted disputeId voter c) := by
  obtain ⟨config, hconfig⟩ := h.config_of_dispute hdispute
  have hnew : ∀ id who, (s.voted disputeId voter c).commitment (id, who) =
      if id = disputeId ∧ who = voter then some c else s.commitment (id, who) := by
    intro id who
    simp only [Storage.voted, Storage.appendVoter, Storage.setCommitment, Function.update_apply,
      Prod.mk.injEq]
  have hvoters : ∀ id, (s.voted disputeId voter c).voters id =
      if id = disputeId then s.voters disputeId ++ [voter] else s.voters id := by
    intro id
    simp only [Storage.voted, Storage.appendVoter, Storage.setCommitment, Function.update_apply]
  have hunlisted : voter ∉ s.voters disputeId := fun hmem =>
    (h.mem_voters disputeId voter).mp hmem hfresh
  refine ⟨fun hnone => absurd (hconfig.symm.trans hnone) (by simp), h.numbered, h.terms,
    fun id who commitment hc => ?_, fun id => ?_, fun id who => ?_⟩
  · rw [hnew] at hc
    split at hc
    · next hmine =>
      obtain ⟨rfl, rfl⟩ := hmine
      obtain rfl := Option.some.inj hc
      exact ⟨dispute, hdispute, hstake, fun hrevealed => absurd (hhidden.symm.trans hrevealed)
        (by decide)⟩
    · exact h.cast id who commitment hc
  · rw [hvoters]
    split
    · exact (h.voters_nodup disputeId).append (List.nodup_singleton voter)
        (by simpa using hunlisted)
    · exact h.voters_nodup id
  · rw [hvoters, hnew]
    by_cases hid : id = disputeId
    · subst hid
      by_cases hwho : who = voter
      · simp [hwho]
      · simp [hwho, h.mem_voters]
    · simp [hid, h.mem_voters]

theorem Sound.revealed (h : Sound s) (hdispute : s.dispute disputeId = some dispute)
    (hc : s.commitment (disputeId, voter) = some c) {voteOutcome : Nat}
    (houtcome : voteOutcome = dispute.originalOutcome ∨ voteOutcome = dispute.disputedOutcome) :
    Sound (s.setCommitment disputeId voter
      { c with revealed := true, revealedOutcome := voteOutcome }) := by
  obtain ⟨config, hconfig⟩ := h.config_of_dispute hdispute
  refine ⟨fun hnone => absurd (hconfig.symm.trans hnone) (by simp), h.numbered, h.terms,
    fun id who commitment hstored => ?_, h.voters_nodup, fun id who => ?_⟩
  · simp only [Storage.setCommitment, Function.update_apply, Prod.mk.injEq] at hstored
    split at hstored
    · next hmine =>
      obtain ⟨rfl, rfl⟩ := hmine
      obtain rfl := Option.some.inj hstored
      obtain ⟨old, hold, hstake, -⟩ := h.cast id who c hc
      exact ⟨dispute, hdispute, hstake, fun _ => houtcome⟩
    · exact h.cast id who commitment hstored
  · show who ∈ s.voters id ↔ _
    rw [h.mem_voters]
    simp only [Storage.setCommitment, Function.update_apply, Prod.mk.injEq]
    split
    · next hmine =>
      obtain ⟨rfl, rfl⟩ := hmine
      simp [hc]
    · exact Iff.rfl

theorem Transition.sound [Crypto] {env : Env} {op : OracleOp} {effects : List (Effect Event)}
    (h : Transition env op s effects s') (hs : Sound s) : Sound s' := by
  cases h with
  | configured hnone =>
    rw [hs.configured hnone]
    refine ⟨?_, ?_, ?_, ?_, ?_, ?_⟩ <;> simp [Storage.setConfig, Storage.empty]
  | reconfigured hconfig =>
    refine ⟨fun hnone => ?_, hs.numbered, hs.terms, hs.cast, hs.voters_nodup, hs.mem_voters⟩
    exact absurd hnone (by simp [Storage.setConfig])
  | opened _ hconfig hdiffer hbond =>
    have hfounded : s.config ≠ none := by simp [hconfig]
    refine (hs.setDisputeCounter hfounded (Nat.le_succ _)).setDispute le_rfl (Nat.le_add_left ..)
      rfl hbond hdiffer hfounded fun old hold => ?_
    have hfresh := (hs.fresh (Nat.lt_succ_self s.disputeCounter)).1
    exact absurd (hfresh.symm.trans hold) (by simp)
  | voted _ hdispute _ _ hstake hfresh => exact hs.voted hdispute hfresh hstake rfl
  | revealed _ hdispute _ _ _ houtcome hc => exact hs.revealed hdispute hc houtcome
  | resolved hdispute hconfig =>
    obtain ⟨hid, hpositive, hcounter⟩ := hs.numbered _ _ hdispute
    obtain ⟨hbond, hdiffer⟩ := hs.terms _ _ hdispute
    refine hs.setDispute hcounter hpositive hid hbond hdiffer (by simp [hconfig])
      fun old hold => ?_
    obtain rfl := Option.some.inj (hold.symm.trans hdispute)
    exact ⟨rfl, rfl⟩

end Sound

section Obligation

variable {s s' : Storage} {disputeId : Nat} {dispute : Dispute} {c : VoteCommitment}
  {voter : Address} {token : Address}

/-- The stake of a voter on a dispute. -/
def Storage.stakeOf (s : Storage) (disputeId : Nat) (voter : Address) : Int :=
  match s.commitment (disputeId, voter) with
  | some c => c.stakeAmount
  | none => 0

theorem staked_ballots (s : Storage) (disputeId : Nat) : staked (s.ballots disputeId) =
    ((s.voters disputeId).map (s.stakeOf disputeId)).sum := by
  unfold Storage.ballots
  induction s.voters disputeId with
  | nil => rfl
  | cons voter rest ih =>
    rw [List.filterMap_cons, List.map_cons, List.sum_cons, ← ih, Storage.stakeOf]
    cases s.commitment (disputeId, voter) with
    | none => exact (zero_add _).symm
    | some c => rfl

theorem obligation_change (s s' : Storage) (hcounter : s'.disputeCounter = s.disputeCounter)
    (hid : 1 ≤ disputeId ∧ disputeId ≤ s.disputeCounter)
    (hothers : ∀ id, id ≠ disputeId → s'.escrowed token id = s.escrowed token id) :
    s'.obligation token =
      s.obligation token - s.escrowed token disputeId + s'.escrowed token disputeId := by
  have hmem : disputeId ∈ List.range' 1 s.disputeCounter := by
    rw [List.mem_range'_1]
    omega
  rw [Storage.obligation, Storage.obligation, hcounter]
  exact sum_map_change List.nodup_range' hmem fun id _ hne => hothers id hne

theorem escrowed_of (h : s.dispute disputeId = some dispute) : s.escrowed token disputeId =
    if dispute.result = .pending ∧ dispute.stakeToken = token then
      dispute.bondAmount + ((s.voters disputeId).map (s.stakeOf disputeId)).sum
    else 0 := by
  rw [Storage.escrowed, h]
  dsimp only
  rw [staked_ballots]

/-- A dispute's escrow depends on the dispute, its voters and their stakes. -/
theorem escrowed_congr (hdispute : s'.dispute disputeId = s.dispute disputeId)
    (hvoters : s'.voters disputeId = s.voters disputeId)
    (hstakes : ∀ voter, s'.stakeOf disputeId voter = s.stakeOf disputeId voter) :
    s'.escrowed token disputeId = s.escrowed token disputeId := by
  unfold Storage.escrowed
  rw [hdispute]
  split
  · rw [staked_ballots, staked_ballots, hvoters, funext hstakes]
  · rfl

theorem stakeOf_setCommitment (s : Storage) (disputeId id : Nat) (voter who : Address)
    (c : VoteCommitment) : (s.setCommitment disputeId voter c).stakeOf id who =
      if id = disputeId ∧ who = voter then c.stakeAmount else s.stakeOf id who := by
  unfold Storage.stakeOf
  simp only [Storage.setCommitment, Function.update_apply, Prod.mk.injEq]
  by_cases hmine : id = disputeId ∧ who = voter
  · rw [if_pos hmine, if_pos hmine]
  · rw [if_neg hmine, if_neg hmine]

theorem Sound.obligation_opened (h : Sound s) (hid : dispute.id = s.disputeCounter + 1)
    (hpending : dispute.result = .pending) : (s.opened dispute).obligation token =
      s.obligation token + if dispute.stakeToken = token then dispute.bondAmount else 0 := by
  have hfresh := h.fresh (show s.disputeCounter < dispute.id by omega)
  have hold : ∀ id ∈ List.range' 1 s.disputeCounter,
      (s.opened dispute).escrowed token id = s.escrowed token id := by
    intro id hmem
    rw [List.mem_range'_1] at hmem
    refine escrowed_congr ?_ rfl fun _ => rfl
    exact Function.update_of_ne (show id ≠ dispute.id by omega) ..
  have hnew : (s.opened dispute).escrowed token dispute.id =
      if dispute.stakeToken = token then dispute.bondAmount else 0 := by
    have hstored : (s.opened dispute).dispute dispute.id = some dispute := Function.update_self ..
    have hvoters : (s.opened dispute).voters dispute.id = [] := hfresh.2
    rw [escrowed_of hstored, hvoters]
    simp [hpending]
  have hcounter : (s.opened dispute).disputeCounter = s.disputeCounter + 1 := hid
  rw [Storage.obligation, hcounter, List.range'_concat, List.map_append, List.sum_append,
    sum_map_congr hold, ← Storage.obligation, List.map_singleton, List.sum_singleton,
    Nat.one_mul, Nat.add_comm 1, ← hid, hnew]

theorem Sound.obligation_voted (h : Sound s) (hdispute : s.dispute disputeId = some dispute)
    (hpending : dispute.result = .pending) (hfresh : s.commitment (disputeId, voter) = none) :
    (s.voted disputeId voter c).obligation token =
      s.obligation token + if dispute.stakeToken = token then c.stakeAmount else 0 := by
  have hunlisted : voter ∉ s.voters disputeId := fun hmem =>
    (h.mem_voters disputeId voter).mp hmem hfresh
  have hstakes : ∀ id who, (s.voted disputeId voter c).stakeOf id who =
      if id = disputeId ∧ who = voter then c.stakeAmount else s.stakeOf id who :=
    fun id who => stakeOf_setCommitment s disputeId id voter who c
  have hvoters : (s.voted disputeId voter c).voters disputeId = s.voters disputeId ++ [voter] :=
    Function.update_self ..
  have hothers : ∀ id, id ≠ disputeId →
      (s.voted disputeId voter c).escrowed token id = s.escrowed token id := by
    intro id hne
    refine escrowed_congr rfl (Function.update_of_ne hne ..) fun who => ?_
    rw [hstakes, if_neg fun hmine => hne hmine.1]
  have hsum : ((s.voters disputeId).map ((s.voted disputeId voter c).stakeOf disputeId)).sum =
      ((s.voters disputeId).map (s.stakeOf disputeId)).sum :=
    sum_map_congr fun who hwho => by
      rw [hstakes, if_neg]
      rintro ⟨-, rfl⟩
      exact hunlisted hwho
  have hnew : (s.voted disputeId voter c).stakeOf disputeId voter = c.stakeAmount := by
    rw [hstakes, if_pos ⟨rfl, rfl⟩]
  rw [obligation_change s (s.voted disputeId voter c) rfl
    (h.numbered disputeId dispute hdispute).2 hothers,
    escrowed_of hdispute, escrowed_of (show (s.voted disputeId voter c).dispute disputeId =
      some dispute from hdispute), hvoters, List.map_append, List.sum_append, hsum,
    List.map_singleton, List.sum_singleton, hnew]
  simp only [hpending, true_and]
  split <;> omega

theorem obligation_revealed (hc : s.commitment (disputeId, voter) = some c) {c' : VoteCommitment}
    (hstake : c'.stakeAmount = c.stakeAmount) :
    (s.setCommitment disputeId voter c').obligation token = s.obligation token := by
  refine sum_map_congr fun id _ => escrowed_congr rfl rfl fun who => ?_
  rw [stakeOf_setCommitment]
  split
  · next hmine =>
    obtain ⟨rfl, rfl⟩ := hmine
    rw [Storage.stakeOf, hc, hstake]
  · rfl

theorem Sound.obligation_resolved (h : Sound s) (hdispute : s.dispute disputeId = some dispute)
    (hpending : dispute.result = .pending) {result : DisputeResult} (hresult : result ≠ .pending) :
    (s.resolved dispute result).obligation token = s.obligation token -
      if dispute.stakeToken = token then dispute.bondAmount + staked (s.ballots disputeId)
      else 0 := by
  obtain ⟨hid, hrange⟩ := h.numbered disputeId dispute hdispute
  subst hid
  have hothers : ∀ id, id ≠ dispute.id →
      (s.resolved dispute result).escrowed token id = s.escrowed token id :=
    fun id hne => escrowed_congr (Function.update_of_ne hne ..) rfl fun _ => rfl
  have hstored : (s.resolved dispute result).dispute dispute.id =
      some { dispute with result := result } := Function.update_self ..
  rw [obligation_change s (s.resolved dispute result) rfl hrange hothers, escrowed_of hstored, escrowed_of hdispute,
    staked_ballots]
  simp only [hpending, hresult, true_and, false_and, if_false, add_zero]

end Obligation

section Effects

variable {env : Env}

theorem payEffects_only_transfers (token : Address) (paid : List (Address × Int)) :
    ∀ e ∈ payEffects env token paid, e.onlyTransfers = true := by
  intro e he
  rw [payEffects, List.mem_reverse] at he
  obtain ⟨p, -, rfl⟩ := List.mem_map.mp he
  rfl

/-- Payments take at most their sum out of the contract. -/
theorem le_moved_payEffects (env : Env) (token : Address) {paid : List (Address × Int)}
    (hpositive : ∀ p ∈ paid, 0 < p.2) (other : Address) :
    (-if token = other then (paid.map Prod.snd).sum else 0) ≤
      ((payEffects env token paid).map (Effect.moved other env.contract)).sum := by
  induction paid with
  | nil => simp [payEffects]
  | cons p rest ih =>
    have hfirst := hpositive p (.head _)
    have hrest := ih fun q hq => hpositive q (.tail _ hq)
    rw [payEffects_cons, List.map_append, List.sum_append, List.map_cons, List.sum_cons]
    have hone : (-if token = other then p.2 else 0) ≤
        ((payEffects env token [p]).map (Effect.moved other env.contract)).sum := by
      simp only [payEffects, List.map_cons, List.map_nil, List.reverse_singleton,
        List.sum_singleton, Effect.moved, transferDelta, eq_comm (a := other)]
      split_ifs <;> omega
    split at hrest <;> split at hone <;> simp_all <;> omega

end Effects

section Steps

variable [Crypto] {env : Env} {op : OracleOp} {s s' : Storage} {effects : List (Effect Event)}

theorem Transition.only_transfers (h : Transition env op s effects s') :
    ∀ e ∈ effects, e.onlyTransfers = true := by
  cases h with
  | resolved =>
    intro e he
    obtain rfl | hpaid := List.mem_cons.mp he
    · rfl
    · exact payEffects_only_transfers _ _ e hpaid
  | _ => simp [Effect.onlyTransfers]

omit [Crypto] in
theorem resultOf_ne_pending (dispute : Dispute) (ballots : List Ballot) :
    resultOf dispute ballots ≠ .pending := by
  unfold resultOf
  split_ifs <;> decide

/-- A transition changes the obligations by at most what it moves into the contract. -/
theorem Transition.obligation (h : Transition env op s effects s') (hs : Sound s)
    (hforeign : env.contract ∉ env.auths) (token : Address) : s'.obligation token ≤
      s.obligation token + (effects.map (Effect.moved token env.contract)).sum := by
  have hsender : ∀ {who}, who ∈ env.auths → env.contract ≠ who := fun hwho heq =>
    hforeign (heq ▸ hwho)
  cases h with
  | configured hnone =>
    rw [hs.configured hnone]
    exact (add_zero _).ge
  | reconfigured => exact (add_zero _).ge
  | @opened disputer callId original disputed pool stakeToken bond config _ hauth =>
    rw [hs.obligation_opened rfl rfl]
    by_cases htoken : stakeToken = token
    · simp [newDispute, Effect.moved, transferDelta, hsender hauth, htoken]
    · simp [newDispute, Effect.moved, htoken, Ne.symm htoken]
  | @voted voter disputeId hash stakeAmount dispute _ hauth hdispute hpending _ _ hfresh =>
    rw [hs.obligation_voted hdispute hpending hfresh]
    by_cases htoken : dispute.stakeToken = token
    · simp [Effect.moved, transferDelta, hsender hauth, htoken]
    · simp [Effect.moved, htoken, Ne.symm htoken]
  | revealed _ _ _ _ _ _ hc =>
    refine (le_of_eq ?_).trans (add_zero _).ge
    exact obligation_revealed hc rfl
  | @resolved disputeId dispute config _ hdispute hconfig hpending =>
    have hterms := hs.terms _ _ hdispute
    have hcast := hs.ballots_cast hdispute
    have hmoved := le_moved_payEffects env dispute.stakeToken
      (payments_pos dispute config.admin _ hterms.1 hcast.positive) token
    rw [sum_payments dispute config.admin _ hterms.1 hcast.positive] at hmoved
    rw [hs.obligation_resolved hdispute hpending (resultOf_ne_pending dispute _),
      List.map_cons, List.sum_cons]
    show _ ≤ s.obligation token + (0 + _)
    omega

end Steps

section Run

variable {T : Type} [Tokens T] [Crypto]

/-- Executions of the contract from its deployment on, at an address that owes nobody anything. -/
def oracle (self : Address) (outside : T → T → Prop) :
    System (Deployment Storage T) (Happening OracleOp Event) :=
  contractSystem OracleOp.perform self outside fun d =>
    d.store = Storage.empty ∧
      ∀ token held, Tokens.balance d.peers token self = some held → 0 ≤ held

variable {self : Address} {outside : T → T → Prop} {d : Deployment Storage T}
  {history : List (Happening OracleOp Event)}
  {guard : System.Guard (Deployment Storage T) (Happening OracleOp Event)}

theorem sound_of_run (run : (oracle self outside).RunWhere guard history d) : Sound d.store := by
  refine store_invariant (I := Sound) ?_ ?_ run
  · rintro d ⟨hempty, -⟩
    rw [hempty]
    exact sound_empty
  · intro h d env op f _ ih _ hinvoke _
    obtain ⟨effects, -, -, htransition⟩ := OracleOp.transitions ih hinvoke
    exact htransition.sound ih

/-- The contract holds the bonds and stakes of the disputes that are not resolved. -/
theorem obligation_le_held (hexact : ExactTransfers T) (hundrained : Undrained self outside)
    (run : (oracle self outside).RunWhere guard history d) (token : Address) {held : Int}
    (hheld : Tokens.balance d.peers token self = some held) : d.store.obligation token ≤ held := by
  refine owed_le_transferred hexact hundrained (fun d hd => ?_)
    (fun h d env op f hrun hforeign hinvoke => ?_) run token held hheld
  · rw [hd.1]
    exact hd.2
  · have hs := sound_of_run hrun
    obtain ⟨effects, -, hreplay, htransition⟩ := OracleOp.transitions hs hinvoke
    exact ⟨effects, hreplay, htransition.only_transfers, htransition.obligation hs hforeign⟩

end Run

end Backit.SchellingOracle
