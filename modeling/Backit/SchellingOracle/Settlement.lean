import Backit.SchellingOracle.Resolution

/-!
# The resolution makes the payments of the rules

A resolution succeeds exactly when it passes its checks, its arithmetic stays in range and the token
makes the payments that the rules assign.
-/

namespace Backit.SchellingOracle

open Soroban Contract Lib

/-- The effects of payments out of the contract, most recent first. -/
def payEffects (env : Env) (token : Address) (paid : List (Address × Int)) :
    List (Effect Event) :=
  (paid.map fun p => Effect.transfer token env.contract p.1 p.2).reverse

/-- The ballots are recorded, and every revealed vote is for one of the two outcomes. -/
structure Cast (s : Storage) (disputeId : Nat) (dispute : Dispute) (ballots : List Ballot) :
    Prop where
  recorded : ∀ b ∈ ballots, s.commitment (disputeId, b.1) = some b.2
  positive : ∀ b ∈ ballots, 0 < b.2.stakeAmount
  outcomes : ∀ b ∈ ballots, b.2.revealed = true →
    b.2.revealedOutcome = dispute.originalOutcome ∨
      b.2.revealedOutcome = dispute.disputedOutcome

/-- The stake of a side. -/
def Tally.amount (tally : Tally) : Side → Int
  | .original => tally.original
  | .disputed => tally.disputed
  | .unrevealed => tally.unrevealed

def Tally.put (tally : Tally) (side : Side) (x : Int) : Tally :=
  match side with
  | .original => { tally with original := x }
  | .disputed => { tally with disputed := x }
  | .unrevealed => { tally with unrevealed := x }

theorem Tally.amount_put (tally : Tally) (side other : Side) (x : Int) :
    (tally.put side x).amount other = if other = side then x else tally.amount other := by
  cases side <;> cases other <;> rfl

theorem Tally.ext_amount {tally tally' : Tally}
    (h : ∀ side, tally.amount side = tally'.amount side) : tally = tally' := by
  obtain ⟨o, d, u⟩ := tally
  obtain ⟨o', d', u'⟩ := tally'
  obtain rfl : o = o' := h .original
  obtain rfl : d = d' := h .disputed
  obtain rfl : u = u' := h .unrevealed
  rfl

section Ballots

variable {s : Storage} {disputeId : Nat} {dispute : Dispute} {ballots : List Ballot} {b : Ballot}

theorem Cast.tail (h : Cast s disputeId dispute (b :: ballots)) :
    Cast s disputeId dispute ballots where
  recorded c hc := h.recorded c (.tail _ hc)
  positive c hc := h.positive c (.tail _ hc)
  outcomes c hc := h.outcomes c (.tail _ hc)

theorem side_original (c : VoteCommitment) : c.side dispute = .original ↔
    c.revealed = true ∧ c.revealedOutcome = dispute.originalOutcome := by
  unfold VoteCommitment.side
  split_ifs <;> simp_all

theorem side_disputed (hdiffer : dispute.originalOutcome ≠ dispute.disputedOutcome)
    {c : VoteCommitment} (houtcome : c.revealed = true →
      c.revealedOutcome = dispute.originalOutcome ∨ c.revealedOutcome = dispute.disputedOutcome) :
    c.side dispute = .disputed ↔
      c.revealed = true ∧ c.revealedOutcome = dispute.disputedOutcome := by
  unfold VoteCommitment.side
  split_ifs with hhidden horiginal
  · simp [hhidden]
  · simp [horiginal, hdiffer]
  · simpa [hhidden, horiginal] using houtcome

theorem onSide_cons (side : Side) : onSide dispute (b :: ballots) side =
    if b.2.side dispute = side then b :: onSide dispute ballots side
    else onSide dispute ballots side := by
  simp [onSide, List.filter_cons]

end Ballots

section Specs

variable {T : Type} {env : Env} {f f' : Frame Storage T Event} {disputeId : Nat}
  {dispute : Dispute} {ballots : List Ballot} {α : Type} {token : Address} {config : DisputeConfig}

@[simp] theorem run_orOverflow_bind {r : α} (result : Option Int) (k : Int → Oracle T α) :
    run (orOverflow result >>= k) env f = .ok (r, f') ↔
      ∃ x, result = some x ∧ run (k x) env f = .ok (r, f') := by
  rw [orOverflow, run_unwrap_bind]

@[simp] theorem run_requireDispute_bind {r : α} (disputeId : Nat) (k : Dispute → Oracle T α) :
    run (requireDispute disputeId >>= k) env f = .ok (r, f') ↔
      ∃ dispute, f.store.dispute disputeId = some dispute ∧
        run (k dispute) env f = .ok (r, f') := by
  simp only [requireDispute, Contract.bind_assoc, run_steps]

@[simp] theorem run_requireCommitment_bind {r : α} (disputeId : Nat) (voter : Address)
    (k : VoteCommitment → Oracle T α) :
    run (requireCommitment disputeId voter >>= k) env f = .ok (r, f') ↔
      ∃ c, f.store.commitment (disputeId, voter) = some c ∧ run (k c) env f = .ok (r, f') := by
  simp only [requireCommitment, Contract.bind_assoc, run_steps]

theorem run_validateParams_bind {r : α} (voting reveal bondBps : Nat) (k : Unit → Oracle T α) :
    run (validateParams voting reveal bondBps >>= k) env f = .ok (r, f') ↔
      ¬ (voting = 0 ∨ reveal = 0) ∧ ¬ (bondBps = 0 ∨ 10000 < bondBps) ∧
        run (k ()) env f = .ok (r, f') := by
  simp only [validateParams, Contract.bind_assoc, run_rejectIf_bind]

variable [Tokens T]

/-- Both branches of `transferToken` are the same transfer. -/
theorem transferToken_eq (stakeToken sender recipient : Address) (amount : Int) :
    (transferToken stakeToken sender recipient amount : Oracle T Unit) =
      tokenTransfer stakeToken sender recipient amount := by
  unfold transferToken
  split <;> rfl

omit [Tokens T] in
/-- The first pass adds a stake to the side it stands on. -/
theorem tallyVotes_cons (voter : Address) (voters : List Address) (tally : Tally) :
    (tallyVotes disputeId dispute (voter :: voters) tally : Oracle T Tally) =
      requireCommitment disputeId voter >>= fun c =>
        orOverflow (checkedAdd (tally.amount (c.side dispute)) c.stakeAmount) >>= fun x =>
          tallyVotes disputeId dispute voters (tally.put (c.side dispute) x) := by
  rw [tallyVotes]
  refine congrArg (requireCommitment disputeId voter >>= ·) (funext fun c => ?_)
  unfold VoteCommitment.side
  split
  · rfl
  · split <;> rfl

omit [Tokens T] in
theorem run_tallyVotes (tally result : Tally) (hcast : Cast f.store disputeId dispute ballots)
    (hnonneg : ∀ side, 0 ≤ tally.amount side) (hrange : ∀ side, InI128 (tally.amount side)) :
    run (tallyVotes disputeId dispute (ballots.map Prod.fst) tally : Oracle T Tally) env f =
        .ok (result, f') ↔
      (∀ side, InI128 (tally.amount side + stakeOn dispute ballots side)) ∧
      (∀ side, result.amount side = tally.amount side + stakeOn dispute ballots side) ∧
      f' = f := by
  induction ballots generalizing tally with
  | nil =>
    simp only [List.map_nil, tallyVotes, run_pure, Except.ok.injEq, Prod.mk.injEq, stakeOn_nil,
      add_zero, hrange, implies_true, true_and]
    constructor
    · rintro ⟨rfl, rfl⟩
      exact ⟨fun _ => rfl, rfl⟩
    · rintro ⟨hsame, rfl⟩
      exact ⟨(Tally.ext_amount hsame).symm, rfl⟩
  | cons b rest ih =>
    have hstored := hcast.recorded b (.head _)
    have hstake := hcast.positive b (.head _)
    have hrest := fun side => stakeOn_nonneg dispute hcast.tail.positive side
    have hown := hnonneg (b.2.side dispute)
    let next := tally.put (b.2.side dispute) (tally.amount (b.2.side dispute) + b.2.stakeAmount)
    have hamount : ∀ side, next.amount side + stakeOn dispute rest side =
        tally.amount side + stakeOn dispute (b :: rest) side := by
      intro side
      rw [Tally.amount_put, stakeOn_cons]
      by_cases hside : side = b.2.side dispute
      · subst hside
        rw [if_pos rfl, if_pos rfl]
        omega
      · rw [if_neg hside, if_neg (Ne.symm hside), zero_add]
    have hnextNonneg : ∀ side, 0 ≤ next.amount side := by
      intro side
      rw [Tally.amount_put]
      split
      · omega
      · exact hnonneg side
    -- The tally is in range now if it is in range in the end.
    have hnextRange : InI128 (tally.amount (b.2.side dispute) + b.2.stakeAmount) →
        ∀ side, InI128 (next.amount side) := by
      intro hfits side
      rw [Tally.amount_put]
      split
      · exact hfits
      · exact hrange side
    rw [List.map_cons, tallyVotes_cons, run_requireCommitment_bind]
    simp only [hstored, Option.some.injEq, exists_eq_left', run_orOverflow_bind, checkedAdd,
      checked_eq_some]
    constructor
    · rintro ⟨_, ⟨hfits, rfl⟩, hrun⟩
      have hall := (ih next hcast.tail hnextNonneg (hnextRange hfits)).mp hrun
      simpa only [hamount] using hall
    · intro hall
      have hfits : InI128 (tally.amount (b.2.side dispute) + b.2.stakeAmount) := by
        have hend := hall.1 (b.2.side dispute)
        have := hrest (b.2.side dispute)
        rw [stakeOn_cons, if_pos rfl] at hend
        exact .of_le (by omega) (by omega) hend
      refine ⟨_, ⟨hfits, rfl⟩, ?_⟩
      refine (ih next hcast.tail hnextNonneg (hnextRange hfits)).mpr ?_
      simpa only [hamount] using hall

theorem run_pay_bind {r : α} (token recipient : Address) (amount : Int) (k : Unit → Oracle T α) :
    run (transferToken token env.contract recipient amount >>= k) env f = .ok (r, f') ↔
      ∃ tokens, Replays env f.tokens (payEffects env token [(recipient, amount)]) tokens ∧
        run (k ()) env ⟨f.store, tokens,
          payEffects env token [(recipient, amount)] ++ f.effects⟩ = .ok (r, f') := by
  rw [transferToken_eq, run_tokenTransfer_bind]
  constructor
  · rintro ⟨tokens, htransfer, hrest⟩
    exact ⟨tokens, Replays.nil.transfer htransfer, hrest⟩
  · rintro ⟨tokens, hreplay, hrest⟩
    cases hreplay with
    | transfer hnil htransfer =>
      cases hnil
      exact ⟨tokens, htransfer, hrest⟩

omit [Tokens T] in
theorem payEffects_cons (env : Env) (token : Address) (p : Address × Int)
    (paid : List (Address × Int)) :
    payEffects env token (p :: paid) = payEffects env token paid ++ payEffects env token [p] := by
  simp [payEffects]

omit [Tokens T] in
theorem payEffects_append (env : Env) (token : Address) (first later : List (Address × Int)) :
    payEffects env token (first ++ later) =
      payEffects env token later ++ payEffects env token first := by
  simp [payEffects]

/-- What a computation that makes payments leaves: the payments are made, and nothing else. -/
def Pays (env : Env) (f : Frame Storage T Event) (token : Address) (paid : List (Address × Int))
    (f' : Frame Storage T Event) : Prop :=
  ∃ tokens, Replays env f.tokens (payEffects env token paid) tokens ∧
    f' = ⟨f.store, tokens, payEffects env token paid ++ f.effects⟩

theorem pays_nil : Pays env f token [] f' ↔ f' = f := by
  constructor
  · rintro ⟨tokens, hreplay, rfl⟩
    cases hreplay
    rfl
  · rintro rfl
    exact ⟨_, .nil, rfl⟩

/-- Payments in two parts are made one after the other. -/
theorem pays_append (first : List (Address × Int)) {later : List (Address × Int)} :
    Pays env f token (first ++ later) f' ↔
      ∃ f₁, Pays env f token first f₁ ∧ Pays env f₁ token later f' := by
  unfold Pays
  rw [payEffects_append]
  constructor
  · rintro ⟨tokens, hreplay, rfl⟩
    obtain ⟨middle, hfirst, hlater⟩ := hreplay.split
    exact ⟨_, ⟨middle, hfirst, rfl⟩, tokens, hlater, by rw [List.append_assoc]⟩
  · rintro ⟨_, ⟨middle, hfirst, rfl⟩, tokens, hlater, rfl⟩
    exact ⟨tokens, hfirst.append hlater, by rw [List.append_assoc]⟩

theorem pays_cons {p : Address × Int} {paid : List (Address × Int)} :
    Pays env f token (p :: paid) f' ↔
      ∃ f₁, Pays env f token [p] f₁ ∧ Pays env f₁ token paid f' :=
  pays_append [p]

theorem run_pays_bind {r : α} (token recipient : Address) (amount : Int) (k : Unit → Oracle T α) :
    run (transferToken token env.contract recipient amount >>= k) env f = .ok (r, f') ↔
      ∃ f₁, Pays env f token [(recipient, amount)] f₁ ∧ run (k ()) env f₁ = .ok (r, f') := by
  rw [run_pay_bind]
  constructor
  · rintro ⟨tokens, hreplay, hrest⟩
    exact ⟨_, ⟨tokens, hreplay, rfl⟩, hrest⟩
  · rintro ⟨_, ⟨tokens, hreplay, rfl⟩, hrest⟩
    exact ⟨tokens, hreplay, hrest⟩

theorem Pays.store {paid : List (Address × Int)}
    (h : Pays env f token paid f') : f'.store = f.store := by
  obtain ⟨tokens, -, rfl⟩ := h
  rfl

/-- The voters for the disputed outcome get their stakes back. -/
theorem run_refundVoters {u : Unit} (hcast : Cast f.store disputeId dispute ballots)
    (hdiffer : dispute.originalOutcome ≠ dispute.disputedOutcome) :
    run (refundVoters disputeId dispute (ballots.map Prod.fst) : Oracle T Unit) env f =
        .ok (u, f') ↔
      Pays env f dispute.stakeToken
        ((onSide dispute ballots .disputed).map fun b => (b.1, b.2.stakeAmount)) f' := by
  induction ballots generalizing f with
  | nil => simp [refundVoters, onSide, pays_nil, eq_comm]
  | cons b rest ih =>
    have hstored := hcast.recorded b (.head _)
    have hside := side_disputed hdiffer (hcast.outcomes b (.head _))
    simp only [List.map_cons, refundVoters, run_requireCommitment_bind, hstored,
      Option.some.injEq, exists_eq_left', onSide_cons, hside]
    split
    · rw [List.map_cons, run_env_bind, run_pays_bind, pays_cons]
      refine exists_congr fun f₁ => and_congr_right fun hpaid => ih ?_
      rw [hpaid.store]
      exact hcast.tail
    · exact ih hcast.tail

/-- The voters for the original outcome get their stakes back with their shares. -/
theorem run_rewardVoters {pool total acc result : Int}
    (hcast : Cast f.store disputeId dispute ballots) (hpool : 0 ≤ pool) (htotal : 0 < total)
    (hacc : 0 ≤ acc) (hsum : InI128 (acc +
      ((onSide dispute ballots .original).map fun b => proRata pool total b.2.stakeAmount).sum)) :
    run (rewardVoters disputeId dispute pool total (ballots.map Prod.fst) acc : Oracle T Int) env
        f = .ok (result, f') ↔
      (∀ b ∈ onSide dispute ballots .original, InI128 (b.2.stakeAmount * pool) ∧
        InI128 (b.2.stakeAmount + proRata pool total b.2.stakeAmount)) ∧
      result = acc + ((onSide dispute ballots .original).map fun b =>
        proRata pool total b.2.stakeAmount).sum ∧
      Pays env f dispute.stakeToken ((onSide dispute ballots .original).map fun b =>
        (b.1, b.2.stakeAmount + proRata pool total b.2.stakeAmount)) f' := by
  induction ballots generalizing f acc with
  | nil => simp [rewardVoters, onSide, pays_nil, eq_comm]
  | cons b rest ih =>
    have hstored := hcast.recorded b (.head _)
    have hstake := hcast.positive b (.head _)
    simp only [List.map_cons, rewardVoters, run_requireCommitment_bind, hstored,
      Option.some.injEq, exists_eq_left', onSide_cons, side_original] at hsum ⊢
    split
    · next hwinner =>
      rw [if_pos hwinner, List.map_cons, List.sum_cons] at hsum
      have hproduct : 0 ≤ b.2.stakeAmount * pool := mul_nonneg hstake.le hpool
      have hshare : 0 ≤ proRata pool total b.2.stakeAmount := proRata_nonneg hpool htotal hstake.le
      have hothers : 0 ≤ ((onSide dispute rest .original).map fun b =>
          proRata pool total b.2.stakeAmount).sum := by
        refine List.sum_nonneg fun x hx => ?_
        obtain ⟨c, hc, rfl⟩ := List.mem_map.mp hx
        exact proRata_nonneg hpool htotal
          (hcast.tail.positive c (List.mem_filter.mp hc).1).le
      have hrunning : InI128 (acc + proRata pool total b.2.stakeAmount) :=
        .of_le (by omega) (by omega) hsum
      have hafter : ∀ f₁ : Frame Storage T Event, f₁.store = f.store →
          (run (rewardVoters disputeId dispute pool total (rest.map Prod.fst)
            (acc + proRata pool total b.2.stakeAmount) : Oracle T Int) env f₁ =
              .ok (result, f') ↔ _) := fun f₁ hstore =>
        ih (hstore ▸ hcast.tail) (by omega) (by rwa [add_assoc])
      simp only [run_orOverflow_bind, run_env_bind, run_pays_bind, checkedMul, checkedAdd,
        checked_eq_some, List.map_cons, List.sum_cons, List.forall_mem_cons]
      rw [pays_cons]
      constructor
      · rintro ⟨_, ⟨hscaled, rfl⟩, share, hdiv, _, ⟨hpayout, rfl⟩, f₁, hpaid, _, ⟨-, rfl⟩, hrun⟩
        rw [checkedDiv_of_nonneg hproduct htotal hscaled] at hdiv
        cases hdiv
        obtain ⟨hfits, hresult, hrest⟩ := (hafter f₁ hpaid.store).mp hrun
        exact ⟨⟨⟨hscaled, hpayout⟩, hfits⟩, hresult.trans (add_assoc _ _ _), f₁, hpaid, hrest⟩
      · rintro ⟨⟨⟨hscaled, hpayout⟩, hfits⟩, hresult, f₁, hpaid, hrest⟩
        exact ⟨_, ⟨hscaled, rfl⟩, _, checkedDiv_of_nonneg hproduct htotal hscaled, _,
          ⟨hpayout, rfl⟩, f₁, hpaid, _, ⟨hrunning, rfl⟩, (hafter f₁ hpaid.store).mpr
            ⟨hfits, hresult.trans (add_assoc _ _ _).symm, hrest⟩⟩
    · next hloser =>
      rw [if_neg hloser] at hsum
      exact ih hcast.tail hacc hsum

theorem run_payAdmin_bind {r : α} (amount : Int)
    (hconfig : f.store.config = some config) (k : Unit → Oracle T α) :
    run (payAdmin dispute amount >>= k) env f = .ok (r, f') ↔
      ∃ f₁, Pays env f dispute.stakeToken [(config.admin, amount)] f₁ ∧
        run (k ()) env f₁ = .ok (r, f') := by
  simp only [payAdmin, Contract.bind_assoc, run_steps, hconfig, Option.some.injEq, exists_eq_left',
    run_pays_bind]

/-- The tally of all ballots. -/
def tallyOf (dispute : Dispute) (ballots : List Ballot) : Tally :=
  ⟨stakeOn dispute ballots .original, stakeOn dispute ballots .disputed,
    stakeOn dispute ballots .unrevealed⟩

/-- An upheld dispute pays the disputer and the voters for the disputed outcome. -/
theorem run_settleUpheld {result : Int} (hcast : Cast f.store disputeId dispute ballots)
    (hdiffer : dispute.originalOutcome ≠ dispute.disputedOutcome) :
    run (settleUpheld disputeId dispute (tallyOf dispute ballots) (ballots.map Prod.fst) :
        Oracle T Int) env f = .ok (result, f') ↔
      (InI128 (forfeited dispute ballots) ∧
        InI128 (dispute.bondAmount + forfeited dispute ballots)) ∧
      result = forfeited dispute ballots ∧
      Pays env f dispute.stakeToken
        ((dispute.disputer, dispute.bondAmount + forfeited dispute ballots) ::
          (onSide dispute ballots .disputed).map fun b => (b.1, b.2.stakeAmount)) f' := by
  have hrefund : ∀ f₁ f₂ : Frame Storage T Event, f₁.store = f.store →
      (run (refundVoters disputeId dispute (ballots.map Prod.fst) : Oracle T Unit) env f₁ =
        .ok ((), f₂) ↔ _) := fun f₁ _ hstore => run_refundVoters (hstore ▸ hcast) hdiffer
  rw [pays_cons]
  simp only [settleUpheld, run_orOverflow_bind, run_steps, run_pays_bind, checkedAdd,
    checked_eq_some, run_bind (x := refundVoters _ _ _), forfeited, tallyOf]
  constructor
  · rintro ⟨_, ⟨hforfeited, rfl⟩, _, ⟨hpayout, rfl⟩, f₁, hpaid, _, f₂, hrefunded, rfl, rfl⟩
    exact ⟨⟨hforfeited, hpayout⟩, rfl, f₁, hpaid, (hrefund f₁ f₂ hpaid.store).mp hrefunded⟩
  · rintro ⟨⟨hforfeited, hpayout⟩, rfl, f₁, hpaid, hrefunded⟩
    exact ⟨_, ⟨hforfeited, rfl⟩, _, ⟨hpayout, rfl⟩, f₁, hpaid, (), f',
      (hrefund f₁ f' hpaid.store).mpr hrefunded, rfl, rfl⟩

omit [Tokens T] in
theorem onSide_eq_nil (hpositive : ∀ b ∈ ballots, 0 < b.2.stakeAmount) {side : Side}
    (hzero : stakeOn dispute ballots side = 0) : onSide dispute ballots side = [] := by
  cases hside : onSide dispute ballots side with
  | nil => rfl
  | cons b rest =>
    have hmem : ∀ c ∈ b :: rest, 0 < c.2.stakeAmount := by
      intro c hc
      rw [← hside] at hc
      exact hpositive c (List.mem_filter.mp hc).1
    have hrest := staked_nonneg fun c hc => hmem c (.tail _ hc)
    have hhead := hmem b (.head _)
    rw [stakeOn, hside, staked_cons] at hzero
    omega

/-- A rejected dispute pays the voters for the original outcome, or else the admin. -/
theorem run_settleRejected {result : Int}
    (hcast : Cast f.store disputeId dispute ballots) (hbond : 0 < dispute.bondAmount)
    (hconfig : f.store.config = some config) :
    run (settleRejected disputeId dispute (tallyOf dispute ballots) (ballots.map Prod.fst) :
        Oracle T Int) env f = .ok (result, f') ↔
      ((InI128 (dispute.bondAmount + stakeOn dispute ballots .disputed) ∧
        InI128 (rewardPool dispute ballots)) ∧
        ∀ b ∈ onSide dispute ballots .original,
          InI128 (b.2.stakeAmount * rewardPool dispute ballots) ∧
          InI128 (b.2.stakeAmount + shareOf dispute ballots b.2.stakeAmount)) ∧
      result = rewardPool dispute ballots ∧
      Pays env f dispute.stakeToken
        (if stakeOn dispute ballots .original = 0 then
          [(config.admin, rewardPool dispute ballots)]
        else ((onSide dispute ballots .original).map fun b =>
          (b.1, b.2.stakeAmount + shareOf dispute ballots b.2.stakeAmount)) ++
            if 0 < leftover dispute ballots then [(config.admin, leftover dispute ballots)]
            else []) f' := by
  have hdisputed := stakeOn_nonneg dispute hcast.positive .disputed
  have hunrevealed := stakeOn_nonneg dispute hcast.positive .unrevealed
  have horiginal := stakeOn_nonneg dispute hcast.positive .original
  have hpool : 0 ≤ rewardPool dispute ballots := by
    unfold rewardPool
    omega
  by_cases hzero : stakeOn dispute ballots .original = 0
  · have hnobody := onSide_eq_nil hcast.positive hzero
    simp only [settleRejected, run_orOverflow_bind, checkedAdd, checked_eq_some, tallyOf, hzero,
      if_true, run_payAdmin_bind _ hconfig, run_pure, Except.ok.injEq, Prod.mk.injEq, hnobody,
      List.not_mem_nil, false_imp_iff, implies_true, and_true]
    constructor
    · rintro ⟨_, ⟨hbonded, rfl⟩, _, ⟨hpooled, rfl⟩, f₁, hpaid, rfl, rfl⟩
      exact ⟨⟨hbonded, hpooled⟩, rfl, hpaid⟩
    · rintro ⟨⟨hbonded, hpooled⟩, rfl, hpaid⟩
      exact ⟨_, ⟨hbonded, rfl⟩, _, ⟨hpooled, rfl⟩, f', hpaid, rfl, rfl⟩
  · have hshares := sum_shares_le hbond hcast.positive (show 0 < _ by omega)
    have hsharesNonneg : 0 ≤ ((onSide dispute ballots .original).map fun b =>
        shareOf dispute ballots b.2.stakeAmount).sum := by
      refine List.sum_nonneg fun x hx => ?_
      obtain ⟨b, hb, rfl⟩ := List.mem_map.mp hx
      exact proRata_nonneg hpool (by omega) (hcast.positive b (List.mem_filter.mp hb).1).le
    have hleftover : 0 ≤ leftover dispute ballots ∧
        leftover dispute ballots ≤ rewardPool dispute ballots := by
      unfold leftover
      omega
    have hreward : InI128 (rewardPool dispute ballots) → ∀ result f₁,
        (run (rewardVoters disputeId dispute (rewardPool dispute ballots)
          (stakeOn dispute ballots .original) (ballots.map Prod.fst) 0 : Oracle T Int) env f =
            .ok (result, f₁) ↔ _) := fun hpooled result f₁ =>
      run_rewardVoters hcast hpool (by omega) le_rfl
        (.of_le (by rw [zero_add]; exact hsharesNonneg) (by rw [zero_add]; exact hshares) hpooled)
    simp only [settleRejected, run_orOverflow_bind, checkedAdd, checked_eq_some, tallyOf, hzero,
      if_false, run_bind (x := rewardVoters _ _ _ _ _ _), checkedSub]
    constructor
    · rintro ⟨_, ⟨hbonded, rfl⟩, _, ⟨hpooled, rfl⟩, total, f₁, hrewarded, _, ⟨-, rfl⟩, hrest⟩
      obtain ⟨hfits, rfl, hpaid⟩ := (hreward hpooled total f₁).mp hrewarded
      rw [zero_add] at hrest
      change run (if 0 < leftover dispute ballots then _ else _) env f₁ = _ at hrest
      refine ⟨⟨⟨hbonded, hpooled⟩, hfits⟩, ?_⟩
      rw [pays_append]
      split at hrest
      · next hpositive =>
        rw [run_payAdmin_bind _ (hpaid.store ▸ hconfig)] at hrest
        obtain ⟨f₂, hadmin, hresult⟩ := hrest
        cases hresult
        rw [if_pos hpositive]
        exact ⟨rfl, f₁, hpaid, hadmin⟩
      · next hnone =>
        cases hrest
        rw [if_neg hnone]
        exact ⟨rfl, _, hpaid, pays_nil.mpr rfl⟩
    · rintro ⟨⟨⟨hbonded, hpooled⟩, hfits⟩, rfl, hpaid⟩
      rw [pays_append] at hpaid
      obtain ⟨f₁, hpaid, hadmin⟩ := hpaid
      refine ⟨_, ⟨hbonded, rfl⟩, _, ⟨hpooled, rfl⟩, _, f₁,
        (hreward hpooled _ f₁).mpr ⟨hfits, rfl, hpaid⟩, _, ⟨?_, rfl⟩, ?_⟩
      · rw [zero_add]
        exact .of_le hleftover.1 hleftover.2 hpooled
      · rw [zero_add]
        show run (if 0 < leftover dispute ballots then _ else _) env f₁ = _
        split at hadmin
        · next hpositive =>
          rw [if_pos hpositive, run_payAdmin_bind _ (hpaid.store ▸ hconfig)]
          exact ⟨f', hadmin, rfl⟩
        · next hnone =>
          rw [if_neg hnone, pays_nil.mp hadmin]
          rfl

/-- The storage after a resolution. -/
def Storage.resolved (s : Storage) (dispute : Dispute) (result : DisputeResult) : Storage :=
  s.setDispute { dispute with result := result }

/-- A resolution succeeds exactly when it passes its checks, its arithmetic stays in range and the
token makes the payments of the rules. -/
theorem run_resolveDispute {u : Unit} (hdispute : f.store.dispute disputeId = some dispute)
    (hvoters : f.store.voters disputeId = ballots.map Prod.fst)
    (hcast : Cast f.store disputeId dispute ballots) (hbond : 0 < dispute.bondAmount)
    (hdiffer : dispute.originalOutcome ≠ dispute.disputedOutcome)
    (hconfig : f.store.config = some config) :
    run (resolveDispute disputeId : Oracle T Unit) env f = .ok (u, f') ↔
      dispute.result = .pending ∧ dispute.revealDeadline ≤ env.timestamp ∧
      (ballots ≠ [] → ResolutionFits dispute ballots) ∧
      ∃ f₁, Pays env f dispute.stakeToken (payments dispute config.admin ballots) f₁ ∧
        f' = ⟨f.store.resolved dispute (resultOf dispute ballots), f₁.tokens,
          .event (.disputeResolved disputeId (resultOf dispute ballots)
            (distributedOf dispute ballots)) :: f₁.effects⟩ := by
  have htally : ∀ result f₁, (run (tallyVotes disputeId dispute (ballots.map Prod.fst) ⟨0, 0, 0⟩ :
      Oracle T Tally) env f = .ok (result, f₁) ↔ _) := fun result f₁ =>
    run_tallyVotes ⟨0, 0, 0⟩ result hcast (fun side => by cases side <;> exact le_rfl)
      (fun side => by cases side <;> decide)
  have hall : (ballots ≠ [] → ResolutionFits dispute ballots) ↔ ballots = [] ∨
      (∀ side, InI128 (stakeOn dispute ballots side)) ∧
      (upheld dispute ballots → InI128 (forfeited dispute ballots) ∧
        InI128 (dispute.bondAmount + forfeited dispute ballots)) ∧
      (¬ upheld dispute ballots →
        (InI128 (dispute.bondAmount + stakeOn dispute ballots .disputed) ∧
          InI128 (rewardPool dispute ballots)) ∧
        ∀ b ∈ onSide dispute ballots .original,
          InI128 (b.2.stakeAmount * rewardPool dispute ballots) ∧
          InI128 (b.2.stakeAmount + shareOf dispute ballots b.2.stakeAmount)) := by
    constructor
    · intro h
      by_cases hempty : ballots = []
      · exact .inl hempty
      · have hfits := h hempty
        exact .inr ⟨hfits.totals, hfits.taken, fun hrejected =>
          ⟨hfits.pooled hrejected, hfits.shares hrejected⟩⟩
    · rintro (hempty | ⟨htotals, htaken, hrejected⟩) hne
      · exact absurd hempty hne
      · exact ⟨htotals, htaken, fun h => (hrejected h).1, fun h => (hrejected h).2⟩
  rw [hall]
  simp only [resolveDispute, run_requireDispute_bind, hdispute, Option.some.injEq, exists_eq_left',
    run_steps, hvoters, ne_eq, not_not, not_lt, List.map_eq_nil_iff]
  refine and_congr_right fun _ => and_congr_right fun _ => ?_
  by_cases hempty : ballots = []
  · subst hempty
    simp only [if_true, run_pays_bind, run_steps, true_or, true_and, payments, resultOf,
      distributedOf]
    refine exists_congr fun f₁ => and_congr_right fun hpaid => ?_
    rw [← hpaid.store]
    exact Iff.rfl
  · have hcounted : ∀ tally : Tally, (∀ side, tally.amount side =
        (⟨0, 0, 0⟩ : Tally).amount side + stakeOn dispute ballots side) →
        tally = tallyOf dispute ballots := fun tally hamount =>
      Tally.ext_amount fun side => by
        rw [hamount side]
        cases side <;> exact zero_add _
    simp only [hempty, if_false, false_or, payments, resultOf, distributedOf]
    rw [run_bind]
    simp only [htally]
    have hzero : ∀ side, (⟨0, 0, 0⟩ : Tally).amount side + stakeOn dispute ballots side =
        stakeOn dispute ballots side := fun side => by cases side <;> exact zero_add _
    constructor
    · rintro ⟨tally, _, ⟨htotals, hamount, rfl⟩, hrest⟩
      obtain rfl := hcounted tally hamount
      simp only [hzero] at htotals
      split at hrest
      · next hupheld =>
        have hupheld' : upheld dispute ballots := hupheld
        simp only [run_bind (x := settleUpheld _ _ _ _), run_steps]
          at hrest
        obtain ⟨distributed, f₁, hsettled, rfl⟩ := hrest
        obtain ⟨hfits, rfl, hpaid⟩ := (run_settleUpheld hcast hdiffer).mp hsettled
        simp only [hupheld', if_true, not_true_eq_false, false_imp_iff, true_imp_iff, and_true]
        exact ⟨⟨htotals, hfits⟩, f₁, hpaid, by rw [← hpaid.store]; rfl⟩
      · next hrejected =>
        have hrejected' : ¬ upheld dispute ballots := hrejected
        simp only [run_bind (x := settleRejected _ _ _ _), run_steps]
          at hrest
        obtain ⟨distributed, f₁, hsettled, rfl⟩ := hrest
        obtain ⟨hfits, rfl, hpaid⟩ := (run_settleRejected hcast hbond hconfig).mp hsettled
        simp only [hrejected', if_false, not_false_eq_true, false_imp_iff, true_imp_iff, true_and]
        exact ⟨⟨htotals, hfits⟩, f₁, hpaid, by rw [← hpaid.store]; rfl⟩
    · rintro ⟨⟨htotals, htaken, hpooled⟩, f₁, hpaid, rfl⟩
      refine ⟨tallyOf dispute ballots, f, ⟨fun side => ?_, fun side => ?_, rfl⟩, ?_⟩
      · rw [hzero]
        exact htotals side
      · rw [hzero]
        cases side <;> rfl
      · split
        · next hupheld =>
          have hupheld' : upheld dispute ballots := hupheld
          simp only [hupheld', if_true] at hpaid ⊢
          simp only [run_bind (x := settleUpheld _ _ _ _), run_steps]
          exact ⟨_, f₁, (run_settleUpheld hcast hdiffer).mpr ⟨htaken hupheld', rfl, hpaid⟩,
            by rw [← hpaid.store]; rfl⟩
        · next hrejected =>
          have hrejected' : ¬ upheld dispute ballots := hrejected
          simp only [hrejected', if_false] at hpaid ⊢
          simp only [run_bind (x := settleRejected _ _ _ _), run_steps]
          exact ⟨_, f₁, (run_settleRejected hcast hbond hconfig).mpr
            ⟨hpooled hrejected', rfl, hpaid⟩, by rw [← hpaid.store]; rfl⟩

end Specs

end Backit.SchellingOracle
