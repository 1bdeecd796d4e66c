import Backit.CallRegistry.Operations

/-!
# The entry points make the listed transitions

One lemma per helper and per entry point reads off what a successful run did. `MarketOp.steps`
collects them: every successful operation on the market leaves the control records alone and is
one of the transitions of `MarketStep`, and the token contracts performed exactly its effects.
-/

namespace Backit.CallRegistry

open Soroban Contract Lib

variable {T : Type} {env : Env} {f f' : Frame Storage T Event}

/-- The trustline counts stay as they are, and no user's recorded volume goes down. -/
structure Profiles.Tracks (p p' : Profiles) : Prop where
  trustlines : p'.userTrustlineCount = p.userTrustlineCount
  volumes : ∀ user, p.userTotalStakeVolume user ≤ p'.userTotalStakeVolume user

theorem Profiles.Tracks.refl (p : Profiles) : p.Tracks p := ⟨rfl, fun _ => le_rfl⟩

theorem Profiles.Tracks.trans {p₁ p₂ p₃ : Profiles} (h : p₁.Tracks p₂) (h' : p₂.Tracks p₃) :
    p₁.Tracks p₃ :=
  ⟨h'.trustlines.trans h.trustlines, fun user => (h.volumes user).trans (h'.volumes user)⟩

/-- The frames differ in the profile records at most. -/
structure OnlyProfiles (f f' : Frame Storage T Event) : Prop where
  market : f'.store.market = f.store.market
  control : f'.store.control = f.store.control
  tokens : f'.tokens = f.tokens
  effects : f'.effects = f.effects
  tracked : f.store.profiles.Tracks f'.store.profiles

variable {u : Unit} {config : ContractConfig}

theorem record_stake_only_profiles {staker : Address} {amount : Int}
    (h : run (recordStake staker amount) env f = .ok (u, f')) : OnlyProfiles f f' := by
  simp only [recordStake, run_steps] at h
  obtain ⟨-, h⟩ := h
  split at h
  · rw [run_modifyStore] at h
    subst h
    exact ⟨rfl, rfl, rfl, rfl, rfl, fun _ => le_rfl⟩
  · rw [run_unsigned_bind, run_modifyStore] at h
    obtain ⟨-, rfl⟩ := h
    exact ⟨rfl, rfl, rfl, rfl, rfl, fun _ => le_rfl⟩

theorem record_user_stake_volume_only_profiles {user : Address} {amount : Int}
    (hamount : 0 < amount)
    (h : run (recordUserStakeVolume user amount) env f = .ok (u, f')) : OnlyProfiles f f' := by
  simp only [recordUserStakeVolume, run_steps] at h
  obtain ⟨updated, hupdated, rfl⟩ := h
  refine ⟨rfl, rfl, rfl, rfl, rfl, fun other => ?_⟩
  obtain ⟨-, hsum⟩ := checked_eq_some.mp hupdated
  show f.store.profiles.userTotalStakeVolume other ≤
    Function.update f.store.profiles.userTotalStakeVolume user updated other
  rcases eq_or_ne other user with rfl | hne
  · rw [Function.update_self, hsum]
    exact le_add_of_nonneg_right hamount.le
  · rw [Function.update_of_ne hne]

theorem record_call_created_only_profiles
    (h : run (recordCallCreated) env f = .ok (u, f')) : OnlyProfiles f f' := by
  simp only [recordCallCreated, run_steps] at h
  obtain ⟨-, rfl⟩ := h
  exact ⟨rfl, rfl, rfl, rfl, rfl, fun _ => le_rfl⟩

theorem track_first_stake_only_profiles {staker : Address}
    (h : run (trackFirstStake staker) env f = .ok (u, f')) : OnlyProfiles f f' := by
  simp only [trackFirstStake, run_steps] at h
  split at h
  · rw [run_modifyStore] at h
    subst h
    exact ⟨rfl, rfl, rfl, rfl, rfl, fun _ => le_rfl⟩
  · rw [run_pure, Except.ok.injEq, Prod.mk.injEq] at h
    obtain ⟨-, rfl⟩ := h
    exact ⟨rfl, rfl, rfl, rfl, rfl, fun _ => le_rfl⟩

/-- The checks on the call leave the state alone and pass only on an open call. -/
theorem run_check_stakeable {call : Call} {position : Nat}
    (h : run (checkStakeable config call position) env f = .ok (u, f')) :
    f' = f ∧ call.Open env.timestamp ∧ call.HasPosition position := by
  simp only [checkStakeable, run_steps, run_rejectIf, Bool.not_eq_true] at h
  obtain ⟨hend, -, hsettled, hcancelled, hvoided, hposition, rfl⟩ := h
  exact ⟨rfl, ⟨by omega, hsettled, hcancelled, hvoided⟩, ⟨by omega, by omega⟩⟩

/-- The emergency check leaves the state alone and passes for the admin, or for the creator of an
unstaked call after the delay. -/
theorem run_check_emergency_cancel {caller : Address} {call : Call}
    (h : run (checkEmergencyCancel config caller call) env f = .ok (u, f')) :
    f' = f ∧ (caller = config.admin ∨ caller = call.creator ∧ call.pools.sum ≤ 0 ∧
      call.emergencyDeadline < env.timestamp) := by
  unfold checkEmergencyCancel at h
  split at h
  · next hadmin =>
    cases h
    exact ⟨rfl, .inl hadmin⟩
  · simp only [run_steps, run_sumI128_bind, run_rejectIf, Decidable.not_not] at h
    obtain ⟨hcreator, -, hpools, -, hdelay, rfl⟩ := h
    exact ⟨rfl, .inr ⟨hcreator, by omega, by omega⟩⟩

/-- Announcing a moved stake limit publishes events and does nothing else. -/
theorem run_maybe_emit_stake_limit_updated {user : Address} {old new : CreatorStats} {volume : Int}
    (h : run (maybeEmitStakeLimitUpdated user config old new volume) env f = .ok (u, f')) :
    ∃ limits : List Event,
      f' = { f with effects := limits.map .event ++ f.effects } := by
  simp only [maybeEmitStakeLimitUpdated, run_steps] at h
  obtain ⟨_, -, new, -, h⟩ := h
  split at h
  · rw [run_publish] at h
    exact ⟨[.stakeLimitUpdated user new], h⟩
  · cases h
    exact ⟨[], rfl⟩

theorem run_count_resolved {call : Call} {outcome : Nat}
    (h : run (countResolved config call outcome) env f = .ok (u, f')) :
    ∃ limits : List Event, f' = { f with
      store := f.store.onMarket
        (·.setCreatorStats call.creator (f.store.market.resolvedStats call outcome))
      effects := limits.map .event ++ f.effects } := by
  simp only [countResolved, run_steps] at h
  obtain ⟨-, h⟩ := h
  unfold Market.resolvedStats
  split at h
  · next hwin =>
    simp only [run_steps] at h
    simp only [if_pos hwin]
    exact run_maybe_emit_stake_limit_updated h.2
  · next hlose =>
    simp only [run_steps] at h
    simp only [if_neg hlose]
    exact run_maybe_emit_stake_limit_updated h

theorem run_count_created {creator : Address} (h : run (countCreated creator) env f = .ok (u, f')) :
    f' = { f with store := f.store.onMarket (·.setCreatorStats creator
      { f.store.market.creatorStats creator with
        totalCreated := (f.store.market.creatorStats creator).totalCreated + 1 }) } := by
  simp only [countCreated, run_steps] at h
  exact h.2

theorem track_first_creation_only_profiles {creator : Address}
    (h : run (trackFirstCreation creator) env f = .ok (u, f')) : OnlyProfiles f f' := by
  simp only [trackFirstCreation, run_steps] at h
  split at h
  · rw [run_modifyStore] at h
    subst h
    exact ⟨rfl, rfl, rfl, rfl, rfl, fun _ => le_rfl⟩
  · cases h
    exact ⟨rfl, rfl, rfl, rfl, rfl, fun _ => le_rfl⟩

theorem write_data_entries_only_profiles {callId : Nat} {args : CallInitArgs}
    (h : run (writeDataEntries callId args) env f = .ok (u, f')) : OnlyProfiles f f' := by
  simp only [writeDataEntries, run_steps] at h
  obtain ⟨_, -, _, -, rfl⟩ := h
  exact ⟨rfl, rfl, rfl, rfl, rfl, fun _ => le_rfl⟩

section Tokens

variable [Tokens T]

theorem passes_gate_read_only (user : Address) (fields : GateFields) (kind : Nat) :
    ReadOnly (passesGate (T := T) user fields kind) := by
  refine .bind .getStore fun store => .bind .env fun environment => ?_
  refine .ite (.pure _) (.ite ?_ (.ite ?_ (.ite (.pure _) (.ite ?_ (.pure _)))))
  · exact .bind (.unwrap _ _) fun _ => .pure _
  · exact .bind (.unwrap _ _) fun _ => .bind (.tokenBalance _ _) fun _ => .pure _
  · cases fields.badge with
    | none => exact .pure _
    | some badge => exact .bind (.tokenBalance _ _) fun _ => .pure _

theorem check_user_qualifies_read_only (user : Address) (callId : Nat) :
    ReadOnly (checkUserQualifies (T := T) user callId) := by
  refine .bind .getStore fun store => ?_
  cases getCallGateFields store callId with
  | none => exact .pure _
  | some fields =>
    cases hkind : fields.kind with
    | none => simpa only [hkind] using .pure _
    | some kind => simpa only [hkind] using passes_gate_read_only user fields kind

/-- Both branches of `transferToken` are the same transfer. -/
theorem transfer_token_eq (stakeToken sender recipient : Address) (amount : Int) :
    transferToken (T := T) stakeToken sender recipient amount =
      tokenTransfer stakeToken sender recipient amount := ite_self _

/-- Collecting a stake is one transfer, and credits at most what was asked for. -/
theorem run_collect_stake {stakeToken funder : Address} {amount credited : Int}
    (hamount : 0 < amount)
    (h : run (collectStake stakeToken funder amount) env f = .ok (credited, f')) :
    0 < credited ∧ credited ≤ amount ∧ ∃ tokens,
      Tokens.transfer env stakeToken funder env.contract amount f.tokens = some tokens ∧
      f' = f.record tokens (.transfer stakeToken funder env.contract amount) := by
  simp only [collectStake, run_env_bind, transfer_token_eq] at h
  split at h
  · simp only [run_steps] at h
    obtain ⟨tokens, htransfer, rfl, rfl⟩ := h
    exact ⟨hamount, le_rfl, tokens, htransfer, rfl⟩
  · simp only [run_steps] at h
    obtain ⟨_, -, tokens, htransfer, _, -, received, -, hreceived, rfl, rfl⟩ := h
    exact ⟨by omega, min_le_right _ _, tokens, htransfer, rfl⟩

variable {u : Unit} {callId : Nat} {config : ContractConfig} {staker : Address}

/-- Minting a stake's shares has the effects of `mintEffects`. -/
theorem run_mint_stake_shares {call : Call} {callId position : Nat} {amount : Int}
    (h : run (mintStakeShares call callId staker position amount) env f = .ok (u, f')) :
    f'.store = f.store ∧ f'.effects = mintEffects call callId staker position amount ++ f.effects ∧
      Replays env f.tokens (mintEffects call callId staker position amount) f'.tokens := by
  cases htoken : call.shareTokens.lookup position with
  | some token =>
    simp only [mintStakeShares, htoken, mintShares, run_tokenMint_bind, run_publish] at h
    obtain ⟨tokens, hmint, rfl⟩ := h
    simp only [mintEffects, htoken]
    exact ⟨rfl, rfl, (Replays.nil.mint hmint).event⟩
  | none =>
    simp only [mintStakeShares, htoken] at h
    cases h
    simpa [mintEffects, htoken] using Replays.nil

/-- Releasing the lock that the invocation took leaves the control records as they were. -/
theorem release_lock_control {s : Storage} {c : Control} (hfree : s.control.locked = false)
    (hc : c = (s.setLocked true).control) : { c with locked := false } = s.control := by
  subst hc
  simp only [Storage.setLocked, ← hfree]

/-- A successful invocation seen from outside: it left the control records alone, and the market
made a step whose effects the token contracts performed. -/
structure Steps (env : Env) (op : MarketOp) (f f' : Frame Storage T Event) : Prop where
  control : f'.store.control = f.store.control
  tracked : f.store.profiles.Tracks f'.store.profiles
  step : ∃ effects, f'.effects = effects ++ f.effects ∧ Replays env f.tokens effects f'.tokens ∧
    MarketStep env f.store.control.config op f.store.market effects f'.store.market

theorem Steps.of_market {op : MarketOp} {m : Market} {effects : List (Effect Event)}
    (hstep : MarketStep env f.store.control.config op f.store.market effects m)
    (hmarket : f'.store.market = m) (hcontrol : f'.store.control = f.store.control)
    (heffects : f'.effects = effects ++ f.effects)
    (hreplay : Replays env f.tokens effects f'.tokens)
    (htracked : f.store.profiles.Tracks f'.store.profiles) :
    Steps env op f f' :=
  ⟨hcontrol, htracked, effects, heffects, hreplay, hmarket ▸ hstep⟩

theorem do_stake_steps {op : MarketOp} {r : StakeRequest} {a : Call}
    (hop : op.stakeRequest = some r)
    (h : run (doStake r.funder r.staker r.callId r.amount r.position) env f = .ok (a, f')) :
    Steps env op f f' := by
  simp only [doStake, run_steps, run_reentrancyGuard_bind, run_expectConfig_bind,
    run_requireCall_bind, Storage.setLocked_market] at h
  obtain ⟨hauth, hunlocked, hamount, config, -, -, -, call, hcall, h⟩ := h
  rw [run_bind] at h
  obtain ⟨_, f₁, hcheck, h⟩ := h
  obtain ⟨rfl, hopen, hposition⟩ := run_check_stakeable hcheck
  rw [run_bind] at h
  obtain ⟨_, f₁, hfirst, h⟩ := h
  have hfirst := track_first_stake_only_profiles hfirst
  rw [run_bind] at h
  obtain ⟨qualifies, f₂, hgate, h⟩ := h
  obtain rfl := check_user_qualifies_read_only _ _ _ _ _ _ hgate
  simp only [run_steps] at h
  obtain ⟨-, -, _, -, -, h⟩ := h
  rw [run_bind] at h
  obtain ⟨credited, f₃, hcollect, h⟩ := h
  obtain ⟨hpositive, hle, tokens, htransfer, rfl⟩ := run_collect_stake (by omega) hcollect
  simp only [run_i128_bind] at h
  obtain ⟨-, h⟩ := h
  rw [run_bind] at h
  obtain ⟨_, f₄, hmint, h⟩ := h
  obtain ⟨hstore, heffects, hreplay⟩ := run_mint_stake_shares hmint
  simp only [run_steps] at h
  obtain ⟨-, h⟩ := h
  rw [run_bind] at h
  obtain ⟨_, f₅, hrecord, h⟩ := h
  rw [run_bind] at h
  obtain ⟨_, f₆, hvolume, h⟩ := h
  have hrecord := record_stake_only_profiles hrecord
  have hvolume := record_user_stake_volume_only_profiles hpositive hvolume
  simp only [publishByToken, run_steps, run_releaseLock_bind] at h
  obtain ⟨-, rfl⟩ := h
  refine .of_market (.staked hop hauth hcall hopen hposition hpositive hle) ?_
    (release_lock_control hunlocked ?_) ?_ ?_ ?_
  · simp [hvolume.market, hrecord.market, hstore, hfirst.market, Market.withStake]
  · simp [hvolume.control, hrecord.control, hstore, hfirst.control]
  · simp [hvolume.effects, hrecord.effects, heffects, hfirst.effects]
    rfl
  · simpa [hvolume.tokens, hrecord.tokens, hfirst.tokens] using
      (Replays.append (.transfer .nil (hfirst.tokens ▸ htransfer)) hreplay).event
  · have hminted := congrArg Storage.profiles hstore
    exact hfirst.tracked.trans (hminted ▸ hrecord.tracked.trans hvolume.tracked)

theorem withdraw_stake_steps {callId position : Nat} {a : Int × Int}
    (h : run (withdrawStake staker callId position) env f = .ok (a, f')) :
    Steps env (.withdrawStake staker callId position) f f' := by
  simp only [withdrawStake, run_expectConfig_bind, run_steps, Bool.not_eq_true] at h
  obtain ⟨_, -, -, hunlocked, h⟩ := h
  rw [run_bind] at h
  obtain ⟨_, f₁, hwithdrawal, h⟩ := h
  simp only [executeWithdrawal, run_steps, run_expectCall_bind, run_expectConfig_bind,
    transfer_token_eq, publishByToken, Bool.not_eq_true, Storage.setLocked_market] at hwithdrawal
  obtain ⟨hauth, call, hcall, hend, hsettled, hcancelled, hvoided, hposition, hstake, _, -, -, -,
    -, tokens, htransfer, rfl, rfl⟩ := hwithdrawal
  simp only [run_releaseLock_bind, run_pure, Except.ok.injEq, Prod.mk.injEq] at h
  obtain ⟨-, rfl⟩ := h
  exact .of_market
    (.withdrawn hauth hcall ⟨by omega, hsettled, hcancelled, hvoided⟩ ⟨by omega, by omega⟩
      (lt_of_not_ge hstake) rfl rfl) rfl (release_lock_control hunlocked rfl) rfl
    (Replays.nil.transfer htransfer).event (.refl _)

theorem update_call_metadata_steps {creator : Address} {hash : BytesN 32}
    (h : run (updateCallMetadata creator callId hash) env f = .ok (u, f')) :
    Steps env (.updateCallMetadata creator callId hash) f f' := by
  simp only [updateCallMetadata, run_steps, run_requireCall_bind, not_or, Bool.not_eq_true,
    Decidable.not_not] at h
  obtain ⟨hauth, call, hcall, hcreator, ⟨hsettled, hcancelled⟩, hend, -, rfl⟩ := h
  exact .of_market (.metadataUpdated hauth hcall hcreator hsettled hcancelled (by omega)) rfl rfl
    rfl (Replays.nil.event) (.refl _)

theorem set_start_price_steps [Crypto] {price : Int} {key : BytesN 32}
    {signature : BytesN 64} {a : Call}
    (h : run (setStartPrice callId price key signature) env f = .ok (a, f')) :
    Steps env (.setStartPrice callId price key signature) f f' := by
  simp only [setStartPrice, run_steps, run_requireConfig_bind, run_requireCall_bind,
    run_ed25519Verify_bind, Bool.not_eq_true] at h
  obtain ⟨hprice, c, hconfig, hauth, call, hcall, hsettled, hcancelled, hvoided, -, -, rfl⟩ := h
  exact .of_market (.priced hconfig hauth hcall (by omega) hsettled hcancelled hvoided) rfl rfl rfl
    .nil (.refl _)

theorem redeem_shares_steps {redeemer : Address} {a : Int}
    (h : run (redeemShares redeemer callId) env f = .ok (a, f')) :
    Steps env (.redeemShares redeemer callId) f f' := by
  simp only [redeemShares, run_steps, run_requireCall_bind, shareBalance, run_sumI128_bind] at h
  obtain ⟨hauth, call, hcall, houtcome, hsettled, token, htoken, balance, -, hbalance, -, h⟩ := h
  rw [run_bind] at h
  obtain ⟨payout, f₁, hpayout, h⟩ := h
  simp only [burnShares, run_steps, run_tokenClawback_bind, transfer_token_eq] at h
  obtain ⟨hpositive, burned, hburn, tokens, htransfer, -, rfl⟩ := h
  unfold redemption at hpayout
  split at hpayout
  · next hwinning =>
    simp only [run_steps] at hpayout
    obtain ⟨-, hvalue, rfl⟩ := hpayout
    exact .of_market
      (.redeemed hauth hcall houtcome (by simpa using hsettled) htoken (by omega) (by omega)
        hwinning hvalue.symm) rfl rfl rfl
      ((Replays.nil.clawback hburn).transfer htransfer).event (.refl _)
  · cases hpayout
    omega

theorem transfer_shares_steps {sender recipient : Address} {callId outcome : Nat} {amount : Int}
    (h : run (transferShares sender recipient callId outcome amount) env f = .ok (u, f')) :
    Steps env (.transferShares sender recipient callId outcome amount) f f' := by
  simp only [transferShares, run_steps, run_requireCall_bind] at h
  obtain ⟨hauth, call, hcall, hposition, token, htoken, tokens, htransfer, rfl⟩ := h
  exact .of_market (.sharesTransferred hauth hcall ⟨by omega, by omega⟩ htoken) rfl rfl rfl
    (Replays.nil.transfer htransfer).event (.refl _)

theorem mark_settled_steps
    (h : run (markSettled callId) env f = .ok (u, f')) : Steps env (.markSettled callId) f f' := by
  simp only [markSettled, run_requireConfig_bind, run_steps, run_requireCall_bind,
    Bool.not_eq_true] at h
  obtain ⟨c, hconfig, hauth, call, hcall, hsettled, rfl⟩ := h
  exact .of_market (.settled hconfig hauth hcall hsettled) rfl rfl rfl .nil (.refl _)

theorem release_escrow_steps {recipient : Address} {amount : Int}
    (h : run (releaseEscrow callId recipient amount) env f = .ok (u, f')) :
    Steps env (.releaseEscrow callId recipient amount) f f' := by
  simp only [releaseEscrow, run_requireConfig_bind, run_steps, run_requireCall_bind,
    transfer_token_eq] at h
  obtain ⟨c, hconfig, hauth, call, hcall, tokens, htransfer, h⟩ := h
  have hreplay := Replays.transfer (E := Event) .nil htransfer
  split at h
  · next hnative =>
    rw [run_publish] at h
    subst h
    exact .of_market (.released hconfig hauth hcall) rfl rfl (by simp [releaseEvents, hnative])
      (by simpa [releaseEvents, hnative] using hreplay.event) (.refl _)
  · next hnative =>
    cases h
    exact .of_market (.released hconfig hauth hcall) rfl rfl (by simp [releaseEvents, hnative])
      (by simpa [releaseEvents, hnative] using hreplay) (.refl _)

theorem cancel_call_steps {creator : Address}
    (h : run (cancelCall creator callId) env f = .ok (u, f')) :
    Steps env (.cancelCall creator callId) f f' := by
  simp only [cancelCall, run_steps, run_reentrancyGuard_bind, run_requireCall_bind,
    run_sumI128_bind, transfer_token_eq, publishByToken, Storage.setLocked_market, Bool.not_eq_true,
    Decidable.not_not] at h
  obtain ⟨hauth, hunlocked, call, hcall, hcreator, hsettled, hcancelled, -, hpools, tokens,
    htransfer, h⟩ := h
  simp only [releaseLock, run_modifyStore] at h
  subst h
  exact .of_market (.cancelled hauth hcall hcreator hsettled hcancelled (by omega)) rfl
    (release_lock_control hunlocked rfl) rfl (Replays.nil.transfer htransfer).event (.refl _)

theorem void_call_steps
    (h : run (voidCall callId) env f = .ok (u, f')) : Steps env (.voidCall callId) f f' := by
  simp only [voidCall, run_expectConfig_bind, run_steps, run_expectCall_bind, Bool.not_eq_true] at h
  obtain ⟨c, hconfig, hauth, call, hcall, hvoided, hsettled, rfl⟩ := h
  exact .of_market (.voided hconfig hauth hcall hvoided hsettled) rfl rfl rfl Replays.nil.event
    (.refl _)

theorem claim_void_refund_steps {op : MarketOp} (hop : op.voidRefundRequest = some (staker, callId))
    (h : run (claimVoidRefund staker callId) env f = .ok (u, f')) : Steps env op f f' := by
  simp only [claimVoidRefund, run_steps, run_expectCall_bind, transfer_token_eq, publishByToken,
    Bool.not_eq_true, Bool.not_eq_false] at h
  obtain ⟨hauth, call, hcall, hvoided, hclaimed, -, hrefund, tokens, htransfer, rfl⟩ := h
  exact .of_market (.voidRefunded hop hauth hcall hvoided hclaimed rfl
      (lt_of_not_ge hrefund)) rfl rfl rfl
    (Replays.nil.transfer htransfer).event (.refl _)

theorem emergency_cancel_call_steps {caller : Address}
    (h : run (emergencyCancelCall caller callId) env f = .ok (u, f')) :
    Steps env (.emergencyCancelCall caller callId) f f' := by
  simp only [emergencyCancelCall, run_steps, run_expectConfig_bind, run_expectCall_bind, not_or,
    Bool.not_eq_true] at h
  obtain ⟨hauth, c, hconfig, call, hcall, hsettled, ⟨hcancelled, hvoided⟩, h⟩ := h
  rw [run_bind] at h
  obtain ⟨_, f₁, hcheck, h⟩ := h
  obtain ⟨rfl, hallowed⟩ := run_check_emergency_cancel hcheck
  simp only [run_steps, transfer_token_eq] at h
  obtain ⟨tokens, htransfer, rfl⟩ := h
  exact .of_market
    (.emergencyCancelled hauth hconfig hcall hsettled hcancelled hvoided hallowed) rfl rfl rfl
    (Replays.nil.transfer htransfer).event (.refl _)

theorem claim_expired_refund_steps
    (h : run (claimExpiredRefund staker callId) env f = .ok (u, f')) :
    Steps env (.claimExpiredRefund staker callId) f f' := by
  simp only [claimExpiredRefund, run_steps, run_expectCall_bind, run_expectConfig_bind,
    run_sumI128_bind, transfer_token_eq, publishByToken, Bool.not_eq_true] at h
  obtain ⟨hauth, call, hcall, c, hconfig, -, hgrace, hsettled, hvoided, hclaimed, -, hrefund,
    tokens, htransfer, rfl⟩ := h
  exact .of_market
    (.expiredRefunded hauth hconfig hcall (by omega) hsettled hvoided hclaimed rfl
      (lt_of_not_ge hrefund)) rfl rfl rfl
    (Replays.nil.transfer htransfer).event (.refl _)

theorem resolve_call_steps {callId outcome : Nat} {endPrice : Int} {a : Call}
    (h : run (resolveCall callId outcome endPrice) env f = .ok (a, f')) :
    Steps env (.resolveCall callId outcome endPrice) f f' := by
  simp only [resolveCall, run_requireConfig_bind, run_steps, run_reentrancyGuard_bind,
    run_requireCall_bind, Storage.setLocked_market, Bool.not_eq_true] at h
  obtain ⟨c, hconfig, hpaused, hauth, hunlocked, call, hcall, hposition, hended, hvoided, h⟩ := h
  rw [run_bind] at h
  obtain ⟨_, f₁, hcount, h⟩ := h
  obtain ⟨limits, rfl⟩ := run_count_resolved hcount
  simp only [run_steps, run_releaseLock_bind] at h
  obtain ⟨-, rfl⟩ := h
  exact .of_market
    (.resolved hconfig hpaused hauth hcall ⟨by omega, by omega⟩ (by omega) hvoided) rfl
    (release_lock_control hunlocked rfl) rfl (by simpa using (Replays.nil.events limits).event)
    (.refl _)

/-- Deploying share tokens gives one new token per position, in order. -/
theorem run_deploy_share_tokens [Crypto] {wasmHash : BytesN 32}
    {todo : List Nat} {done shareTokens : Map Nat Address}
    (h : run (deployShareTokens wasmHash callId todo done) env f = .ok (shareTokens, f')) :
    ∃ tokens : List Address, tokens.length = todo.length ∧
      shareTokens = (todo.zip tokens).foldl (fun m entry => m.insert entry.1 entry.2) done ∧
      f'.store = f.store ∧ f'.effects = tokens.reverse.map .deploy ++ f.effects ∧
      Replays (E := Event) env f.tokens (tokens.reverse.map .deploy) f'.tokens := by
  induction todo generalizing done f with
  | nil =>
    cases h
    exact ⟨[], rfl, rfl, rfl, rfl, .nil⟩
  | cons position rest ih =>
    simp only [deployShareTokens, deployShareToken, run_deployToken_bind] at h
    obtain ⟨token, tokens, hdeploy, h⟩ := h
    obtain ⟨later, hlength, hmap, hstore, heffects, hreplay⟩ := ih h
    refine ⟨token :: later, by simp [hlength], by simpa using hmap, hstore, ?_, ?_⟩
    · simp [heffects]
    · simpa using Replays.append (Replays.nil.deploy hdeploy) hreplay

theorem run_create_share_tokens [Crypto] {callId outcomeCount : Nat} {shareTokens : Map Nat Address}
    (h : run (createShareTokens config callId outcomeCount) env f = .ok (shareTokens, f')) :
    ∃ tokens : List Address, (tokens = [] ∨ tokens.length = outcomeCount) ∧
      shareTokens = shareTokenMap tokens ∧ f'.store = f.store ∧
      f'.effects = tokens.reverse.map .deploy ++ f.effects ∧
      Replays (E := Event) env f.tokens (tokens.reverse.map .deploy) f'.tokens := by
  unfold createShareTokens at h
  split at h
  · obtain ⟨tokens, hlength, hmap, hrest⟩ := run_deploy_share_tokens h
    have hcount : tokens.length = outcomeCount := by simpa [positions] using hlength
    exact ⟨tokens, .inr hcount, by rw [hmap, shareTokenMap, hcount], hrest⟩
  · cases h
    exact ⟨[], .inl rfl, rfl, rfl, rfl, .nil⟩

theorem create_call_steps [Crypto] {creator : Address} {args : CallInitArgs} {a : Call}
    (h : run (createCall creator args) env f = .ok (a, f')) :
    Steps env (.createCall creator args) f f' := by
  simp only [createCall, run_steps, run_reentrancyGuard_bind, run_requireConfig_bind, not_or] at h
  obtain ⟨hauth, hunlocked, c, -, -, ⟨-, hstake⟩, hprice, hcount, hend, h⟩ := h
  simp only [assertDurationWithinLimit, Contract.bind_assoc, run_steps, run_requireConfig_bind,
    nextCallId] at h
  obtain ⟨-, -, _, -, -, -, h⟩ := h
  rw [run_bind] at h
  obtain ⟨shareTokens, f₁, hshares, h⟩ := h
  obtain ⟨tokens, hlength, rfl, hstore, heffects, hreplay⟩ := run_create_share_tokens hshares
  simp only [run_modifyStore_bind] at h
  rw [run_bind] at h
  obtain ⟨_, f₂, hrecord, h⟩ := h
  have hrecord := record_call_created_only_profiles hrecord
  rw [run_bind] at h
  obtain ⟨_, f₃, hfirst, h⟩ := h
  have hfirst := track_first_creation_only_profiles hfirst
  rw [run_bind] at h
  obtain ⟨_, f₄, hstats, h⟩ := h
  obtain rfl := run_count_created hstats
  simp only [run_publish_bind] at h
  rw [run_bind] at h
  obtain ⟨_, f₅, hentries, h⟩ := h
  have hentries := write_data_entries_only_profiles hentries
  simp only [run_releaseLock_bind, run_pure, Except.ok.injEq, Prod.mk.injEq] at h
  obtain ⟨-, rfl⟩ := h
  refine .of_market (.created hauth (by omega) (by omega) (by omega) (by omega) hlength) ?_
    (release_lock_control hunlocked ?_) ?_ ?_ ?_
  · simp [hentries.market, hfirst.market, hrecord.market, hstore, Market.withNewCall]
    rfl
  · simp [hentries.control, hfirst.control, hrecord.control, hstore]
  · simp [hentries.effects, hfirst.effects, hrecord.effects, heffects]
  · simpa [hentries.tokens, hfirst.tokens, hrecord.tokens] using hreplay.event
  · have hdeployed := congrArg Storage.profiles hstore
    exact hdeployed ▸ (hrecord.tracked.trans hfirst.tracked).trans hentries.tracked

/-- Every successful operation on the market is one of the listed transitions. -/
theorem MarketOp.steps [Crypto] {op : MarketOp}
    (h : run op.perform env f = .ok (u, f')) : Steps env op f f' := by
  cases op with
  | createCall creator args =>
    obtain ⟨_, h⟩ := run_ignore.mp h
    exact create_call_steps h
  | updateCallMetadata creator callId hash => exact update_call_metadata_steps h
  | stakeOnCall staker callId amount position =>
    obtain ⟨_, h⟩ := run_ignore.mp h
    exact do_stake_steps rfl h
  | stakeOnBehalf funder staker callId amount position =>
    obtain ⟨_, h⟩ := run_ignore.mp h
    exact do_stake_steps rfl h
  | redeemShares redeemer callId =>
    obtain ⟨_, h⟩ := run_ignore.mp h
    exact redeem_shares_steps h
  | transferShares sender recipient callId outcome amount => exact transfer_shares_steps h
  | resolveCall callId outcome endPrice =>
    obtain ⟨_, h⟩ := run_ignore.mp h
    exact resolve_call_steps h
  | markSettled callId => exact mark_settled_steps h
  | releaseEscrow callId recipient amount => exact release_escrow_steps h
  | setStartPrice callId price key signature =>
    obtain ⟨_, h⟩ := run_ignore.mp h
    exact set_start_price_steps h
  | cancelCall creator callId => exact cancel_call_steps h
  | voidCall callId => exact void_call_steps h
  | claimVoidRefund staker callId => exact claim_void_refund_steps rfl h
  | emergencyCancelCall caller callId => exact emergency_cancel_call_steps h
  | withdrawRefund staker callId => exact claim_void_refund_steps rfl h
  | claimExpiredRefund staker callId => exact claim_expired_refund_steps h
  | withdrawStake staker callId position =>
    obtain ⟨_, h⟩ := run_ignore.mp h
    exact withdraw_stake_steps h

/-- What an executed operation makes of the configuration. -/
def Operation.rewrite : Operation → ContractConfig → ContractConfig
  | .setFee newFee, c => { c with feeBps := newFee }
  | .setMinStake newMin, c => { c with minStake := newMin }
  | .setAdminThreshold threshold, c => { c with adminThreshold := threshold }
  | .pause, c => { c with paused := true }
  | .unpause, c => { c with paused := false }
  | .addAdmin admin, c =>
    if admin ∈ c.adminSet then c else { c with adminSet := c.adminSet ++ [admin] }
  | .removeAdmin admin, c => { c with adminSet := c.adminSet.filter (· ≠ admin) }
  | _, c => c

/-- Executing a proposal leaves the market and the profiles alone, marks the proposal executed,
changes of the other control records only the configuration, and moves tokens at most by one
transfer to the admin. -/
structure Executes (env : Env) (config : ContractConfig) (operation : Operation)
    (f f' : Frame Storage T Event) : Prop where
  market : f'.store.market = f.store.market
  profiles : f'.store.profiles = f.store.profiles
  counter : f'.store.control.proposalCounter = f.store.control.proposalCounter
  configured : f'.store.control =
    { f.store.control with
      config := some (operation.rewrite config), proposals := f'.store.control.proposals }
  effects : ∃ (events : List Event) (spent : List (Effect Event)),
    f'.effects = events.map .event ++ spent ++ f.effects ∧
    (spent = [] ∨ ∃ token amount, spent = [.transfer token env.contract config.admin amount]) ∧
    Replays env f.tokens (events.map .event ++ spent) f'.tokens

omit [Tokens T] in
theorem run_apply_config {events : List Event}
    (h : run (applyConfig config events) env f = .ok (u, f')) :
    f' = { f with
      store := f.store.setConfig config
      effects := events.reverse.map .event ++ f.effects } := by
  rwa [applyConfig, run_modifyStore_bind, run_publishAll] at h

theorem apply_config_executes {operation : Operation} {events : List Event}
    (h : run (applyConfig (operation.rewrite config) events) env f = .ok (u, f')) :
    Executes env config operation f f' ∧
      f'.store.control.proposals = f.store.control.proposals := by
  obtain rfl := run_apply_config h
  have hreplay : Replays env f.tokens (events.reverse.map .event ++ []) f.tokens :=
    Replays.nil.events events.reverse
  exact ⟨⟨rfl, rfl, rfl, rfl, events.reverse, [], by simp, .inl rfl, hreplay⟩, rfl⟩

/-- An operation that leaves the configuration as it is. -/
theorem Executes.unchanged {operation : Operation}
    (hconfig : f.store.control.config = some config) (hsame : operation.rewrite config = config) :
    Executes env config operation f f := by
  refine ⟨rfl, rfl, rfl, ?_, [], [], rfl, .inl rfl, .nil⟩
  rw [hsame, ← hconfig]

theorem perform_operation_executes {operation : Operation}
    (hconfig : f.store.control.config = some config)
    (h : run (performOperation config operation) env f = .ok (u, f')) :
    Executes env config operation f f' ∧
      f'.store.control.proposals = f.store.control.proposals := by
  cases operation with
  | setFee fee =>
    rw [performOperation, run_rejectIf_bind] at h
    exact apply_config_executes h.2
  | setMinStake min =>
    rw [performOperation, run_rejectIf_bind] at h
    exact apply_config_executes h.2
  | setAdminThreshold threshold => exact apply_config_executes h
  | pause => exact apply_config_executes h
  | unpause => exact apply_config_executes h
  | upgrade hash =>
    cases h
    exact ⟨.unchanged hconfig rfl, rfl⟩
  | withdrawFees token amount =>
    simp only [performOperation, run_steps, transfer_token_eq, run_tokenTransfer] at h
    obtain ⟨-, tokens, htransfer, rfl⟩ := h
    have hsame : Executes env config (.withdrawFees token amount) f f := .unchanged hconfig rfl
    exact ⟨⟨rfl, rfl, rfl, hsame.configured, [], _, rfl, .inr ⟨token, amount, rfl⟩,
      Replays.nil.transfer htransfer⟩, rfl⟩
  | addAdmin admin =>
    simp only [performOperation] at h
    split at h
    · next hmember =>
      cases h
      exact ⟨.unchanged hconfig (if_pos hmember), rfl⟩
    · next hnew =>
      rw [← show (Operation.addAdmin admin).rewrite config = _ from if_neg hnew] at h
      exact apply_config_executes h
  | removeAdmin admin => exact apply_config_executes h

/-- What a successful execution of a proposal checked, and the proposals it left. -/
theorem execute_admin_proposal_executes {caller : Address} {proposalId : Nat}
    (h : run (executeAdminProposal caller proposalId) env f = .ok (u, f')) :
    ∃ proposal config, f.store.control.proposals proposalId = some proposal ∧
      proposal.status = .active ∧ proposal.timelockUntil ≤ env.timestamp ∧
      f.store.control.config = some config ∧
      (config.adminSet ≠ [] → config.adminThreshold ≤ proposal.approvals.length) ∧
      (config.adminSet = [] → config.admin ∈ env.auths) ∧
      f'.store.control.proposals = Function.update f.store.control.proposals proposal.id
        (some { proposal with status := .executed }) ∧
      Executes env config proposal.operation f f' := by
  simp only [executeAdminProposal, run_steps, run_requireConfig_bind, Decidable.not_not] at h
  obtain ⟨proposal, hproposal, hactive, htimelock, config, hconfig, h⟩ := h
  rw [run_bind] at h
  obtain ⟨_, f₁, happrovals, h⟩ := h
  have hchecked : f₁ = f ∧ (config.adminSet ≠ [] →
      config.adminThreshold ≤ proposal.approvals.length) ∧
      (config.adminSet = [] → config.admin ∈ env.auths) := by
    unfold checkApprovals at happrovals
    split at happrovals
    · next hset =>
      rw [run_rejectIf] at happrovals
      exact ⟨happrovals.2, fun _ => by omega, fun hempty => absurd hempty hset⟩
    · next hset =>
      rw [run_requireAuth] at happrovals
      exact ⟨happrovals.2, fun hne => absurd hne hset, fun _ => happrovals.1⟩
  obtain ⟨rfl, hthreshold, hadmin⟩ := hchecked
  rw [run_bind] at h
  obtain ⟨_, f₂, hperform, h⟩ := h
  obtain ⟨⟨hmarket, hprofiles, hcounter, hconfigured, events, spent, heffects, hspent, hreplay⟩,
    hproposals⟩ := perform_operation_executes hconfig hperform
  rw [run_modifyStore_bind, run_publish] at h
  subst h
  refine ⟨proposal, config, hproposal, hactive, by omega, hconfig, hthreshold, hadmin, ?_, hmarket,
    hprofiles, hcounter, ?_, .proposalExecuted proposalId caller :: events, spent, ?_, hspent,
    hreplay.event⟩
  · simp only [Frame.record_store, Storage.setProposal, hproposals]
  · simp only [Frame.record_store, Storage.setProposal]
    rw [hconfigured]
  · simp [heffects]

end Tokens

end Backit.CallRegistry
