import Backit.DutchAuction.Auctions

/-!
# The price of an auction along a run

The clock of a run moves with its invocations, asking for a price among them. The price moves in one
direction, and price and reward are computed without overflow, in the runs in which no update
lengthens the duration after an auction has begun to move, and in which the start prices and the
parameters fit each other.
-/

namespace Backit.DutchAuction

open Soroban Contract Lib

/-- Price and reward of an auction are in range from a time on. -/
def Bounded (config : DutchAuctionConfig) (info : AuctionInfo) (now : Nat) : Prop :=
  info.PriceFits config.auctionDurationSecs (now - info.startTs) ∧
    (info.settled = false →
      info.RewardFits config.auctionDurationSecs config.settlerRewardBps (now - info.startTs))

instance (config : DutchAuctionConfig) (info : AuctionInfo) (now : Nat) :
    Decidable (Bounded config info now) :=
  inferInstanceAs (Decidable (_ ∧ _))

/-- An auction starts with a price that the parameters fit, and an update fits the auctions that
have been started and lengthens the duration only while none of them has moved. -/
def Storage.Steady (s : Storage) (now : Nat) : AuctionOp → Prop
  | .startDutchAuction callId startPrice conditionType =>
    ∀ config ∈ s.config, Bounded config ⟨callId, conditionType, startPrice, now, false⟩ now
  | .updateParams duration deadline bps =>
    ∀ config ∈ s.config, ∀ callId, ∀ info ∈ s.getAuctionInfo callId,
      Bounded ⟨config.admin, config.outcomeManager, duration, deadline, bps⟩ info now ∧
        (config.auctionDurationSecs < duration → now ≤ info.startTs)
  | _ => True

section Steps

variable {P : Type} {env : Env} {f f' : Frame Storage P Event}

/-- `AuctionStep env f op f'` says what a successful invocation does. -/
inductive AuctionStep (env : Env) (f : Frame Storage P Event) :
    AuctionOp → Frame Storage P Event → Prop where
  | configured {admin outcomeManager duration deadline bps} : f.store.config = none → 0 < duration →
      AuctionStep env f (.initializeAuction admin outcomeManager duration deadline bps)
        { f with store := f.store.setConfig ⟨admin, outcomeManager, duration, deadline, bps⟩ }
  | started {callId startPrice conditionType config} :
      f.store.config = some config → conditionType = 1 ∨ conditionType = 2 → 0 < startPrice →
      f.store.getAuctionInfo callId = none →
      AuctionStep env f (.startDutchAuction callId startPrice conditionType)
        ⟨f.store.setAuctionInfo callId ⟨callId, conditionType, startPrice, env.timestamp, false⟩,
          f.tokens, .event (.started callId startPrice conditionType env.timestamp) :: f.effects⟩
  | settled {caller callId info price reward} :
      caller ∈ env.auths → f.store.getAuctionInfo callId = some info → info.settled = false →
      AuctionStep env f (.settleDutchAuction caller callId)
        ⟨f.store.setAuctionInfo callId { info with settled := true }, f.tokens,
          .event (.settled callId price caller reward) :: f.effects⟩
  | quoted {callId} : AuctionStep env f (.getDutchAuctionPrice callId) f
  | updated {duration deadline bps config} :
      f.store.config = some config → config.admin ∈ env.auths → 0 < duration →
      AuctionStep env f (.updateParams duration deadline bps)
        ⟨f.store.setConfig ⟨config.admin, config.outcomeManager, duration, deadline, bps⟩,
          f.tokens, .event (.paramsChanged duration deadline bps) :: f.effects⟩

theorem run_requireConfig_bind {α : Type} {k : DutchAuctionConfig → Auction P α} {a : α} :
    run (requireConfig >>= k) env f = .ok (a, f') ↔
      ∃ config, f.store.config = some config ∧ run (k config) env f = .ok (a, f') := by
  simp only [requireConfig, Contract.bind_assoc, run_steps]

theorem run_requireParams_bind {α : Type} {duration bps : Nat} {k : Unit → Auction P α} {a : α}
    (h : run (requireParams duration bps >>= k) env f = .ok (a, f')) :
    0 < duration ∧ run (k ()) env f = .ok (a, f') := by
  simp only [requireParams, Contract.bind_assoc, run_rejectIf_bind] at h
  exact ⟨by omega, h.2.2⟩

theorem fail_reads {α : Type} (e : Failure DutchAuctionError) :
    ReadOnly (fail e : Auction P α) := by
  intro _ _ _ _ h
  cases h

theorem price_after_reads (info : AuctionInfo) (duration elapsed : Nat) :
    ReadOnly (priceAfter info duration elapsed : Auction P Int) := by
  unfold priceAfter endPrice runningPrice
  refine .ite (.ite (.pure _) (.ite (.unwrap _ _) (fail_reads _)))
    (.ite ?_ (.ite ?_ (fail_reads _)))
  · exact .bind (.unwrap _ _) fun _ => .bind (.unwrap _ _) fun _ => .bind (.unwrap _ _) fun _ =>
    .pure _
  · exact .bind (.unwrap _ _) fun _ => .bind (.unwrap _ _) fun _ => .bind (.unwrap _ _) fun _ =>
    .bind (.unwrap _ _) fun _ => .pure _

theorem get_dutch_auction_price_frame {callId : Nat} {price : Int}
    (h : run (getDutchAuctionPrice callId : Auction P Int) env f = .ok (price, f')) : f' = f := by
  simp only [getDutchAuctionPrice, run_requireConfig_bind, run_steps] at h
  obtain ⟨_, -, _, -, h⟩ := h
  exact price_after_reads _ _ _ _ _ _ _ h

/-- Settling an auction pays its price when the reward is in range. -/
theorem settle_pays {caller : Address} {callId : Nat} {config : DutchAuctionConfig}
    {info : AuctionInfo} {price : Int} (hauth : caller ∈ env.auths)
    (hconfig : f.store.config = some config) (hinfo : f.store.getAuctionInfo callId = some info)
    (hopen : info.settled = false)
    (hprice : run (getDutchAuctionPrice callId : Auction P Int) env f = .ok (price, f))
    (hproduct : InI128 (price * config.settlerRewardBps)) : ∃ f',
      run (settleDutchAuction caller callId : Auction P Int) env f = .ok (price, f') := by
  refine ⟨⟨f.store.setAuctionInfo callId { info with settled := true }, f.tokens,
    .event (.settled callId price caller (Int.tdiv (price * config.settlerRewardBps) 10000)) ::
      f.effects⟩, ?_⟩
  simp only [settleDutchAuction, run_requireAuth_bind, run_requireConfig_bind,
    run_getStore_bind, run_unwrap_bind, run_rejectIf_bind]
  refine ⟨hauth, config, hconfig, info, hinfo, by simp [hopen], ?_⟩
  rw [run_bind]
  refine ⟨price, f, hprice, ?_⟩
  simp only [run_i128_bind, run_modifyStore_bind, run_publish_bind, run_pure]
  exact ⟨hproduct, rfl⟩

/-- Every successful invocation is one of the listed steps. -/
theorem AuctionOp.steps {op : AuctionOp}
    (h : run (op.perform : Auction P Unit) env f = .ok ((), f')) : AuctionStep env f op f' := by
  cases op with
  | initializeAuction admin outcomeManager duration deadline bps =>
    simp only [AuctionOp.perform, DutchAuction.initializeAuction, run_steps] at h
    obtain ⟨hnone, h⟩ := h
    obtain ⟨hduration, h⟩ := run_requireParams_bind h
    rw [run_modifyStore] at h
    rw [h]
    exact .configured (by simpa using hnone) hduration
  | startDutchAuction callId startPrice conditionType =>
    simp only [AuctionOp.perform, DutchAuction.startDutchAuction, run_requireConfig_bind,
      run_steps] at h
    obtain ⟨config, hconfig, htype, hprice, hfresh, rfl⟩ := h
    exact .started hconfig (by omega) (by omega) (by simpa using hfresh)
  | settleDutchAuction caller callId =>
    obtain ⟨price, hrun⟩ := run_ignore.mp h
    simp only [DutchAuction.settleDutchAuction, run_steps, run_requireConfig_bind] at hrun
    obtain ⟨hauth, config, -, info, hinfo, hopen, hrun⟩ := hrun
    rw [run_bind] at hrun
    obtain ⟨_, _, hquote, hrun⟩ := hrun
    obtain rfl := get_dutch_auction_price_frame hquote
    simp only [run_steps] at hrun
    obtain ⟨-, -, rfl⟩ := hrun
    exact .settled hauth hinfo (by simpa using hopen)
  | getDutchAuctionPrice callId =>
    obtain ⟨price, h⟩ := run_ignore.mp h
    rw [get_dutch_auction_price_frame h]
    exact .quoted
  | updateParams duration deadline bps =>
    simp only [AuctionOp.perform, DutchAuction.updateParams, run_requireConfig_bind,
      run_requireAuth_bind] at h
    obtain ⟨config, hconfig, hauth, h⟩ := h
    obtain ⟨hduration, h⟩ := run_requireParams_bind h
    simp only [run_steps] at h
    rw [h]
    exact .updated hconfig hauth hduration

end Steps

/-- The auctions have accepted arguments, and their prices and rewards are in range from a time
on. -/
structure Sound (s : Storage) (now : Nat) : Prop where
  accepted : ∀ callId info, s.getAuctionInfo callId = some info → info.Accepted
  configured : ∀ callId info, s.getAuctionInfo callId = some info → s.config ≠ none
  duration : ∀ config, s.config = some config → 0 < config.auctionDurationSecs
  bounded : ∀ config callId info, s.config = some config →
    s.getAuctionInfo callId = some info → Bounded config info now

section Moves

variable {s : Storage} {callId j : Nat} {info : AuctionInfo} {now later : Nat}
  {config : DutchAuctionConfig}

theorem Storage.getAuctionInfo_setAuctionInfo (s : Storage) (callId j : Nat) (info : AuctionInfo) :
    (s.setAuctionInfo callId info).getAuctionInfo j =
      if j = callId then some info else s.getAuctionInfo j := by
  show (s.auctionInfo.insert callId info).lookup j = _
  split
  · next hj =>
    subst hj
    exact AList.lookup_insert _
  · next hj => exact AList.lookup_insert_ne hj

theorem Bounded.mono (h : Bounded config info now) (haccepted : info.Accepted)
    (hduration : 0 < config.auctionDurationSecs) (hle : now ≤ later) :
    Bounded config info later :=
  ⟨haccepted.price_fits_mono (by omega) h.1,
    fun hopen => haccepted.reward_fits_mono hduration (by omega) (h.2 hopen)⟩

theorem Sound.at_later (h : Sound s now) (hle : now ≤ later) : Sound s later :=
  ⟨h.accepted, h.configured, h.duration, fun config callId info hconfig hinfo =>
    (h.bounded config callId info hconfig hinfo).mono (h.accepted callId info hinfo)
      (h.duration config hconfig) hle⟩

/-- An auction is written with accepted arguments that the parameters fit. -/
theorem Sound.setAuctionInfo (h : Sound s now) (hconfig : s.config = some config)
    (haccepted : info.Accepted) (hbounded : Bounded config info now) :
    Sound (s.setAuctionInfo callId info) now where
  accepted j stored hj := by
    rw [Storage.getAuctionInfo_setAuctionInfo] at hj
    split at hj
    · cases hj
      exact haccepted
    · exact h.accepted j stored hj
  configured j stored _ := by
    show s.config ≠ none
    rw [hconfig]
    exact Option.some_ne_none _
  duration := h.duration
  bounded config' j stored hconfig' hj := by
    replace hconfig' : s.config = some config' := hconfig'
    rw [Storage.getAuctionInfo_setAuctionInfo] at hj
    split at hj
    · cases hj
      rw [hconfig, Option.some.injEq] at hconfig'
      exact hconfig' ▸ hbounded
    · exact h.bounded config' j stored hconfig' hj

variable {P : Type} {env : Env} {f f' : Frame Storage P Event} {op : AuctionOp}

theorem Sound.step (h : Sound f.store now) (hle : now ≤ env.timestamp)
    (hsteady : f.store.Steady env.timestamp op) (hstep : AuctionStep env f op f') :
    Sound f'.store env.timestamp := by
  have hnow := h.at_later hle
  cases hstep with
  | configured hnone hduration =>
    have hnothing : ∀ callId info, f.store.getAuctionInfo callId ≠ some info :=
      fun callId info hinfo => h.configured callId info hinfo hnone
    refine ⟨fun j stored hj => absurd hj (hnothing j stored),
      fun j stored hj => absurd hj (hnothing j stored), ?_,
      fun _ j stored _ hj => absurd hj (hnothing j stored)⟩
    rintro config ⟨⟩
    exact hduration
  | started hconfig htype hprice _ =>
    exact hnow.setAuctionInfo hconfig ⟨htype, hprice⟩ (hsteady _ hconfig)
  | @settled caller callId info price reward _ hinfo _ =>
    obtain ⟨config, hconfig⟩ := Option.ne_none_iff_exists'.mp (h.configured callId info hinfo)
    have haccepted := h.accepted callId info hinfo
    refine hnow.setAuctionInfo hconfig ⟨haccepted.conditionType, haccepted.startPrice⟩
      ⟨(hnow.bounded config callId info hconfig hinfo).1, ?_⟩
    intro hopen
    cases hopen
  | quoted => exact hnow
  | @updated duration deadline bps config hconfig _ hduration =>
    refine ⟨h.accepted, fun _ _ _ => Option.some_ne_none _, ?_, ?_⟩
    · rintro config' ⟨⟩
      exact hduration
    · rintro config' j stored ⟨⟩ hj
      exact (hsteady config hconfig j stored hj).1

/-- The price of an auction has moved in its direction. -/
def AuctionInfo.Moved (info : AuctionInfo) (price price' : Int) : Prop :=
  (info.conditionType = 1 → price' ≤ price) ∧ (info.conditionType = 2 → price ≤ price')

/-- Time moves the price, and so does a shorter duration. -/
theorem AuctionInfo.Accepted.quote_moved (h : info.Accepted) {d d' e e' : Nat} (hd : 0 < d)
    (hd' : 0 < d') (hle : e ≤ e') (hshorter : d < d' → e' = 0) :
    info.Moved (info.quote d e) (info.quote d' e') := by
  have hs := h.startPrice
  unfold Moved quote
  by_cases hlonger : d < d'
  · obtain rfl := hshorter hlonger
    obtain rfl : e = 0 := by omega
    refine ⟨fun htype => ?_, fun htype => ?_⟩
    · rw [if_pos htype, if_pos htype, Nat.cast_zero, falling_zero (by omega),
        falling_zero (by omega)]
    · rw [if_neg (by omega), if_neg (by omega), Nat.cast_zero, rising_zero (by omega),
        rising_zero (by omega)]
  · refine ⟨fun htype => ?_, fun htype => ?_⟩
    · rw [if_pos htype, if_pos htype]
      exact falling_antitone hs (by omega) (by omega) (by omega) (by omega)
    · rw [if_neg (by omega), if_neg (by omega)]
      exact rising_monotone hs (by omega) (by omega) (by omega) (by omega)

theorem AuctionInfo.Moved.trans {p₁ p₂ p₃ : Int} (h₁ : info.Moved p₁ p₂) (h₂ : info.Moved p₂ p₃) :
    info.Moved p₁ p₃ :=
  ⟨fun htype => (h₂.1 htype).trans (h₁.1 htype), fun htype => (h₁.2 htype).trans (h₂.2 htype)⟩

/-- Two records of one auction. -/
structure AuctionInfo.Same (info info' : AuctionInfo) : Prop where
  conditionType : info'.conditionType = info.conditionType
  startPrice : info'.startPrice = info.startPrice
  startTs : info'.startTs = info.startTs

theorem AuctionInfo.Same.trans {info' info'' : AuctionInfo} (h : info.Same info')
    (h' : info'.Same info'') : info.Same info'' :=
  ⟨h'.conditionType.trans h.conditionType, h'.startPrice.trans h.startPrice,
    h'.startTs.trans h.startTs⟩

/-- The quote of an auction at a time, with the parameters in force. -/
def QuotedAt (s : Storage) (now callId : Nat) (info : AuctionInfo) (price : Int) : Prop :=
  s.getAuctionInfo callId = some info ∧ ∃ config, s.config = some config ∧
    price = info.quote config.auctionDurationSecs (now - info.startTs)

theorem AuctionStep.quote_moves (hstep : AuctionStep env f op f') (h : Sound f.store now)
    (hle : now ≤ env.timestamp) (hsteady : f.store.Steady env.timestamp op) {price : Int}
    (hquoted : QuotedAt f.store now callId info price) :
    ∃ info' price', QuotedAt f'.store env.timestamp callId info' price' ∧ info.Same info' ∧
      info.Moved price price' := by
  obtain ⟨hinfo, config, hconfig, rfl⟩ := hquoted
  have haccepted := h.accepted callId info hinfo
  have hduration := h.duration config hconfig
  have hpasses : info.Moved (info.quote config.auctionDurationSecs (now - info.startTs))
      (info.quote config.auctionDurationSecs (env.timestamp - info.startTs)) :=
    haccepted.quote_moved hduration hduration (by omega) (by omega)
  cases hstep with
  | configured hnone => exact absurd hnone (h.configured callId info hinfo)
  | @started j _ _ _ _ _ _ hfresh =>
    have hother : callId ≠ j := by
      rintro rfl
      rw [hfresh] at hinfo
      cases hinfo
    refine ⟨info, _, ⟨?_, config, hconfig, rfl⟩, ⟨rfl, rfl, rfl⟩, hpasses⟩
    rw [Storage.getAuctionInfo_setAuctionInfo, if_neg hother]
    exact hinfo
  | @settled caller j settledInfo price reward _ hsettled _ =>
    by_cases hj : callId = j
    · subst hj
      rw [hinfo, Option.some.injEq] at hsettled
      subst hsettled
      refine ⟨{ info with settled := true }, _, ⟨?_, config, hconfig, rfl⟩, ⟨rfl, rfl, rfl⟩,
        hpasses⟩
      rw [Storage.getAuctionInfo_setAuctionInfo, if_pos rfl]
    · refine ⟨info, _, ⟨?_, config, hconfig, rfl⟩, ⟨rfl, rfl, rfl⟩, hpasses⟩
      rw [Storage.getAuctionInfo_setAuctionInfo, if_neg hj]
      exact hinfo
  | quoted => exact ⟨info, _, ⟨hinfo, config, hconfig, rfl⟩, ⟨rfl, rfl, rfl⟩, hpasses⟩
  | @updated duration deadline bps config' hconfig' _ hpositive =>
    rw [hconfig, Option.some.injEq] at hconfig'
    subst hconfig'
    refine ⟨info, _, ⟨hinfo, _, rfl, rfl⟩, ⟨rfl, rfl, rfl⟩, ?_⟩
    refine haccepted.quote_moved hduration hpositive (by omega) fun hlonger => ?_
    have hstarts := (hsteady config hconfig callId info hinfo).2 hlonger
    omega

end Moves

section Run

variable {P : Type} {self : Address} {outside : P → P → Prop}

/-- The executions of the auction contract. -/
def dutchAuction (self : Address) (outside : P → P → Prop) :
    System (Deployment Storage P) (Happening AuctionOp Event) :=
  contractSystem AuctionOp.perform self outside fun d => d.store = Storage.empty

/-- The guard of the steady runs. -/
def steadyAuctions : System.Guard (Deployment Storage P) (Happening AuctionOp Event) :=
  fun _ d l => ∀ i, l.invocation = some i → d.store.Steady i.env.timestamp i.op

/-- The price of an auction at the time of a state: it is computed, lies between zero and twice the
start price, and whoever settles the auction gets it. -/
structure Priced (d : Deployment Storage P) (callId : Nat) (info : AuctionInfo) (price : Int) :
    Prop where
  stored : d.store.getAuctionInfo callId = some info
  computed : ∀ env, env.timestamp = d.timestamp →
    run (getDutchAuctionPrice callId : Auction P Int) env d.frame = .ok (price, d.frame)
  nonneg : 0 ≤ price
  within : price ≤ 2 * info.startPrice
  settles : info.settled = false → ∀ env caller, env.timestamp = d.timestamp →
    caller ∈ env.auths → ∃ f',
      run (settleDutchAuction caller callId : Auction P Int) env d.frame = .ok (price, f')

/-- Every auction started has a price, now and at every later state of the run, and the price moves
in the auction's direction. -/
def PricedThroughout (self : Address) (outside : P → P → Prop)
    (guard : System.Guard (Deployment Storage P) (Happening AuctionOp Event))
    (history : List (Happening AuctionOp Event)) (d : Deployment Storage P) : Prop :=
  ∀ callId info, d.store.getAuctionInfo callId = some info → ∃ price, Priced d callId info price ∧
    ∀ later d', System.Path (dutchAuction self outside) guard history d later d' →
      ∃ info' price', Priced d' callId info' price' ∧ info.Same info' ∧ info.Moved price price'

variable {history : List (Happening AuctionOp Event)} {d : Deployment Storage P}

theorem sound_of_run (run : (dutchAuction self outside).RunWhere steadyAuctions history d) :
    Sound d.store d.timestamp := by
  refine contract_invariant (I := fun _ d => Sound d.store d.timestamp) ?_ ?_ ?_ run
  · intro d hd
    rw [show d.store = Storage.empty from hd]
    refine ⟨fun _ _ h => ?_, fun _ _ h => ?_, fun _ h => ?_, fun _ _ _ h => ?_⟩ <;> cases h
  · intro h d env op f _ ih hadmissible hrun hguard
    exact ih.step hadmissible.timestamp (hguard _ rfl) (AuctionOp.steps hrun)
  · exact fun _ _ _ _ ih _ => ih

theorem priced_of_quoted (h : Sound d.store d.timestamp) {callId : Nat} {info : AuctionInfo}
    {price : Int} (hquoted : QuotedAt d.store d.timestamp callId info price) :
    Priced d callId info price := by
  obtain ⟨hinfo, config, hconfig, rfl⟩ := hquoted
  have haccepted := h.accepted callId info hinfo
  have hduration := h.duration config hconfig
  obtain ⟨hprice, hreward⟩ := h.bounded config callId info hconfig hinfo
  have hnonneg : 0 ≤ info.quote config.auctionDurationSecs (d.timestamp - info.startTs) :=
    haccepted.quote_nonneg hduration
  have hcomputed : ∀ env, env.timestamp = d.timestamp →
      run (getDutchAuctionPrice callId : Auction P Int) env d.frame =
        .ok (info.quote config.auctionDurationSecs (d.timestamp - info.startTs), d.frame) := by
    intro env htime
    have hrun : run (priceAfter info config.auctionDurationSecs (d.timestamp - info.startTs) :
        Auction P Int) env d.frame = _ := haccepted.run_priceAfter hduration hprice
    rw [← htime] at hrun
    simp only [getDutchAuctionPrice, run_requireConfig_bind, run_steps]
    exact ⟨config, hconfig, info, hinfo, hrun.trans (by rw [htime])⟩
  refine ⟨hinfo, hcomputed, hnonneg, ?_, fun hopen env caller htime hauth => ?_⟩
  · have : info.quote config.auctionDurationSecs (d.timestamp - info.startTs) ≤ _ :=
      haccepted.quote_le hduration
    omega
  · have hfits := (haccepted.reward_fits_iff hduration).mp (hreward hopen) _ le_rfl
    have hproduct : InI128 (info.quote config.auctionDurationSecs (d.timestamp - info.startTs) *
        config.settlerRewardBps) :=
      ⟨le_trans (by decide) (mul_nonneg hnonneg (Int.natCast_nonneg _)), hfits⟩
    exact settle_pays hauth hconfig hinfo hopen (hcomputed env htime) hproduct

/-- A quote moves in its direction along a path of a steady run. -/
theorem quote_moves_along {later : List (Happening AuctionOp Event)} {d' : Deployment Storage P}
    (run : (dutchAuction self outside).RunWhere steadyAuctions history d)
    (path : System.Path (dutchAuction self outside) steadyAuctions history d later d')
    {callId : Nat} {info : AuctionInfo} {price : Int}
    (hquoted : QuotedAt d.store d.timestamp callId info price) :
    ∃ info' price', QuotedAt d'.store d'.timestamp callId info' price' ∧ info.Same info' ∧
      info.Moved price price' := by
  refine path.stable (P := fun _ d' => ∃ info' price',
    QuotedAt d'.store d'.timestamp callId info' price' ∧ info.Same info' ∧
      info.Moved price price') run ?_
    ⟨info, price, hquoted, ⟨rfl, rfl, rfl⟩, fun _ => le_rfl, fun _ => le_rfl⟩
  rintro h s l s' hrun ⟨info', price', hnow, hsame, hmoved⟩ hstep hguard
  cases hstep with
  | invoked hadmissible hinvoke =>
    obtain ⟨info'', price'', hnext, hsame', hmoved'⟩ :=
      (AuctionOp.steps hinvoke).quote_moves (sound_of_run hrun) hadmissible.timestamp
        (hguard _ rfl) hnow
    refine ⟨info'', price'', hnext, hsame.trans hsame', hmoved.trans ?_⟩
    unfold AuctionInfo.Moved at hmoved' ⊢
    rwa [hsame.conditionType] at hmoved'
  | elsewhere => exact ⟨info', price', hnow, hsame, hmoved⟩

/-- In every steady run the price of every auction can be computed and settled at all times, lies
between zero and twice the start price, and moves in the direction of the auction. -/
theorem prices_throughout
    (run : (dutchAuction self outside).RunWhere steadyAuctions history d) :
    PricedThroughout self outside steadyAuctions history d := by
  intro callId info hinfo
  have hsound := sound_of_run run
  obtain ⟨config, hconfig⟩ := Option.ne_none_iff_exists'.mp (hsound.configured callId info hinfo)
  have hquoted : QuotedAt d.store d.timestamp callId info
      (info.quote config.auctionDurationSecs (d.timestamp - info.startTs)) :=
    ⟨hinfo, config, hconfig, rfl⟩
  refine ⟨_, priced_of_quoted hsound hquoted, fun later d' path => ?_⟩
  obtain ⟨info', price', hnow, hsame, hmoved⟩ := quote_moves_along run path hquoted
  exact ⟨info', price', priced_of_quoted (sound_of_run (run.trans path)) hnow, hsame, hmoved⟩

end Run

def home : Address := ⟨930⟩

def admin : Address := ⟨1⟩

def outcomeManager : Address := ⟨2⟩

/-- An invocation of the auction contract at a time, authorised by the administrator. -/
def at_ (timestamp : Nat) (op : AuctionOp) : Env × AuctionOp :=
  (⟨home, timestamp, timestamp, [admin]⟩, op)

def freshAuctions : Deployment Storage Unit := ⟨Storage.empty, (), 0, 0⟩

/-- Nothing happens elsewhere. -/
abbrev closed : System (Deployment Storage Unit) (Happening AuctionOp Event) :=
  dutchAuction home fun _ _ => False

theorem fresh_auctions_initial : closed.initial freshAuctions := rfl

/-- Auctions last 100 seconds, and one that falls from 2000 has lasted half of that. -/
def halfway : List (Env × AuctionOp) :=
  [at_ 1 (.initializeAuction admin outcomeManager 100 86400 100),
    at_ 10 (.startDutchAuction 1 1000 1), at_ 60 (.getDutchAuctionPrice 1)]

instance (s : Storage) (now : Nat) (op : AuctionOp) : Decidable (s.Steady now op) :=
  match op with
  | .startDutchAuction callId startPrice conditionType =>
    inferInstanceAs (Decidable (∀ config ∈ s.config,
      Bounded config ⟨callId, conditionType, startPrice, now, false⟩ now))
  | .updateParams duration deadline bps =>
    decidable_of_iff (∀ config ∈ s.config, ∀ entry ∈ s.auctionInfo.entries,
      Bounded ⟨config.admin, config.outcomeManager, duration, deadline, bps⟩ entry.2 now ∧
        (config.auctionDurationSecs < duration → now ≤ entry.2.startTs)) (by
      refine forall₂_congr fun config _ =>
        ⟨fun h callId info hinfo => ?_, fun h entry hentry => ?_⟩
      · exact h ⟨callId, info⟩ (AList.mem_lookup_iff.mp hinfo)
      · exact h entry.1 entry.2 (AList.mem_lookup_iff.mpr hentry))
  | .initializeAuction .. => .isTrue trivial
  | .settleDutchAuction .. => .isTrue trivial
  | .getDutchAuctionPrice .. => .isTrue trivial

/-- Allows the steady invocations. -/
def staysSteady : List (Happening AuctionOp Event) → Deployment Storage Unit →
    Happening AuctionOp Event → Bool
  | _, d, .invoked i => decide (d.store.Steady i.env.timestamp i.op)
  | _, _, .elsewhere => true

theorem stays_steady_allowed (h : List (Happening AuctionOp Event)) (d : Deployment Storage Unit)
    (l : Happening AuctionOp Event) (hallowed : staysSteady h d l = true) :
    steadyAuctions h d l := by
  intro i hi
  cases l with
  | invoked j =>
    cases hi
    exact of_decide_eq_true hallowed
  | elsewhere => cases hi

/-- The administrator shortens the duration. -/
def shortenedRun : System.Replayed closed (Deployment.next AuctionOp.perform home) staysSteady :=
  .of freshAuctions fresh_auctions_initial (halfway ++ [at_ 60 (.updateParams 80 86400 100)])
    (by decide +kernel)

def halfwayRun : System.Replayed closed (Deployment.next AuctionOp.perform home) System.anything :=
  .of freshAuctions fresh_auctions_initial halfway (by decide +kernel)

/-- An auction is started at the highest price. -/
def overpricedRun :
    System.Replayed closed (Deployment.next AuctionOp.perform home) System.anything :=
  .of freshAuctions fresh_auctions_initial
    [at_ 1 (.initializeAuction admin outcomeManager 100 86400 100),
      at_ 10 (.startDutchAuction 1 i128Max 1)] (by decide +kernel)

theorem prices_throughout_shortened :
    PricedThroughout home (fun _ (_ : Unit) => False) steadyAuctions shortenedRun.history
      shortenedRun.state :=
  prices_throughout (shortenedRun.run Deployment.next_step stays_steady_allowed)

/-- The administrator makes the auction ten times as long, and its price rises. -/
def lengthening : List (Env × AuctionOp) :=
  [at_ 60 (.updateParams 1000 86400 100), at_ 70 (.getDutchAuctionPrice 1)]

/-- What the lengthening leads to. -/
def lengthened : Option (List (Happening AuctionOp Event) × Deployment Storage Unit) :=
  System.replay (Deployment.next AuctionOp.perform home) System.anything lengthening
    (halfwayRun.history, halfwayRun.state)

/-- The price that a state returns for auction 1 at its time. -/
def priceOf (d : Deployment Storage Unit) : Option Int :=
  (run (getDutchAuctionPrice 1 : Auction Unit Int) (at_ d.timestamp (.getDutchAuctionPrice 1)).1
    d.frame).toOption.map Prod.fst

theorem priceOf_priced {d : Deployment Storage Unit} {info : AuctionInfo} {price : Int}
    (h : Priced d 1 info price) : priceOf d = some price := by
  rw [priceOf, h.computed _ rfl]
  rfl

/-- A falling price of 1000 becomes 1880 when the duration is lengthened, and the price of an
auction that starts at the highest price cannot be computed. -/
theorem price_moved_back : closed.Run halfwayRun.history halfwayRun.state ∧
      priceOf halfwayRun.state = some 1000 ∧ lengthened.map (priceOf ·.2) = some (some 1880) ∧
      ¬ PricedThroughout home (fun _ (_ : Unit) => False) System.anyStep halfwayRun.history
        halfwayRun.state ∧
      closed.Run overpricedRun.history overpricedRun.state ∧
      ¬ PricedThroughout home (fun _ (_ : Unit) => False) System.anyStep overpricedRun.history
        overpricedRun.state := by
  have hprice : priceOf halfwayRun.state = some 1000 := by decide +kernel
  have hlater : lengthened.map (priceOf ·.2) = some (some 1880) := by decide +kernel
  have hinfo : halfwayRun.state.store.getAuctionInfo 1 = some ⟨1, 1, 1000, 10, false⟩ := by
    decide +kernel
  have hoverpriced : overpricedRun.state.store.getAuctionInfo 1 =
      some ⟨1, 1, i128Max, 10, false⟩ := by decide +kernel
  have hnone : priceOf overpricedRun.state = none := by decide +kernel
  refine ⟨halfwayRun.run Deployment.next_step System.anything_allowed, hprice, hlater,
    fun hpriced => ?_, overpricedRun.run Deployment.next_step System.anything_allowed,
    fun hpriced => ?_⟩
  · obtain ⟨price, hnow, hmoves⟩ := hpriced 1 _ hinfo
    obtain ⟨⟨later, d'⟩, hreached, hlast⟩ := Option.map_eq_some_iff.mp hlater
    have path : System.Path closed System.anyStep halfwayRun.history halfwayRun.state later d' :=
      System.replay_path Deployment.next_step System.anything_allowed hreached
    obtain ⟨info', price', hthen, -, hmoved⟩ := hmoves later d' path
    have hbefore := (priceOf_priced hnow).symm.trans hprice
    have hafter := (priceOf_priced hthen).symm.trans hlast
    cases hbefore
    cases hafter
    have hfalls := hmoved.1 rfl
    omega
  · obtain ⟨price, hnow, -⟩ := hpriced 1 _ hoverpriced
    have hsome := (priceOf_priced hnow).symm.trans hnone
    cases hsome

end Backit.DutchAuction
