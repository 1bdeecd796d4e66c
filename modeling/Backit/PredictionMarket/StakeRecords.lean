import Backit.PredictionMarket.OrderAccounts
import Backit.PredictionMarket.Rollover

/-!
# Stakes and reserves

## The stakes that a market records

In every run of a market, releases and rollovers included, the pool of an outcome is the sum of the
stakes recorded on it, and only the outcomes of the call have pools.
-/

namespace Backit.PredictionMarket

open Soroban Contract Lib

/-- The pools of a call are the sums of the stakes on its positions, none of which is negative. -/
structure Call.Pooled (call : Call) : Prop where
  listed : ∀ position, position ∉ call.positions → valueAt call.outcomeStakes position = 0
  backed : ∀ position, total (call.stakesOn position) = valueAt call.outcomeStakes position
  nonneg : ∀ position who, 0 ≤ valueAt (call.stakesOn position) who

/-- The call's pools are the sums of its stakes, and every open order is for one of its positions. -/
structure Recorded (s : Storage) : Prop where
  undeployed : s.config = none → s.pool.call = none ∧ s.book.limitOrders = ∅
  pooled : ∀ call, s.pool.call = some call → call.Pooled
  orders : ∀ call, s.pool.call = some call → ∀ id order,
    s.book.limitOrders.lookup id = some order → 0 < order.amount ∧ order.outcome ∈ call.positions

namespace Call

variable {call call' : Call}

theorem mem_positions {position : Nat} :
    position ∈ call.positions ↔ 1 ≤ position ∧ position ≤ call.outcomeCount := by
  unfold positions
  rw [List.mem_map]
  constructor
  · rintro ⟨i, hi, rfl⟩
    rw [List.mem_range] at hi
    omega
  · rintro ⟨hfirst, hlast⟩
    exact ⟨position - 1, List.mem_range.mpr (by omega), by omega⟩

theorem positions_nodup (call : Call) : call.positions.Nodup := by
  unfold positions
  exact List.Nodup.map (fun i j h => Nat.succ.inj h) List.nodup_range

theorem Pooled.stakes_nonneg (h : call.Pooled) (position : Nat) :
    0 ≤ valueAt call.outcomeStakes position := by
  rw [← h.backed]
  exact total_nonneg _ (h.nonneg position)

theorem Pooled.sum_positions (h : call.Pooled) :
    (call.positions.map (valueAt call.outcomeStakes)).sum = total call.outcomeStakes :=
  sum_valueAt_eq_total _ call.positions_nodup _ h.listed

theorem Pooled.of_same (h : call.Pooled) (hcount : call'.outcomeCount = call.outcomeCount)
    (hpools : call'.outcomeStakes = call.outcomeStakes) (hstakes : call'.stakes = call.stakes) :
    call'.Pooled := by
  have hpositions : call'.positions = call.positions := by rw [positions, positions, hcount]
  have hon : ∀ position, call'.stakesOn position = call.stakesOn position := by
    intro position
    rw [stakesOn, stakesOn, hstakes]
  refine ⟨?_, fun position => ?_, fun position who => ?_⟩
  · rw [hpositions, hpools]
    exact h.listed
  · rw [hon, hpools]
    exact h.backed position
  · rw [hon]
    exact h.nonneg position who

end Call

section Stakes

variable {call call' : Call} {pool pool' : Pool} {staker : Address} {amount : Int}
  {position : Nat}

theorem Staked.positions (h : Staked call pool staker amount position call' pool') :
    call'.positions = call.positions := by
  rw [h.entered]
  rfl

theorem Staked.pooled (h : Staked call pool staker amount position call' pool')
    (hp : call.Pooled) (hamount : 0 ≤ amount) (hposition : position ∈ call.positions) :
    call'.Pooled := by
  have hpositions := h.positions
  have hpools : call'.outcomeStakes = call.outcomeStakes.insert position
      (valueAt call.outcomeStakes position + amount) := by
    rw [h.entered]
    rfl
  have hon : ∀ other, call'.stakesOn other = if other = position then
      (call.stakesOn position).insert staker (valueAt (call.stakesOn position) staker + amount)
      else call.stakesOn other := by
    intro other
    rw [h.entered, stakes_on_withStake]
  refine ⟨fun other hother => ?_, fun other => ?_, fun other who => ?_⟩
  · rw [hpositions] at hother
    rw [hpools, valueAt_insert, if_neg (fun heq : other = position => hother (heq ▸ hposition))]
    exact hp.listed other hother
  · rw [hon, hpools, valueAt_insert]
    split
    · rw [total_insert, hp.backed]
      omega
    · exact hp.backed other
  · rw [hon]
    split
    · rw [valueAt_insert]
      have hold := hp.nonneg position
      split
      · have := hold staker
        omega
      · exact hold who
    · exact hp.nonneg other who

theorem Fills.pooled {now callId : Nat} {m m' : Matching} {effects : List (Effect Event)}
    (h : Fills now callId m effects m') (hp : m.call.Pooled)
    (horders : ∀ id order, m.book.limitOrders.lookup id = some order →
      0 < order.amount ∧ order.outcome ∈ m.call.positions) :
    m'.call.Pooled ∧ m'.call.positions = m.call.positions := by
  induction h with
  | done => exact ⟨hp, rfl⟩
  | dropped _ _ ih => exact ih
  | filled hfills hstored _ hstaked ih =>
    obtain ⟨hpooled, hpositions⟩ := ih
    obtain ⟨hamount, hlisted⟩ := horders _ _ (hfills.lookup hstored)
    rw [← hpositions] at hlisted
    exact ⟨hstaked.pooled hpooled hamount.le hlisted, hstaked.positions.trans hpositions⟩

end Stakes

section Steps

variable {env : Env} {op : MarketOp} {s s' : Storage} {effects : List (Effect Event)}

theorem lookup_forPositions {V : Type} (n : Nat) (value : V) (position : Nat) :
    (forPositions n value).lookup position = none ∨
      (forPositions n value).lookup position = some value := by
  suffices h : ∀ (indices : List Nat) (m : Map Nat V),
      (∀ k, m.lookup k = none ∨ m.lookup k = some value) → ∀ k,
        (indices.foldl (fun m i => m.insert (i + 1) value) m).lookup k = none ∨
          (indices.foldl (fun m i => m.insert (i + 1) value) m).lookup k = some value from
    h _ ∅ (fun k => .inl (AList.lookup_empty k)) position
  intro indices
  induction indices with
  | nil => exact fun m hm => hm
  | cons i rest ih =>
    intro m hm
    refine ih _ fun k => ?_
    by_cases hk : k = i + 1
    · subst hk
      exact .inr (AList.lookup_insert m)
    · rw [AList.lookup_insert_ne hk]
      exact hm k

theorem MarketInitArgs.call_pooled (args : MarketInitArgs) (callId : Nat) (creator : Address)
    (now : Nat) : (args.call callId creator now).Pooled := by
  have hpools : ∀ position, valueAt (forPositions args.outcomeCount (0 : Int)) position = 0 := by
    intro position
    rcases lookup_forPositions args.outcomeCount (0 : Int) position with h | h <;>
      rw [valueAt, h] <;> rfl
  have hstakes : ∀ position, (args.call callId creator now).stakesOn position = ∅ := by
    intro position
    show ((forPositions args.outcomeCount (∅ : Map Address Int)).lookup position).getD ∅ = ∅
    rcases lookup_forPositions args.outcomeCount (∅ : Map Address Int) position with h | h <;>
      rw [h] <;> rfl
  refine ⟨fun position _ => hpools position, fun position => ?_, fun position who => ?_⟩
  · rw [hstakes]
    exact (hpools position).symm
  · rw [hstakes, valueAt_empty]

/-- A write of the call that changes neither its positions nor its stakes. -/
theorem Recorded.rewritten (h : Recorded s) {call call' : Call} (hcall : s.pool.call = some call)
    (hconfig : s.config ≠ none) (hcount : call'.outcomeCount = call.outcomeCount)
    (hpools : call'.outcomeStakes = call.outcomeStakes) (hstakes : call'.stakes = call.stakes) :
    Recorded (s.setCall call') := by
  refine ⟨fun hnone => absurd hnone hconfig, ?_, ?_⟩
  · rintro _ ⟨⟩
    exact (h.pooled call hcall).of_same hcount hpools hstakes
  · rintro _ ⟨⟩ id order hstored
    have hpositions : call'.positions = call.positions := by
      rw [Call.positions, Call.positions, hcount]
    rw [hpositions]
    exact h.orders call hcall id order hstored

theorem Recorded.closed (h : Recorded s) (order : LimitOrder) (hconfig : s.config ≠ none) :
    Recorded (s.onBook (·.close order)) := by
  refine ⟨fun hnone => absurd hnone hconfig, h.pooled, fun call hcall id stored hstored => ?_⟩
  exact h.orders call hcall id stored (Book.lookup_of_erase (b := s.book) hstored)

theorem Recorded.deployed (h : Recorded s) {call : Call} (hcall : s.pool.call = some call) :
    s.config ≠ none := by
  intro hnone
  rw [(h.undeployed hnone).1] at hcall
  cases hcall

theorem Transition.recorded (h : Transition env op s effects s') (hr : Recorded s) :
    Recorded s' := by
  cases h with
  | constructed hnone =>
    obtain ⟨-, hempty⟩ := hr.undeployed hnone
    refine ⟨by simp [Storage.setCall, Storage.setConfig, Storage.onPool], ?_, ?_⟩
    · rintro _ ⟨⟩
      exact MarketInitArgs.call_pooled ..
    · rintro _ ⟨⟩ id order hstored
      have hstored : s.book.limitOrders.lookup id = some order := hstored
      rw [hempty, AList.lookup_empty] at hstored
      cases hstored
  | @staked _ config call staker callId amount position call₁ pool₁ fills m _ hconfig _ hamount
      hcall haccepts hstaked hfills =>
    have hlisted := Call.mem_positions.mpr haccepts.position_mem
    have hpooled := hstaked.pooled (hr.pooled call hcall) hamount.le hlisted
    have horders := hr.orders call hcall
    rw [← hstaked.positions] at horders
    obtain ⟨hfilled, hpositions⟩ := hfills.pooled hpooled horders
    refine ⟨fun hnone => absurd (hconfig.symm.trans hnone) (by simp), ?_, ?_⟩
    · rintro _ ⟨⟩
      exact hfilled
    · rintro _ ⟨⟩ id order hstored
      rw [hpositions]
      exact horders id order (hfills.lookup hstored)
  | @ordered _ config call order _ _ hconfig _ hamount hcall haccepts hid =>
    refine ⟨fun hnone => absurd (hconfig.symm.trans hnone) (by simp), hr.pooled, ?_⟩
    intro call' hcall' id stored hstored
    obtain rfl : call = call' := Option.some.inj (hcall.symm.trans hcall')
    have hlisted := Call.mem_positions.mpr haccepts.position_mem
    exact Book.forall_enter (hr.orders call hcall) ⟨hamount, hlisted⟩ id stored hstored
  | orderCancelled _ _ hcall => exact hr.closed _ (hr.deployed hcall)
  | orderRefunded _ _ _ _ hcall => exact hr.closed _ (hr.deployed hcall)
  | resolved _ _ _ hcall => exact hr.rewritten hcall (hr.deployed hcall) rfl rfl rfl
  | settled _ _ _ hcall => exact hr.rewritten hcall (hr.deployed hcall) rfl rfl rfl
  | parentSet _ _ hcall => exact hr.rewritten hcall (hr.deployed hcall) rfl rfl rfl
  | released => exact hr
  | chainStored => exact ⟨hr.undeployed, hr.pooled, hr.orders⟩

theorem RolledOver.recorded {P : Type} [Peers P] {user : Address} {rollover : RolloverConfig}
    {f f' : Frame Storage P Event} {config : MarketConfig} {call : Call} {terms : RolloverTerms}
    {newMarket : Address} {newCallId : Nat} {stages : RolloverStages P}
    (h : RolledOver env user rollover f f' config call terms newMarket newCallId stages)
    (hr : Recorded f.store) : Recorded f'.store := by
  rw [h.result]
  exact ⟨hr.undeployed, hr.pooled, hr.orders⟩

end Steps

section Run

variable {P : Type} [Peers P] {self : Address} {outside : P → P → Prop}
  {guard : System.Guard (World P) Label} {history : List Label} {w : World P}

theorem MarketOp.recorded {op : MarketOp} {env : Env} {f f' : Frame Storage P Event} {u : Unit}
    (h : run (op.perform : Market P Unit) env f = .ok (u, f')) (hr : Recorded f.store) :
    Recorded f'.store := by
  cases hop : op.isRollover with
  | false =>
    obtain ⟨_, -, -, hmade⟩ := MarketOp.makes hop h
    exact hmade.recorded hr
  | true =>
    cases op <;> cases hop
    obtain ⟨newCallId, h⟩ := run_ignore.mp h
    obtain ⟨_, _, _, _, _, -, hrolled⟩ := claim_and_rollover_rolls h
    exact hrolled.recorded hr

theorem recorded_of_run (run : (market self outside).RunWhere guard history w) :
    Recorded w.store := by
  refine run.invariant (I := fun _ w => Recorded w.store) ?_ ?_
  · rintro w ⟨hempty, -⟩
    rw [hempty]
    exact ⟨fun _ => ⟨rfl, rfl⟩, fun call hcall => absurd hcall (by simp [Storage.empty]),
      fun call hcall => absurd hcall (by simp [Storage.empty])⟩
  · intro h w l w' _ hr hstep _
    cases hstep with
    | invoked _ _ _ _ hrun => exact MarketOp.recorded hrun hr
    | elsewhere => exact hr

end Run

/-!
## Proof of reserves

A market reports its balance of a token against the stakes on its outcomes. The open orders, whose
tokens it holds too, are counted as nothing, so a market with open orders reports a surplus.
-/

structure ReserveVerification where
  balanceOnChain : Int
  totalStaked : Int
  totalEscrowed : Int
  isFullyReserved : Bool
  discrepancy : Int
  deriving DecidableEq

section Entrypoints

variable {T : Type} [Tokens T]

/-- The balance of a token against the stakes of a call. -/
def reservesOf (tokenAddress : Address) (call : Call) : Market T ReserveVerification := do
  let environment ← env
  let balanceOnChain ← tokenBalance tokenAddress environment.contract
  let totalStaked ← sumI128 (call.positions.map (valueAt call.outcomeStakes))
  let totalEscrowed : Int := 0
  let unstaked ← i128 (balanceOnChain - totalStaked)
  let discrepancy ← i128 (unstaked - totalEscrowed)
  pure ⟨balanceOnChain, totalStaked, totalEscrowed, discrepancy = 0, discrepancy⟩

/-- Announce a verification, and its discrepancy when there is one. -/
def announceReserves (callId : Nat) (verification : ReserveVerification) : Market T Unit := do
  publish (.reserveVerification callId verification.balanceOnChain verification.totalStaked
    verification.isFullyReserved)
  if verification.isFullyReserved = false then
    publish (.reserveDiscrepancy callId verification.discrepancy)
  else pure ()

def verifyReserves (tokenAddress : Address) : Market T ReserveVerification := do
  let config ← requireConfig
  let call ← requireCall
  let verification ← reservesOf tokenAddress call
  announceReserves config.callId verification
  pure verification

def getReserveStatus : Market T ReserveVerification := do
  let _ ← requireConfig
  let call ← requireCall
  reservesOf call.stakeToken call

end Entrypoints

/-- The report is that of a market which holds exactly what it owes: the stakes and the open
orders. -/
structure ReserveVerification.Exact (r : ReserveVerification) (call : Call) (book : Book) :
    Prop where
  reserved : r.isFullyReserved = true
  liabilities : r.totalStaked + r.totalEscrowed = total call.outcomeStakes + book.escrowed
  balance : r.balanceOnChain = total call.outcomeStakes + book.escrowed

/-- The report of a balance against some stakes. -/
def reportOf (balance staked : Int) : ReserveVerification :=
  ⟨balance, staked, 0, balance - staked = 0, balance - staked⟩

section Specs

variable {T : Type} [Tokens T] {env : Env} {f : Frame Storage T Event} {call : Call}
  {token : Address} {held : Int}

theorem run_reservesOf (hp : call.Pooled)
    (hheld : Tokens.balance f.tokens token env.contract = some held)
    (hnonneg : 0 ≤ held) (hrange : InI128 held) (hfits : InI128 (total call.outcomeStakes)) :
    run (reservesOf token call) env f = .ok (reportOf held (total call.outcomeStakes), f) := by
  have hstakes : 0 ≤ total call.outcomeStakes := total_nonneg _ hp.stakes_nonneg
  have hsum : SumFits 0 (call.positions.map (valueAt call.outcomeStakes)) := by
    refine (sum_fits_iff le_rfl fun x hx => ?_).mpr fun _ => ?_
    · obtain ⟨position, -, rfl⟩ := List.mem_map.mp hx
      exact hp.stakes_nonneg position
    · rw [hp.sum_positions, zero_add]
      exact hfits.2
  have hdiff : InI128 (held - total call.outcomeStakes) := by
    simp only [InI128, i128Min, i128Max] at hrange hfits ⊢
    omega
  simp only [reservesOf, run_env_bind, run_tokenBalance_bind, run_sumI128_bind, run_i128_bind,
    run_pure, hp.sum_positions, sub_zero]
  exact ⟨held, hheld, hsum, hdiff, hdiff, rfl⟩

/-- A report is exact if and only if no orders are open and the balance is that of the stakes. -/
theorem reportOf_exact_iff {book : Book} :
    (reportOf held (total call.outcomeStakes)).Exact call book ↔
      book.escrowed = 0 ∧ held = total call.outcomeStakes := by
  constructor
  · rintro ⟨hreserved, hliabilities, -⟩
    have hzero : held - total call.outcomeStakes = 0 := of_decide_eq_true hreserved
    have hliabilities : total call.outcomeStakes + 0 = total call.outcomeStakes + book.escrowed :=
      hliabilities
    omega
  · rintro ⟨hescrow, rfl⟩
    refine ⟨decide_eq_true (by omega), ?_, ?_⟩
    · rw [hescrow]
      rfl
    · rw [hescrow, add_zero]
      rfl

theorem run_getReserveStatus {config : MarketConfig} {r : ReserveVerification}
    (hconfig : f.store.config = some config) (hcall : f.store.pool.call = some call)
    (h : run (reservesOf call.stakeToken call) env f = .ok (r, f)) :
    run getReserveStatus env f = .ok (r, f) := by
  rw [getReserveStatus, run_requireConfig_bind]
  refine ⟨config, hconfig, ?_⟩
  rw [run_requireCall_bind]
  exact ⟨call, hcall, h⟩

omit [Tokens T] in
theorem run_announceReserves (callId : Nat) (r : ReserveVerification) :
    ∃ effects, run (announceReserves callId r) env f = .ok ((), { f with effects := effects }) := by
  unfold announceReserves
  rw [run_publish_bind]
  by_cases hreserved : r.isFullyReserved = false
  · rw [if_pos hreserved]
    exact ⟨_, rfl⟩
  · rw [if_neg hreserved]
    exact ⟨_, rfl⟩

/-- Verifying publishes what it returns and changes nothing. -/
theorem run_verifyReserves {config : MarketConfig} {r : ReserveVerification}
    (hconfig : f.store.config = some config) (hcall : f.store.pool.call = some call)
    (h : run (reservesOf token call) env f = .ok (r, f)) :
    ∃ effects, run (verifyReserves token) env f = .ok (r, { f with effects := effects }) := by
  obtain ⟨effects, hannounce⟩ := run_announceReserves (T := T) (f := f) config.callId r
  refine ⟨effects, ?_⟩
  rw [verifyReserves, run_requireConfig_bind]
  refine ⟨config, hconfig, ?_⟩
  rw [run_requireCall_bind]
  refine ⟨call, hcall, run_bind.mpr ⟨r, f, h, run_bind.mpr ⟨(), _, hannounce, ?_⟩⟩⟩
  rfl

end Specs

section Run

variable {P : Type} [Peers P] {self : Address} {outside : P → P → Prop} {history : List Label}
  {w : World P} {call : Call} {env : Env}

/-- In every state before a release of escrow the market holds its stakes and its open orders, and
it is reported as exactly reserved if and only if no orders are open. Of another token the report
is exact if the balance happens to be that of the stakes, too. -/
theorem reserves_exact_iff (hexact : ExactTransfers P) (huntouched : Untouched self outside)
    (run : (market self outside).RunWhere escrowKept history w)
    (hcall : w.store.pool.call = some call) (henv : env.contract = self)
    (hrange : ∀ held, Tokens.balance w.peers call.stakeToken self = some held → InI128 held) :
    (∃ r, Contract.run getReserveStatus env w.frame = .ok (r, w.frame) ∧
      (r.Exact call w.store.book ↔ w.store.book.limitOrders = ∅)) ∧
    ∀ token held, Tokens.balance w.peers token self = some held → 0 ≤ held → InI128 held →
      ∃ r effects, Contract.run (verifyReserves token) env w.frame =
          .ok (r, { w.frame with effects := effects }) ∧
        (r.Exact call w.store.book ↔
          w.store.book.limitOrders = ∅ ∧ held = total call.outcomeStakes) := by
  subst henv
  have hr := recorded_of_run run
  have hbalanced := (escrow_and_orders hexact huntouched run).balanced call hcall
  have hp := hr.pooled call hcall
  obtain ⟨config, hconfig⟩ := Option.ne_none_iff_exists'.mp (hr.deployed hcall)
  obtain ⟨hescrow, hempty⟩ : 0 ≤ w.store.book.escrowed ∧
      (w.store.book.escrowed = 0 ↔ w.store.book.limitOrders = ∅) :=
    sumRows_eq_zero_iff LimitOrder.amount fun id order hstored =>
      (hr.orders call hcall id order hstored).1
  have hstakes : 0 ≤ total call.outcomeStakes := total_nonneg _ hp.stakes_nonneg
  have hheld := hrange _ hbalanced
  have hfits : InI128 (total call.outcomeStakes) := .of_le hstakes (by omega) hheld
  constructor
  · refine ⟨_, run_getReserveStatus hconfig hcall
      (run_reservesOf hp hbalanced (by omega) hheld hfits), ?_⟩
    rw [reportOf_exact_iff, ← hempty]
    omega
  · intro token held hother hnonneg hin
    have hreport : Contract.run (reservesOf token call) env w.frame =
        .ok (reportOf held (total call.outcomeStakes), w.frame) :=
      run_reservesOf hp hother hnonneg hin hfits
    obtain ⟨effects, hverify⟩ := run_verifyReserves hconfig hcall hreport
    refine ⟨_, effects, hverify, ?_⟩
    rw [reportOf_exact_iff, hempty]

end Run

/-- Alice's order waits beside Bob's stake. -/
def waitingScript : List (Env × MarketOp) :=
  [deployment,
    at_ 2 [bob] (.stakeOnCall bob 1 1000 1),
    at_ 3 [alice] (.createLimitOrder alice 1 1 700 5000 600)]

def waitingRun :
    System.Replayed (market home fun _ (_ : StandardLedger) => False) (World.next home)
      escrowKeptStep :=
  .of freshWorld fresh_world_initial waitingScript (by decide +kernel)

/-- Anyone's environment. -/
def auditEnv : Env := ⟨home, 5, 5, []⟩

/-- When Alice's order has been filled the reserves are reported as exact. -/
theorem reserves_exact_when_filled : ∃ r, run getReserveStatus auditEnv fillRun.state.frame =
    .ok (r, fillRun.state.frame) ∧ r.isFullyReserved = true := by
  have hdeployed : fillRun.state.store.pool.call.isSome = true := by decide +kernel
  obtain ⟨call, hcall⟩ := Option.isSome_iff_exists.mp hdeployed
  have htoken : fillRun.state.store.pool.call.map Call.stakeToken = some usdc := by decide +kernel
  have hbalance : Tokens.balance fillRun.state.peers usdc home = some 2700 := by decide +kernel
  have hentries : fillRun.state.store.book.limitOrders.entries = [] := by decide +kernel
  have hempty : fillRun.state.store.book.limitOrders = ∅ := AList.ext hentries
  have htoken : call.stakeToken = usdc := by
    rw [hcall] at htoken
    exact Option.some.inj htoken
  obtain ⟨r, hreport, hexact⟩ := (reserves_exact_iff StandardLedger.exact_transfers
    untouched_nowhere (fillRun.run World.next_step escrow_kept_step) hcall
    (show auditEnv.contract = home from rfl) (fun held hheld => by
      rw [htoken, hbalance] at hheld
      exact Option.some.inj hheld ▸ by decide)).1
  exact ⟨r, hreport, (hexact.mpr hempty).reserved⟩

/-- While Alice's order waits, a surplus of its amount is reported. -/
theorem waiting_order_unreported :
    (market home fun _ (_ : StandardLedger) => False).RunWhere escrowKept waitingRun.history
        waitingRun.state ∧
      (run getReserveStatus auditEnv waitingRun.state.frame).toOption.map Prod.fst =
        some ⟨1700, 1000, 0, false, 700⟩ ∧
      waitingRun.state.store.book.escrowed = 700 ∧
      Tokens.balance waitingRun.state.peers usdc home = some 1700 := by
  have hreport : (run getReserveStatus auditEnv waitingRun.state.frame).toOption.map Prod.fst =
      some ⟨1700, 1000, 0, false, 700⟩ := by decide +kernel
  have hescrow : waitingRun.state.store.book.escrowed = 700 := by decide +kernel
  have hbalance : Tokens.balance waitingRun.state.peers usdc home = some 1700 := by decide +kernel
  exact ⟨waitingRun.run World.next_step escrow_kept_step, hreport, hescrow, hbalance⟩

end Backit.PredictionMarket
