import Backit.Lib.ProRata
import Backit.Lib.SumsTo
import Backit.Soroban.Execution
import Backit.IndexFund.Fund

/-!
# What backs the shares

Whatever is invested and paid out, the users' shares add up to the supply, the pool covers what is
invested at cost, the contract holds the rest of the pool, and a fund without shares has no pool.
Nobody gains by depositing and withdrawing at once.
-/

namespace Backit.IndexFund

open Soroban Contract Lib

section Fees

variable {amount : Int} {feeBps : Nat}

theorem feeOn_nonneg (amount : Int) (feeBps : Nat) : 0 ≤ feeOn amount feeBps := by
  unfold feeOn
  split
  · exact le_rfl
  · next hcharged =>
    have hamount : 0 ≤ amount := by omega
    exact Int.tdiv_nonneg (mul_nonneg hamount (Int.natCast_nonneg _)) (by decide)

/-- A fee of at most a tenth leaves something of an amount. -/
theorem feeOn_lt (hamount : 0 < amount) (hfee : feeBps ≤ 1000) : feeOn amount feeBps < amount := by
  unfold feeOn
  split
  · exact hamount
  · have hscaled : 0 ≤ amount * (feeBps : Int) := mul_nonneg hamount.le (Int.natCast_nonneg _)
    rw [tdiv_eq_div hscaled]
    refine Int.ediv_lt_of_lt_mul (by decide) ?_
    refine mul_lt_mul_of_pos_left ?_ hamount
    have : bpsScale = 10000 := rfl
    omega

end Fees

/-- What holds of the contract's storage whatever is invoked. -/
structure Sound (s : Storage) : Prop where
  shares : SumsTo s.userIndexBalance s.totalIndexSupply
  balances : ∀ user, 0 ≤ s.userIndexBalance user
  positive : ∀ c ∈ s.constituents, 0 < c.stakeAmount
  nodup : (s.constituents.map IndexConstituent.callId).Nodup
  listed : ∀ id c, s.constituent id = some c → c ∈ s.constituents ∧ c.callId = id
  stored : ∀ c ∈ s.constituents, s.constituent c.callId ≠ none
  covered : s.invested ≤ s.totalUsdcInPool
  unshared : s.totalIndexSupply = 0 → s.totalUsdcInPool = 0
  fees : ∀ config, s.config = some config →
    config.depositFeeBps ≤ 1000 ∧ config.withdrawFeeBps ≤ 1000
  unfounded : s.initialized = false → s = Storage.empty

section Weights

theorem equalWeights_map {β : Type} {g : IndexConstituent → β}
    (hg : ∀ w c, g (setWeight w c) = g c) (l : List IndexConstituent) :
    (equalWeights l).map g = l.map g := by
  unfold equalWeights
  cases hlast : l.getLast? with
  | none =>
    rw [List.getLast?_eq_none_iff] at hlast
    rw [hlast, List.map_nil]
  | some last =>
    have hsplit : l.dropLast ++ [last] = l := List.dropLast_append_getLast? last hlast
    calc (l.dropLast.map (setWeight _) ++ [setWeight _ last]).map g
        = l.dropLast.map g ++ [g last] := by simp [hg, Function.comp_def]
      _ = (l.dropLast ++ [last]).map g := by simp
      _ = l.map g := by rw [hsplit]

theorem foldl_setConstituent (l : List IndexConstituent) (s : Storage) :
    l.foldl Storage.setConstituent s =
      { s with constituent := (l.foldl Storage.setConstituent s).constituent } := by
  induction l generalizing s with
  | nil => rfl
  | cons c rest ih =>
    rw [List.foldl_cons, ih]
    rfl

/-- A stored constituent is one of the list or was there before. -/
theorem constituent_foldl {l : List IndexConstituent} {s : Storage} {id : Nat} :
    (∃ c ∈ l, c.callId = id ∧ (l.foldl Storage.setConstituent s).constituent id = some c) ∨
      (∀ c ∈ l, c.callId ≠ id) ∧
        (l.foldl Storage.setConstituent s).constituent id = s.constituent id := by
  induction l generalizing s with
  | nil => exact .inr ⟨fun c hc => absurd hc List.not_mem_nil, rfl⟩
  | cons c rest ih =>
    obtain ⟨c', hc', hid, hfound⟩ | ⟨hother, hfound⟩ := ih (s := s.setConstituent c)
    · exact .inl ⟨c', .tail _ hc', hid, hfound⟩
    · by_cases hid : c.callId = id
      · refine .inl ⟨c, .head _, hid, hfound.trans ?_⟩
        rw [← hid]
        exact Function.update_self ..
      · refine .inr ⟨?_, hfound.trans (Function.update_of_ne (Ne.symm hid) ..)⟩
        intro c' hc'
        obtain rfl | hc' := List.mem_cons.mp hc'
        · exact hid
        · exact hother c' hc'

variable {s : Storage}

theorem reweighted_constituent (s : Storage) (now : Nat) : (s.reweighted now).constituent =
    ((equalWeights s.constituents).foldl Storage.setConstituent s).constituent := rfl

theorem Sound.reweighted (h : Sound s) (now : Nat) (hfounded : s.initialized = true) :
    Sound (s.reweighted now) := by
  have hsame : s.reweighted now =
      { s with
        constituent := (s.reweighted now).constituent
        constituents := equalWeights s.constituents
        lastRebalanceTimestamp := now } := by
    rw [reweighted_constituent, Storage.reweighted, foldl_setConstituent]
    rfl
  have hids : (equalWeights s.constituents).map IndexConstituent.callId =
      s.constituents.map IndexConstituent.callId := equalWeights_map (fun _ _ => rfl) _
  have hstakes : (equalWeights s.constituents).map IndexConstituent.stakeAmount =
      s.constituents.map IndexConstituent.stakeAmount := equalWeights_map (fun _ _ => rfl) _
  have hfound : ∀ id, (∃ c ∈ equalWeights s.constituents, c.callId = id ∧
      (s.reweighted now).constituent id = some c) ∨
      (∀ c ∈ equalWeights s.constituents, c.callId ≠ id) ∧
        (s.reweighted now).constituent id = s.constituent id := fun id => constituent_foldl
  generalize (s.reweighted now).constituent = stored at hsame hfound
  rw [hsame]
  refine ⟨h.shares, h.balances, fun c hc => ?_, hids ▸ h.nodup, fun id c hc => ?_, fun c hc => ?_,
    ?_, h.unshared, h.fees, fun hnew => absurd hfounded (by simp_all)⟩
  · have hmem : c.stakeAmount ∈ s.constituents.map IndexConstituent.stakeAmount :=
      hstakes ▸ List.mem_map_of_mem hc
    obtain ⟨c₀, hc₀, heq⟩ := List.mem_map.mp hmem
    exact heq ▸ h.positive c₀ hc₀
  · obtain ⟨c', hc', hid, heq⟩ | ⟨hother, heq⟩ := hfound id
    · obtain rfl := Option.some.inj (heq.symm.trans hc)
      exact ⟨hc', hid⟩
    · obtain ⟨hmem, hid⟩ := h.listed id c (heq.symm.trans hc)
      have hmem' : c.callId ∈ (equalWeights s.constituents).map IndexConstituent.callId :=
        hids ▸ List.mem_map_of_mem hmem
      obtain ⟨c', hc', hid'⟩ := List.mem_map.mp hmem'
      exact absurd (hid'.trans hid) (hother c' hc')
  · obtain ⟨c', -, -, heq⟩ | ⟨hother, -⟩ := hfound c.callId
    · show stored c.callId ≠ none
      rw [heq]
      exact Option.some_ne_none _
    · exact absurd rfl (hother c hc)
  · show ((equalWeights s.constituents).map IndexConstituent.stakeAmount).sum ≤ _
    rw [hstakes]
    exact h.covered

end Weights

section Steps

variable {env : Env} {op : FundOp} {s s' : Storage} {effects : List (Effect Event)} {user : Address}
  {netUsdc shares payout : Int} {callId : Nat} {c : IndexConstituent}

theorem sound_empty : Sound Storage.empty where
  shares := .zero
  balances _ := le_rfl
  positive := by simp [Storage.empty]
  nodup := List.nodup_nil
  listed := by simp [Storage.empty]
  stored := by simp [Storage.empty]
  covered := le_rfl
  unshared _ := rfl
  fees := by simp [Storage.empty]
  unfounded _ := rfl

/-- Whoever has configured the fund has initialised it. -/
theorem Sound.founded (h : Sound s) {config : IndexConfig} (hconfig : s.config = some config) :
    s.initialized = true := by
  cases hnew : s.initialized with
  | true => rfl
  | false =>
    rw [h.unfounded hnew] at hconfig
    cases hconfig

theorem Sound.invested_nonneg (h : Sound s) : 0 ≤ s.invested := by
  refine List.sum_nonneg fun x hx => ?_
  obtain ⟨c, hc, rfl⟩ := List.mem_map.mp hx
  exact (h.positive c hc).le

theorem Sound.pool_nonneg (h : Sound s) : 0 ≤ s.totalUsdcInPool := h.invested_nonneg.trans h.covered

theorem Sound.supply_nonneg (h : Sound s) : 0 ≤ s.totalIndexSupply :=
  (h.shares.within h.balances).bound_nonneg

/-- Shares that a net deposit mints are not negative, and a first deposit mints some. -/
theorem Sound.mintedFor_nonneg (h : Sound s) (hnet : 0 < netUsdc) :
    0 ≤ s.mintedFor netUsdc ∧ (s.totalIndexSupply = 0 → 0 < s.mintedFor netUsdc) := by
  unfold Storage.mintedFor
  split
  · have hminted : 0 < netUsdc * navScale := mul_pos hnet (by decide)
    exact ⟨hminted.le, fun _ => hminted⟩
  · next hsupply =>
    exact ⟨Int.tdiv_nonneg (mul_nonneg hnet.le h.supply_nonneg) h.pool_nonneg,
      fun hnone => absurd hnone hsupply⟩

theorem Sound.reshared (h : Sound s) (user : Address) (change : Int) :
    SumsTo (Function.update s.userIndexBalance user (s.userIndexBalance user + change))
      (s.totalIndexSupply + change) := by
  have hupdate := h.shares.update user (s.userIndexBalance user + change)
  rwa [show s.totalIndexSupply - s.userIndexBalance user + (s.userIndexBalance user + change) =
    s.totalIndexSupply + change by omega] at hupdate

theorem Sound.deposited (h : Sound s) (hnet : 0 < netUsdc) (hfounded : s.initialized = true) :
    Sound (s.deposited user netUsdc (s.mintedFor netUsdc)) := by
  obtain ⟨hminted, hfirst⟩ := h.mintedFor_nonneg hnet
  have hsupply := h.supply_nonneg
  refine ⟨h.reshared user _, update_nonneg h.balances ?_, h.positive, h.nodup, h.listed, h.stored,
    ?_, fun hnone => ?_, h.fees, fun hnew => absurd (hfounded.symm.trans hnew) (by decide)⟩
  · have := h.balances user
    omega
  · have := h.covered
    show s.invested ≤ s.totalUsdcInPool + netUsdc
    omega
  · have hnone' : s.totalIndexSupply + s.mintedFor netUsdc = 0 := hnone
    have := hfirst (by omega)
    omega

/-- All shares stand for all of the pool, and fewer for at most that. -/
theorem Sound.redeemable_bounds (h : Sound s) (hsupply : 0 < s.totalIndexSupply)
    (hshares : 0 ≤ shares) (hle : shares ≤ s.totalIndexSupply) :
    0 ≤ s.redeemable shares ∧ s.redeemable shares ≤ s.totalUsdcInPool ∧
      (shares = s.totalIndexSupply → s.redeemable shares = s.totalUsdcInPool) := by
  have hpool := h.pool_nonneg
  have hproduct : 0 ≤ shares * s.totalUsdcInPool := mul_nonneg hshares hpool
  have hfloor : s.redeemable shares = proRata s.totalUsdcInPool s.totalIndexSupply shares :=
    tdiv_eq_div hproduct
  rw [hfloor]
  refine ⟨proRata_nonneg hpool hsupply hshares, proRata_le_pot hpool hsupply hle, ?_⟩
  rintro rfl
  rw [proRata, mul_comm, Int.mul_ediv_cancel _ hsupply.ne']

theorem Sound.withdrawn (h : Sound s) (hshares : 0 < shares)
    (hheld : shares ≤ s.userIndexBalance user) (hsupply : 0 < s.totalIndexSupply)
    (hliquid : s.redeemable shares ≤ s.totalUsdcInPool - s.invested)
    (hfounded : s.initialized = true) :
    Sound (s.withdrawn user shares (s.redeemable shares)) := by
  have hle : shares ≤ s.totalIndexSupply := hheld.trans ((h.shares.within h.balances).apply_le user)
  obtain ⟨-, -, hall⟩ := h.redeemable_bounds hsupply hshares.le hle
  refine ⟨h.reshared user (-shares), update_nonneg h.balances ?_, h.positive, h.nodup, h.listed,
    h.stored, ?_, fun hnone => ?_, h.fees,
    fun hnew => absurd (hfounded.symm.trans hnew) (by decide)⟩
  · omega
  · show s.invested ≤ s.totalUsdcInPool - s.redeemable shares
    omega
  · have hnone' : s.totalIndexSupply - shares = 0 := hnone
    have := hall (by omega)
    show s.totalUsdcInPool - s.redeemable shares = 0
    omega

theorem invested_append (s : Storage) (c : IndexConstituent) :
    (s.investedIn c).invested = s.invested + c.stakeAmount := by
  simp [Storage.invested, Storage.investedIn, Storage.setConstituents]

theorem Sound.investedIn (h : Sound s) (hamount : 0 < c.stakeAmount)
    (hnew : s.constituent c.callId = none)
    (hliquid : c.stakeAmount ≤ s.totalUsdcInPool - s.invested)
    (hfounded : s.initialized = true) : Sound (s.investedIn c) := by
  have hmem : ∀ c', c' ∈ s.constituents ++ [c] ↔ c' ∈ s.constituents ∨ c' = c := by simp
  have hother : ∀ c' ∈ s.constituents, c'.callId ≠ c.callId := by
    intro c' hc' heq
    exact h.stored c' hc' (heq ▸ hnew)
  refine ⟨h.shares, h.balances, fun c' hc' => ?_, ?_, fun id c' hc' => ?_, fun c' hc' => ?_, ?_,
    h.unshared, h.fees, fun hnew => absurd (hfounded.symm.trans hnew) (by decide)⟩
  · obtain hold | rfl := (hmem c').mp hc'
    · exact h.positive c' hold
    · exact hamount
  · show ((s.constituents ++ [c]).map IndexConstituent.callId).Nodup
    rw [List.map_append, List.map_singleton, List.nodup_append]
    refine ⟨h.nodup, List.nodup_singleton _, fun id hid id' hid' => ?_⟩
    obtain ⟨c', hc', rfl⟩ := List.mem_map.mp hid
    rw [List.mem_singleton.mp hid']
    exact hother c' hc'
  · have hc' : Function.update s.constituent c.callId (some c) id = some c' := hc'
    by_cases hid : id = c.callId
    · subst hid
      rw [Function.update_self] at hc'
      cases hc'
      exact ⟨(hmem _).mpr (.inr rfl), rfl⟩
    · rw [Function.update_of_ne hid] at hc'
      obtain ⟨hold, heq⟩ := h.listed id c' hc'
      exact ⟨(hmem _).mpr (.inl hold), heq⟩
  · show Function.update s.constituent c.callId (some c) c'.callId ≠ none
    obtain hold | rfl := (hmem c').mp hc'
    · rw [Function.update_of_ne (hother c' hold)]
      exact h.stored c' hold
    · rw [Function.update_self]
      exact Option.some_ne_none _
  · rw [invested_append]
    show _ ≤ s.totalUsdcInPool
    omega

theorem Sound.invested_paidOut (h : Sound s) (hc : s.constituent callId = some c) :
    (s.paidOut callId c payout).invested = s.invested - c.stakeAmount := by
  obtain ⟨hmem, rfl⟩ := h.listed callId c hc
  exact sum_filter_key h.nodup hmem

theorem Sound.paidOut (h : Sound s) (hc : s.constituent callId = some c) (hpayout : 0 ≤ payout)
    (hfounded : s.initialized = true) : Sound (s.paidOut callId c payout) := by
  have hinvested : (s.paidOut callId c payout).invested = s.invested - c.stakeAmount :=
    h.invested_paidOut hc
  have hcovered := h.covered
  have hrest : ∀ c', c' ∈ s.constituents.filter (·.callId ≠ callId) ↔
      c' ∈ s.constituents ∧ c'.callId ≠ callId := by simp
  refine ⟨h.shares, h.balances, fun c' hc' => h.positive c' ((hrest c').mp hc').1, ?_,
    fun id c' hc' => ?_, fun c' hc' => ?_, ?_, fun hnone => ?_, h.fees,
    fun hnew => absurd (hfounded.symm.trans hnew) (by decide)⟩
  · exact h.nodup.sublist (List.Sublist.map _ List.filter_sublist)
  · have hc' : Function.update s.constituent callId none id = some c' := hc'
    by_cases hid : id = callId
    · subst hid
      rw [Function.update_self] at hc'
      cases hc'
    · rw [Function.update_of_ne hid] at hc'
      obtain ⟨hmem, heq⟩ := h.listed id c' hc'
      exact ⟨(hrest c').mpr ⟨hmem, heq ▸ hid⟩, heq⟩
  · obtain ⟨hmem, hne⟩ := (hrest c').mp hc'
    show Function.update s.constituent callId none c'.callId ≠ none
    rw [Function.update_of_ne hne]
    exact h.stored c' hmem
  · rw [hinvested]
    show _ ≤ s.totalUsdcInPool - c.stakeAmount + payout
    omega
  · -- A fund without shares has no pool, and so nothing invested that could be paid out.
    have hpool := h.unshared hnone
    have hpositive := h.positive c (h.listed callId c hc).1
    have hrest : 0 ≤ (s.paidOut callId c payout).invested := by
      refine List.sum_nonneg fun x hx => ?_
      obtain ⟨c', hc', rfl⟩ := List.mem_map.mp hx
      exact (h.positive c' (List.mem_of_mem_filter hc')).le
    omega

theorem Transition.sound (h : Transition env op s effects s') (hs : Sound s) : Sound s' := by
  cases h with
  | founded hnew _ hdeposit hwithdraw =>
    obtain rfl := hs.unfounded hnew
    refine { sound_empty with
      fees := fun config hconfig => ?_
      unfounded := fun hnew => absurd hnew (by simp [Storage.setInitialized]) }
    cases hconfig
    exact ⟨hdeposit, hwithdraw⟩
  | deposited _ _ hamount hconfig _ =>
    have hfee := feeOn_lt hamount (hs.fees _ hconfig).1
    exact hs.deposited (by omega) (hs.founded hconfig)
  | withdrawn _ _ hshares hconfig hheld hsupply hliquid =>
    exact hs.withdrawn hshares hheld hsupply hliquid (hs.founded hconfig)
  | rebalanced _ hconfig => exact hs.reweighted _ (hs.founded hconfig)
  | invested hconfig _ hamount hnew hliquid =>
    exact hs.investedIn hamount hnew hliquid (hs.founded hconfig)
  | paidOut hconfig hc _ hpayout => exact hs.paidOut hc hpayout (hs.founded hconfig)

end Steps

/-- What the contract must hold of a token: the part of the pool that is not invested. -/
def Storage.owed (s : Storage) (token : Address) : Int :=
  match s.config with
  | some config => if config.stakeToken = token then s.totalUsdcInPool - s.invested else 0
  | none => 0

section Owed

variable {env : Env} {op : FundOp} {s s' : Storage} {effects : List (Effect Event)}

theorem owed_of_config {config : IndexConfig} (hconfig : s.config = some config) (token : Address) :
    s.owed token = if config.stakeToken = token then s.totalUsdcInPool - s.invested else 0 := by
  rw [Storage.owed, hconfig]

theorem Transition.only_transfers (h : Transition env op s effects s') :
    ∀ e ∈ effects, e.onlyTransfers = true := by
  cases h with
  | paidOut =>
    intro e he
    obtain rfl | he := List.mem_cons.mp he
    · rfl
    · split at he
      · rw [List.mem_singleton.mp he]
        rfl
      · cases he
  | _ => simp [Effect.onlyTransfers]

/-- What the contract owes changes by at most what a transition moves into the contract. -/
theorem Transition.owed (h : Transition env op s effects s') (hs : Sound s)
    (hforeign : env.contract ∉ env.auths) (token : Address) :
    s'.owed token ≤ s.owed token + (effects.map (Effect.moved token env.contract)).sum := by
  have hforeign' : ∀ {who}, who ∈ env.auths → env.contract ≠ who := fun hwho heq =>
    hforeign (heq ▸ hwho)
  cases h with
  | founded hnew =>
    obtain rfl := hs.unfounded hnew
    simp [Storage.owed, Storage.setConfig, Storage.setInitialized, Storage.empty, Storage.invested]
  | @deposited _ user amount config _ _ hauth _ hconfig =>
    have hsender := hforeign' hauth
    have hfee := feeOn_nonneg amount config.depositFeeBps
    rw [owed_of_config hconfig, owed_of_config (s := s.deposited ..) hconfig]
    simp only [List.map_cons, List.map_nil, List.sum_cons, List.sum_nil, Effect.moved,
      transferDelta, if_true, if_neg hsender, eq_comm (a := token)]
    split
    · show s.totalUsdcInPool + _ - s.invested ≤ _
      omega
    · exact le_rfl
  | @withdrawn _ user shares config _ _ hauth _ hconfig =>
    have huser := hforeign' hauth
    have hfee := feeOn_nonneg (s.redeemable shares) config.withdrawFeeBps
    rw [owed_of_config hconfig, owed_of_config (s := s.withdrawn ..) hconfig]
    simp only [List.map_cons, List.map_nil, List.sum_cons, List.sum_nil, Effect.moved,
      transferDelta, if_true, if_neg huser, eq_comm (a := token)]
    split
    · show s.totalUsdcInPool - _ - s.invested ≤ _
      omega
    · exact le_rfl
  | @rebalanced _ config _ _ hconfig =>
    have hstakes : ((equalWeights s.constituents).map IndexConstituent.stakeAmount).sum =
        s.invested := congrArg List.sum (equalWeights_map (fun _ _ => rfl) _)
    have hsame : (s.reweighted env.timestamp).config = s.config ∧
        (s.reweighted env.timestamp).totalUsdcInPool = s.totalUsdcInPool := by
      rw [Storage.reweighted, foldl_setConstituent]
      exact ⟨rfl, rfl⟩
    rw [owed_of_config hconfig, owed_of_config (hsame.1.trans hconfig), hsame.2,
      show (s.reweighted env.timestamp).invested = s.invested from hstakes]
    simp [Effect.moved]
  | @invested callId market outcome amount config _ hconfig _ hamount =>
    rw [owed_of_config hconfig, owed_of_config (s := s.investedIn _) hconfig, invested_append]
    simp only [List.map_cons, List.map_nil, List.sum_cons, List.sum_nil, Effect.moved,
      transferDelta, if_true, eq_comm (a := token)]
    split
    · show s.totalUsdcInPool - _ ≤ _
      split <;> omega
    · exact le_rfl
  | @paidOut callId payout config c _ hconfig hc hauth =>
    have hmarket := hforeign' hauth
    rw [owed_of_config hconfig, owed_of_config (s := s.paidOut ..) hconfig, hs.invested_paidOut hc]
    have hmoved : (((.event (.payoutClaimed callId payout) : Effect Event) :: if 0 < payout then
          [.transfer config.stakeToken c.marketAddress env.contract payout]
        else []).map (Effect.moved token env.contract)).sum =
        if config.stakeToken = token ∧ 0 < payout then payout else 0 := by
      by_cases hpositive : 0 < payout <;>
        simp [Effect.moved, transferDelta, hmarket, hpositive, eq_comm (a := token)]
    rw [hmoved]
    split
    · next htoken =>
      show s.totalUsdcInPool - c.stakeAmount + payout - _ ≤ _
      simp only [htoken, true_and]
      split <;> omega
    · next htoken => simp [htoken]

end Owed

section Run

variable {T : Type} [Tokens T]

/-- Executions of the contract from its deployment on, at an address that owes nobody anything. -/
def indexFund (self : Address) (outside : T → T → Prop) :
    System (Deployment Storage T) (Happening FundOp Event) :=
  contractSystem FundOp.perform self outside fun d =>
    d.store = Storage.empty ∧
      ∀ token held, Tokens.balance d.peers token self = some held → 0 ≤ held

variable {self : Address} {outside : T → T → Prop} {d : Deployment Storage T}
  {history : List (Happening FundOp Event)}
  {guard : System.Guard (Deployment Storage T) (Happening FundOp Event)}

theorem sound_of_run (run : (indexFund self outside).RunWhere guard history d) : Sound d.store := by
  refine store_invariant (I := Sound) ?_ ?_ run
  · rintro d ⟨hempty, -⟩
    rw [hempty]
    exact sound_empty
  · intro h d env op f _ ih _ hinvoke _
    obtain ⟨effects, -, -, htransition⟩ := FundOp.transitions hinvoke
    exact htransition.sound ih

/-- The contract holds the part of the pool that is not invested, in every reachable state. -/
theorem owed_le_held (hexact : ExactTransfers T) (hundrained : Undrained self outside)
    (run : (indexFund self outside).RunWhere guard history d) (token : Address) {held : Int}
    (hheld : Tokens.balance d.peers token self = some held) : d.store.owed token ≤ held := by
  refine owed_le_transferred hexact hundrained (fun d hd => ?_)
    (fun h d env op f hrun hforeign hinvoke => ?_) run token held hheld
  · rw [hd.1]
    exact hd.2
  · obtain ⟨effects, -, hreplay, htransition⟩ := FundOp.transitions hinvoke
    exact ⟨effects, hreplay, htransition.only_transfers,
      htransition.owed (sound_of_run hrun) hforeign⟩

/-- Depositing and withdrawing at once returns at most what was deposited. -/
theorem Sound.no_profit {s : Storage} (h : Sound s) (user : Address) {netUsdc : Int}
    (hnet : 0 < netUsdc) (hsolvent : s.totalIndexSupply = 0 ∨ s.totalUsdcInPool ≠ 0) :
    (s.deposited user netUsdc (s.mintedFor netUsdc)).redeemable (s.mintedFor netUsdc) ≤
      netUsdc := by
  have hpool := h.pool_nonneg
  have hsupply := h.supply_nonneg
  obtain ⟨hminted, hfirst⟩ := h.mintedFor_nonneg hnet
  show (s.mintedFor netUsdc * (s.totalUsdcInPool + netUsdc)).tdiv
    (s.totalIndexSupply + s.mintedFor netUsdc) ≤ netUsdc
  rw [tdiv_eq_div (mul_nonneg hminted (by omega))]
  by_cases hnone : s.totalIndexSupply = 0
  · -- All shares are the first depositor's, and there is nothing but his deposit.
    have := hfirst hnone
    rw [hnone, h.unshared hnone, zero_add, zero_add, Int.mul_ediv_cancel_left _ (by omega)]
  · have hpot : 0 < s.totalUsdcInPool := by omega
    have hfloor : s.mintedFor netUsdc = proRata s.totalIndexSupply s.totalUsdcInPool netUsdc := by
      rw [Storage.mintedFor, if_neg hnone, tdiv_eq_div (mul_nonneg hnet.le hsupply)]
      rfl
    rw [hfloor]
    exact (round_trip_fair hpot (by omega) hnet.le).1

/-- The shares of the users add up to the supply, a fund without shares has no pool, the pool covers
what is invested and the contract holds the rest, and nobody gains by withdrawing at once what he
deposits. -/
theorem shares_backed (hexact : ExactTransfers T) (hundrained : Undrained self outside)
    (run : (indexFund self outside).Run history d) :
    SumsTo d.store.userIndexBalance d.store.totalIndexSupply ∧
      (d.store.totalIndexSupply = 0 → d.store.totalUsdcInPool = 0) ∧
      0 ≤ d.store.totalUsdcInPool - d.store.invested ∧
      (∀ config held, d.store.config = some config →
        Tokens.balance d.peers config.stakeToken self = some held →
        d.store.totalUsdcInPool - d.store.invested ≤ held) ∧
      ∀ env env' user amount shares amountOut f f', Admissible self d env →
        Contract.run (deposit user amount) env d.frame = .ok (shares, f) →
        Admissible self (.after env f) env' →
        Contract.run (withdraw user shares) env' (Deployment.after env f).frame =
          .ok (amountOut, f') → amountOut ≤ amount := by
  have hs := sound_of_run run
  have hcovered := hs.covered
  refine ⟨hs.shares, hs.unshared, by omega, fun config held hconfig hheld => ?_, ?_⟩
  · have howed := owed_le_held hexact hundrained run config.stakeToken hheld
    rwa [owed_of_config hconfig, if_pos rfl] at howed
  · intro env env' user amount shares amountOut f f' _ hdeposit _ hwithdraw
    obtain ⟨config, _, -, hamount, hconfig, -, hsolvent, -, rfl, rfl⟩ := run_deposit.mp hdeposit
    obtain ⟨config', _, -, -, -, -, -, -, rfl, -, -⟩ := run_withdraw hwithdraw
    have hfee := feeOn_lt hamount (hs.fees config hconfig).1
    have hfee' := feeOn_nonneg amount config.depositFeeBps
    have hback := hs.no_profit user (sub_pos.mpr hfee) hsolvent
    calc Storage.redeemable _ _ - feeOn (Storage.redeemable _ _) _
        ≤ Storage.redeemable _ _ := sub_le_self _ (feeOn_nonneg _ _)
      _ ≤ amount - feeOn amount config.depositFeeBps := hback
      _ ≤ amount := sub_le_self _ hfee'

end Run

def alice : Address := ⟨1⟩

def bob : Address := ⟨2⟩

def admin : Address := ⟨10⟩

def usdc : Address := ⟨50⟩

/-- A market that the fund stakes in. -/
def basketMarket : Address := ⟨901⟩

/-- The contract's address in the scenarios. -/
def home : Address := ⟨900⟩

/-- An invocation of the contract at a time, with the addresses that authorise it. -/
def at_ (timestamp : Nat) (auths : List Address) (op : FundOp) : Env × FundOp :=
  (⟨home, timestamp, timestamp, auths⟩, op)

/-- Nothing happens to the contracts around this one. -/
def nowhere : StandardLedger → StandardLedger → Prop := fun _ _ => False

theorem nowhere_undrained : Undrained home nowhere := fun _ _ h => h.elim

/-- Alice, Bob and the market have units of the stake token. -/
def sampleLedger : StandardLedger :=
  .ofHoldings fun token =>
    if token = usdc then
      ((Holdings.empty.set alice 40000 (by decide)).set bob 40000 (by decide)).set basketMarket
        3000 (by decide)
    else .empty

def freshDeployment : Deployment Storage StandardLedger := ⟨Storage.empty, sampleLedger, 0, 0⟩

/-- The contract in a world where nothing else happens. -/
abbrev alone : System (Deployment Storage StandardLedger) (Happening FundOp Event) :=
  indexFund home nowhere

/-- Invoke the contract. -/
abbrev invoke (d : Deployment Storage StandardLedger) (input : Env × FundOp) :
    Option (Happening FundOp Event × Deployment Storage StandardLedger) :=
  d.next FundOp.perform home input

theorem fresh_deployment_initial : alone.initial freshDeployment := by
  refine ⟨rfl, fun token held hheld => ?_⟩
  rw [← Option.some.inj hheld]
  exact (sampleLedger.holdings token).nonneg home

/-- Alice deposits ten thousand, and all that is left of it after the fee is staked in a market. -/
def investedScript : List (Env × FundOp) :=
  [at_ 1 [] (.initializeFund admin usdc ⟨302⟩ 86400 100 100),
    at_ 2 [alice] (.deposit alice 10000),
    at_ 3 [admin] (.invest 1 basketMarket 1 9900)]

/-- The market pays more than was staked. -/
def gainedScript : List (Env × FundOp) :=
  investedScript ++ [at_ 4 [basketMarket] (.claimPayout 1 12000)]

def gainedRun : System.Replayed alone invoke System.anything :=
  .of freshDeployment fresh_deployment_initial gainedScript (by decide +kernel)

theorem gained_run : alone.Run gainedRun.history gainedRun.state :=
  gainedRun.run Deployment.next_step System.anything_allowed

/-- After the gain Alice's shares are all there are, and the contract holds the pool and the fee. -/
theorem shares_backed_after_gain : SumsTo gainedRun.state.store.userIndexBalance 99000000000 ∧
      gainedRun.state.store.totalUsdcInPool = 12000 ∧
      gainedRun.state.store.totalUsdcInPool - gainedRun.state.store.invested ≤ 12100 := by
  obtain ⟨hshares, -, -, hheld, -⟩ :=
    shares_backed StandardLedger.exact_transfers nowhere_undrained gained_run
  have hsupply : gainedRun.state.store.totalIndexSupply = 99000000000 := by decide +kernel
  have hconfig : gainedRun.state.store.config =
      some ⟨admin, usdc, ⟨302⟩, 86400, 100, 100, 10, 100⟩ := by decide +kernel
  exact ⟨hsupply ▸ hshares, by decide +kernel, hheld _ 12100 hconfig (by decide +kernel)⟩

end Backit.IndexFund
