import Backit.Governance.Tally
import Mathlib.Tactic.Ring

/-!
# The treasury's buckets

Every fee is split exactly, and a bucket is only lowered with the approval of the treasury's signers.
What the contract holds of a token is what its buckets hold, unless a bucket has been paid out to the
contract itself: then the tokens stay, and no bucket holds them.
-/

namespace Backit.Governance

open Soroban Contract Lib

/-- The parts are nonnegative and sum to the amount. -/
structure Parts.Exact (parts : Parts) (amount : Int) : Prop where
  treasury : 0 ≤ parts.treasury
  creators : 0 ≤ parts.creators
  buyback : 0 ≤ parts.buyback
  burn : 0 ≤ parts.burn
  whole : parts.treasury + parts.creators + parts.buyback + parts.burn = amount

theorem partsOf_exact {amount : Int} {bps : List Nat} (hamount : 0 < amount)
    (hvalid : ValidSplit bps) : (partsOf amount bps).Exact amount := by
  obtain ⟨hlength, hsum⟩ := hvalid
  obtain ⟨b₀, b₁, b₂, b₃, rfl⟩ : ∃ b₀ b₁ b₂ b₃, bps = [b₀, b₁, b₂, b₃] := by
    match bps, hlength with
    | [b₀, b₁, b₂, b₃], _ => exact ⟨b₀, b₁, b₂, b₃, rfl⟩
  have hshare : ∀ b : Nat, (amount * (b : Int)).tdiv bpsDenom = amount * b / bpsDenom :=
    fun b => tdiv_eq_div (by positivity)
  have hnonneg : ∀ b : Nat, 0 ≤ amount * (b : Int) / bpsDenom :=
    fun b => Int.ediv_nonneg (by positivity) (by decide)
  have hfloor : ∀ b : Nat, amount * (b : Int) / bpsDenom * bpsDenom ≤ amount * b :=
    fun b => Int.ediv_mul_le _ (by decide)
  -- The rounded shares of the three parts are a part of the whole.
  have hrest : amount * (b₁ : Int) + amount * b₂ + amount * b₃ ≤ amount * bpsDenom := by
    have hbps : (b₁ : Int) + b₂ + b₃ ≤ bpsDenom := by
      simp only [List.sum_cons, List.sum_nil] at hsum
      omega
    calc amount * (b₁ : Int) + amount * b₂ + amount * b₃
        = amount * (b₁ + b₂ + b₃) := by ring
      _ ≤ amount * bpsDenom := mul_le_mul_of_nonneg_left hbps hamount.le
  have hparts : (partsOf amount [b₀, b₁, b₂, b₃]) =
      ⟨amount - amount * b₁ / bpsDenom - amount * b₂ / bpsDenom - amount * b₃ / bpsDenom,
        amount * b₁ / bpsDenom, amount * b₂ / bpsDenom, amount * b₃ / bpsDenom⟩ := by
    simp [partsOf, hshare]
  rw [hparts]
  refine ⟨?_, hnonneg b₁, hnonneg b₂, hnonneg b₃, ?_⟩
  · have h₁ := hfloor b₁
    have h₂ := hfloor b₂
    have h₃ := hfloor b₃
    simp only [bpsDenom] at h₁ h₂ h₃ hrest ⊢
    omega
  · dsimp only
    omega

/-- What a bucket gets of a fee. -/
def Parts.into (parts : Parts) : Bucket → Int
  | .treasury => parts.treasury
  | .creatorIncentives => parts.creators
  | .buyback => parts.buyback
  | .burn => 0

namespace Storage

variable (s : Storage)

/-- What the buckets hold of a token. -/
def held (token : Address) : Int :=
  s.balance token .treasury + s.balance token .creatorIncentives + s.balance token .buyback

theorem setBalance_balance (token other : Address) (bucket bucket' : Bucket) (amount : Int) :
    (s.setBalance token bucket amount).balance other bucket' =
      if other = token ∧ bucket' = bucket then amount else s.balance other bucket' := by
  unfold setBalance
  by_cases hother : other = token
  · subst hother
    by_cases hbucket : bucket' = bucket
    · subst hbucket
      simp
    · simp [hbucket]
  · simp [hother]

theorem held_setBalance (token other : Address) {bucket : Bucket} (amount : Int)
    (hbucket : bucket ≠ .burn) :
    (s.setBalance token bucket amount).held other =
      s.held other + if other = token then amount - s.balance token bucket else 0 := by
  simp only [held, setBalance_balance]
  by_cases hother : other = token
  · subst hother
    cases bucket with
    | treasury =>
      simp only [reduceCtorEq, and_true, and_false, if_true, if_false]
      omega
    | creatorIncentives =>
      simp only [reduceCtorEq, and_true, and_false, if_true, if_false]
      omega
    | buyback =>
      simp only [reduceCtorEq, and_true, and_false, if_true, if_false]
      omega
    | burn => exact absurd rfl hbucket
  · simp [hother]

theorem ingested_balance (token other : Address) (parts : Parts) (bucket : Bucket) :
    (s.ingested token parts).balance other bucket =
      s.balance other bucket + if other = token then parts.into bucket else 0 := by
  simp only [ingested, setBalance_balance]
  by_cases hother : other = token
  · subst hother
    cases bucket <;> simp [Parts.into]
  · simp [hother]

@[simp] theorem burnedPart_balance (token : Address) (amount : Int) :
    (s.burnedPart token amount).balance = s.balance := by
  unfold burnedPart
  split <;> rfl

theorem burnedPart_burned (token : Address) {amount : Int} (hamount : 0 ≤ amount) :
    (s.burnedPart token amount).burned token = s.burned token + amount := by
  unfold burnedPart
  split
  · exact Function.update_self ..
  · show s.burned token = _
    omega

@[simp] theorem burnedPart_settings (token : Address) (amount : Int) :
    (s.burnedPart token amount).treasurySettings = s.treasurySettings := by
  unfold burnedPart
  split <;> rfl

end Storage

/-- The invocation pays a bucket of a token out to the contract itself. -/
def GovOp.paysItself (self token : Address) : GovOp → Bool
  | .withdrawBucket _ t _ recipient _ => t = token ∧ recipient = self
  | _ => false

/-- What an invocation pays out of the buckets of a token and leaves in the contract. -/
def GovOp.leaves (self token : Address) : GovOp → Int
  | .withdrawBucket _ t _ recipient amount => if t = token ∧ recipient = self then amount else 0
  | _ => 0

/-- The threshold of distinct signers has authorised the invocation. -/
def SignersApproved (s : Storage) (env : Env) : Prop :=
  ∃ (config : TreasuryConfig) (approving : List Address),
    s.treasurySettings = some config ∧ approving.Nodup ∧
    config.threshold ≤ approving.length ∧ ∀ a ∈ approving, a ∈ config.signers ∧ a ∈ env.auths

/-- The split of a treasury that was set up is changed, or a bucket is lowered. -/
def SpendsOrResplits (s s' : Storage) : Prop :=
  (s.treasurySettings ≠ none ∧ s'.treasurySettings ≠ s.treasurySettings) ∨
    ∃ token bucket, s'.balance token bucket < s.balance token bucket

/-- The treasury's settings have a valid split, and no bucket is negative. -/
structure Sound (s : Storage) : Prop where
  split : ∀ config, s.treasurySettings = some config → ValidSplit config.splitBps
  nonneg : ∀ token bucket, 0 ≤ s.balance token bucket

section Steps

variable {P : Type} [Targets P] {env : Env} {f f' : Frame Storage P Event} {op : GovOp}

theorem Approved.signers_approved {s : Storage} {config : TreasuryConfig}
    {approvers : List Address} (h : Approved env config approvers)
    (hconfig : s.treasurySettings = some config) : SignersApproved s env := by
  refine ⟨config, distinct approvers, hconfig, distinct_nodup approvers, h.enough, fun a ha => ?_⟩
  rw [mem_distinct] at ha
  exact ⟨h.signers a ha, h.authorised a ha⟩

/-- Settings and buckets that are as they were are sound. -/
theorem Sound.of_same {s s' : Storage} (h : Sound s)
    (hsettings : s'.treasurySettings = s.treasurySettings) (hbalance : s'.balance = s.balance) :
    Sound s' := by
  refine ⟨?_, ?_⟩
  · rw [hsettings]
    exact h.split
  · rw [hbalance]
    exact h.nonneg

theorem Sound.resplit {s : Storage} (h : Sound s) {config : TreasuryConfig}
    (hvalid : ValidSplit config.splitBps) : Sound (s.setTreasury config) := by
  refine ⟨fun config' hconfig => ?_, h.nonneg⟩
  obtain rfl := Option.some.inj hconfig
  exact hvalid

theorem Parts.Exact.into_nonneg {parts : Parts} {amount : Int} (h : parts.Exact amount)
    (bucket : Bucket) : 0 ≤ parts.into bucket := by
  cases bucket with
  | treasury => exact h.treasury
  | creatorIncentives => exact h.creators
  | buyback => exact h.buyback
  | burn => exact le_rfl

theorem Transition.sound (h : Transition env f op f') (hs : Sound f.store) : Sound f'.store := by
  cases h with
  | treasuryConfigured => exact hs.resplit ⟨rfl, rfl⟩
  | splitChanged _ _ hvalid => exact hs.resplit hvalid
  | @ingested payer token amount config parts _ _ _ hconfig hamount hparts =>
    have hexact : parts.Exact amount := hparts ▸ partsOf_exact hamount (hs.split config hconfig)
    refine ⟨?_, fun other bucket => ?_⟩
    · rw [Storage.burnedPart_settings]
      exact hs.split
    · rw [Storage.burnedPart_balance, Storage.ingested_balance]
      have hbucket := hs.nonneg other bucket
      have hinto := hexact.into_nonneg bucket
      split <;> omega
  | withdrawn _ _ _ _ hheld =>
    refine ⟨hs.split, fun other bucket' => ?_⟩
    rw [Storage.setBalance_balance]
    split
    · omega
    · exact hs.nonneg other bucket'
  | configured => exact hs.of_same rfl rfl
  | proposed => exact hs.of_same rfl rfl
  | revoted => exact hs.of_same rfl rfl
  | voted => exact hs.of_same rfl rfl
  | executed => exact hs.of_same rfl rfl
  | delegated => exact hs.of_same rfl rfl
  | reputed => exact hs.of_same rfl rfl

/-- What changes the split or lowers a bucket has been approved. -/
theorem Transition.approved (h : Transition env f op f') (hs : Sound f.store)
    (hspends : SpendsOrResplits f.store f'.store) : SignersApproved f.store env := by
  have hsame : ∀ {s' : Storage}, s'.treasurySettings = f.store.treasurySettings →
      (∀ token bucket, f.store.balance token bucket ≤ s'.balance token bucket) →
      ¬ SpendsOrResplits f.store s' := by
    rintro s' hsettings hbalance (⟨-, hchanged⟩ | ⟨token, bucket, hlower⟩)
    · exact hchanged hsettings
    · exact absurd (hbalance token bucket) (not_le.mpr hlower)
  have hidle : ∀ {s' : Storage}, s'.treasurySettings = f.store.treasurySettings →
      s'.balance = f.store.balance → ¬ SpendsOrResplits f.store s' :=
    fun hsettings hbalance => hsame hsettings fun token bucket => by rw [hbalance]
  cases h with
  | treasuryConfigured hnone =>
    rcases hspends with ⟨hfounded, -⟩ | ⟨token, bucket, hlower⟩
    · exact absurd hnone hfounded
    · exact absurd hlower (lt_irrefl _)
  | splitChanged hconfig happroved => exact happroved.signers_approved hconfig
  | withdrawn hconfig happroved => exact happroved.signers_approved hconfig
  | @ingested payer token amount config parts _ _ _ hconfig hamount hparts =>
    refine absurd hspends (hsame (Storage.burnedPart_settings ..) fun other bucket => ?_)
    have hexact : parts.Exact amount := hparts ▸ partsOf_exact hamount (hs.split config hconfig)
    have hinto := hexact.into_nonneg bucket
    rw [Storage.burnedPart_balance, Storage.ingested_balance]
    split <;> omega
  | configured => exact absurd hspends (hidle rfl rfl)
  | proposed => exact absurd hspends (hidle rfl rfl)
  | revoted => exact absurd hspends (hidle rfl rfl)
  | voted => exact absurd hspends (hidle rfl rfl)
  | executed => exact absurd hspends (hidle rfl rfl)
  | delegated => exact absurd hspends (hidle rfl rfl)
  | reputed => exact absurd hspends (hidle rfl rfl)

/-- What the contract holds of a token moves with its buckets, but for what they leave with it. -/
theorem Transition.holdings (hexact : ExactTransfers P) (hburns : ExactBurns P)
    (hharmless : HarmlessTargets P env.contract) (hforeign : env.contract ∉ env.auths)
    (h : Transition env f op f') (hs : Sound f.store) {token : Address} {kept : Int}
    (hheld : Tokens.balance f.tokens token env.contract = some (f.store.held token + kept)) :
    Tokens.balance f'.tokens token env.contract =
      some (f'.store.held token + (op.leaves env.contract token + kept)) := by
  have hidle : Tokens.balance f.tokens token env.contract =
      some (f.store.held token + (0 + kept)) := by rwa [zero_add]
  cases h with
  | @ingested payer other amount config parts peers peers' hauth hconfig hamount hparts htransfer
      hburned =>
    have hparts : parts.Exact amount := hparts ▸ partsOf_exact hamount (hs.split config hconfig)
    have hpayer : env.contract ≠ payer := fun heq => hforeign (heq ▸ hauth)
    have hpaid : Tokens.balance peers token env.contract =
        some (f.store.held token + kept + if token = other then amount else 0) := by
      rw [hexact htransfer, hheld, Option.map_some, transferDelta, if_pos rfl, if_neg hpayer,
        sub_zero]
    have hrest : Tokens.balance peers' token env.contract = some (f.store.held token + kept +
        if token = other then amount - parts.burn else 0) := by
      cases hburned with
      | burned _ hburn =>
        rw [hburns hburn, hpaid, Option.map_some]
        refine congrArg some ?_
        by_cases htoken : token = other
        · simp only [htoken, and_self, if_true]
          omega
        · simp [htoken]
      | nothing hnone =>
        have hzero : parts.burn = 0 := le_antisymm (not_lt.mp hnone) hparts.burn
        rw [hpaid, hzero, sub_zero]
    have hbuckets : ((f.store.ingested other parts).burnedPart other parts.burn).held token =
        f.store.held token + if token = other then amount - parts.burn else 0 := by
      have hwhole := hparts.whole
      simp only [Storage.held, Storage.burnedPart_balance, Storage.ingested_balance, Parts.into]
      split <;> omega
    rw [hrest, hbuckets]
    refine congrArg some ?_
    show _ = _ + (0 + kept)
    omega
  | @withdrawn approvers other bucket recipient amount config peers _ _ _ hbucket _ htransfer =>
    rw [hexact htransfer, hheld, Option.map_some, Storage.held_setBalance _ _ _ _ hbucket,
      GovOp.leaves, transferDelta]
    refine congrArg some ?_
    by_cases htoken : token = other
    · subst htoken
      by_cases hself : recipient = env.contract
      · simp only [hself, and_self, if_true]
        omega
      · simp only [hself, Ne.symm hself, and_false, if_true, if_false]
        omega
    · simp only [htoken, Ne.symm htoken, false_and, if_false]
      omega
  | executed _ hinvoke => exact (hharmless hinvoke token).trans hidle
  | configured => exact hidle
  | proposed => exact hidle
  | revoted => exact hidle
  | voted => exact hidle
  | treasuryConfigured => exact hidle
  | splitChanged => exact hidle
  | delegated => exact hidle
  | reputed => exact hidle

end Steps

section Run

variable {P : Type} [Targets P] {self : Address} {outside : P → P → Prop} {start : P → Prop}
  {guard : System.Guard (Deployment Storage P) (Happening GovOp Event)}
  {history : List (Happening GovOp Event)} {d : Deployment Storage P} {token : Address}

theorem sound_of_run (run : (governance self outside start).RunWhere guard history d) :
    Sound d.store := by
  refine store_invariant (I := Sound) ?_ ?_ run
  · rintro d ⟨hstore, -⟩
    rw [hstore]
    exact ⟨fun config hconfig => absurd hconfig (by simp [Storage.empty]), fun _ _ => le_rfl⟩
  · intro h d env op f _ hs _ hrun _
    exact (GovOp.transitions hrun).sound hs

/-- What a run has paid out of the buckets of a token and left in the contract. -/
def left (self token : Address) (history : List (Happening GovOp Event)) : Int :=
  ((invocations history).map fun i => i.op.leaves self token).sum

theorem holdings_of_run (hexact : ExactTransfers P) (hburns : ExactBurns P)
    (hharmless : HarmlessTargets P self) (houtside : Undisturbed self outside)
    (hstart : ∀ p, start p → Tokens.balance p token self = some 0)
    (run : (governance self outside start).RunWhere guard history d) :
    Tokens.balance d.peers token self = some (d.store.held token + left self token history) := by
  refine contract_invariant (I := fun history d => Tokens.balance d.peers token self =
    some (d.store.held token + left self token history)) ?_ ?_ ?_ run
  · rintro d ⟨hstore, hpeers⟩
    rw [hstart _ hpeers, hstore]
    rfl
  · rintro h d env op f hrun hheld ⟨rfl, hforeign, -, -⟩ hinvoke _
    exact (GovOp.transitions hinvoke).holdings hexact hburns hharmless hforeign
      (sound_of_run hrun) hheld
  · intro h d peers _ hheld hout
    exact (houtside _ _ hout token).trans hheld

/-- Nothing is left in the contract if and only if no bucket has been paid out to it. -/
theorem left_eq_zero_iff (run : (governance self outside start).RunWhere guard history d) :
    left self token history = 0 ↔
      ∀ i ∈ invocations history, i.op.paysItself self token = false := by
  suffices h : 0 ≤ left self token history ∧ (left self token history = 0 ↔
      ∀ i ∈ invocations history, i.op.paysItself self token = false) from h.2
  refine contract_invariant (I := fun history _ => 0 ≤ left self token history ∧
    (left self token history = 0 ↔
      ∀ i ∈ invocations history, i.op.paysItself self token = false)) ?_ ?_ ?_ run
  · intro d _
    simp [left]
  · rintro h d env op f - ⟨hnonneg, hiff⟩ - hinvoke -
    have hleaves : 0 ≤ op.leaves self token ∧
        (op.leaves self token = 0 ↔ op.paysItself self token = false) := by
      cases GovOp.transitions hinvoke with
      | @withdrawn _ other _ recipient amount _ _ _ _ hamount =>
        show 0 ≤ (if other = token ∧ recipient = self then amount else 0) ∧
          ((if other = token ∧ recipient = self then amount else 0) = 0 ↔
            decide (other = token ∧ recipient = self) = false)
        by_cases hself : other = token ∧ recipient = self
        · rw [if_pos hself, decide_eq_true hself]
          exact ⟨hamount.le, iff_of_false hamount.ne' (by decide)⟩
        · simp [hself]
      | _ => exact ⟨le_rfl, iff_of_true rfl rfl⟩
    have hsum : left self token (.invoked ⟨env, op, f.effects⟩ :: h) =
        op.leaves self token + left self token h := by simp [left]
    rw [hsum, invocations_invoked, List.forall_mem_cons, ← hleaves.2, ← hiff]
    constructor
    · omega
    · omega
  · intro h d peers _ ih _
    simpa [left] using ih

/-- The step splits a fee: the buckets get its parts, the rest is burned, and the contract holds
that much more. -/
structure SplitsFee (self token : Address) (amount : Int) (parts : Parts)
    (d d' : Deployment Storage P) : Prop where
  exact : parts.Exact amount
  buckets : ∀ bucket, d'.store.balance token bucket =
    d.store.balance token bucket + parts.into bucket
  burned : d'.store.burned token = d.store.burned token + parts.burn
  holdings : Tokens.balance d'.peers token self =
    (Tokens.balance d.peers token self).map (· + (amount - parts.burn))

theorem splits_fee {env : Env} {f : Frame Storage P Event} {payer : Address} {amount : Int}
    (hexact : ExactTransfers P) (hburns : ExactBurns P) (hs : Sound d.store)
    (hadmissible : Admissible self d env)
    (h : Transition env d.frame (.ingestFee payer token amount) f) :
    ∃ parts, SplitsFee self token amount parts d (.after env f) := by
  obtain ⟨rfl, hforeign, -, -⟩ := hadmissible
  cases h with
  | @ingested _ _ _ config parts peers peers' hauth hconfig hamount hparts htransfer hburned =>
    have hparts : parts.Exact amount := hparts ▸ partsOf_exact hamount (hs.split config hconfig)
    have hpayer : env.contract ≠ payer := fun heq => hforeign (heq ▸ hauth)
    refine ⟨parts, hparts, fun bucket => ?_, ?_, ?_⟩
    · show ((d.store.ingested token parts).burnedPart token parts.burn).balance token bucket = _
      rw [Storage.burnedPart_balance, Storage.ingested_balance, if_pos rfl]
    · exact Storage.burnedPart_burned _ token hparts.burn
    · show Tokens.balance peers' token env.contract = _
      have hpaid : Tokens.balance peers token env.contract =
          (Tokens.balance d.peers token env.contract).map (· + amount) := by
        rw [hexact htransfer, transferDelta, if_pos rfl, if_pos rfl, if_neg hpayer, sub_zero]
        rfl
      cases hburned with
      | burned _ hburn =>
        rw [hburns hburn, hpaid, Option.map_map]
        refine congrArg (Option.map · _) (funext fun held => ?_)
        simp only [Function.comp_apply, and_self, if_true]
        omega
      | nothing hnone =>
        have hzero : parts.burn = 0 := le_antisymm (not_lt.mp hnone) hparts.burn
        rw [hpaid, hzero, sub_zero]

/-- In every state the contract holds of a token what its buckets hold if and only if no bucket has
been paid out to the contract itself. No bucket is negative, every fee that is taken is split
exactly, and what changes the split or lowers a bucket has been approved. -/
theorem treasury_ledger_iff (hexact : ExactTransfers P) (hburns : ExactBurns P)
    (hharmless : HarmlessTargets P self) (houtside : Undisturbed self outside)
    (hstart : ∀ p, start p → Tokens.balance p token self = some 0)
    (run : (governance self outside start).Run history d) :
    (Tokens.balance d.peers token self = some (d.store.held token) ↔
        ∀ i ∈ invocations history, i.op.paysItself self token = false) ∧
      (∀ bucket, 0 ≤ d.store.balance token bucket) ∧
      ∀ i d', (governance self outside start).step d (.invoked i) d' →
        (∀ payer amount, i.op = .ingestFee payer token amount →
          ∃ parts, SplitsFee self token amount parts d d') ∧
        (SpendsOrResplits d.store d'.store → SignersApproved d.store i.env) := by
  have hs := sound_of_run run
  refine ⟨?_, hs.nonneg token, fun i d' hstep => ?_⟩
  · rw [holdings_of_run hexact hburns hharmless houtside hstart run, ← left_eq_zero_iff run,
      Option.some.injEq]
    omega
  · cases hstep with
    | invoked hadmissible hinvoke =>
      have htransition := GovOp.transitions hinvoke
      refine ⟨?_, htransition.approved hs⟩
      rintro payer amount rfl
      exact splits_fee hexact hburns hs hadmissible htransition

end Run

def usdc : Address := ⟨50⟩

/-- Alice has units of the token in which she pays fees. -/
def feesLedger : StandardLedger :=
  .ofHoldings fun token =>
    if token = usdc then Holdings.empty.set alice 15000 (by decide) else .empty

def treasuryDeployment : Deployment Storage StandardLedger := ⟨.empty, feesLedger, 0, 0⟩

theorem treasury_deployment_initial : alone.initial treasuryDeployment := by
  refine ⟨rfl, fun token => ?_⟩
  show some (valueAt (feesLedger.holdings token).amounts home) = some 0
  simp only [feesLedger, StandardLedger.ofHoldings]
  split <;> rfl

theorem nowhere_undisturbed : Undisturbed home nowhere := fun _ _ h => h.elim

/-- A treasury of two signers takes a fee and pays a part of it to Bob. -/
def paidScript : List (Env × GovOp) :=
  [at_ 1 [admin] (.initializeGovernance admin 1 0 100 1 5000),
    at_ 2 [admin] (.initTreasury admin [alice, bob, carol] 2),
    at_ 3 [alice] (.ingestFee alice usdc 9999),
    at_ 4 [alice, carol] (.withdrawBucket [alice, carol, alice] usdc .buyback bob 1000)]

/-- Its signers pay another part to the contract itself. -/
def selfPaidScript : List (Env × GovOp) :=
  paidScript ++ [at_ 5 [alice, bob] (.withdrawBucket [alice, bob] usdc .treasury home 2000)]

def paidRun : System.Replayed alone invoke System.anything :=
  .of treasuryDeployment treasury_deployment_initial paidScript (by decide +kernel)

def selfPaidRun : System.Replayed alone invoke System.anything :=
  .of treasuryDeployment treasury_deployment_initial selfPaidScript (by decide +kernel)

theorem paid_run : alone.Run paidRun.history paidRun.state :=
  paidRun.run Deployment.next_step System.anything_allowed

theorem self_paid_run : alone.Run selfPaidRun.history selfPaidRun.state :=
  selfPaidRun.run Deployment.next_step System.anything_allowed

theorem treasury_ledger_after_payment :
    Tokens.balance paidRun.state.peers usdc home = some (paidRun.state.store.held usdc) := by
  have hpaid : ∀ i ∈ invocations paidRun.history, i.op.paysItself home usdc = false := by
    decide +kernel
  exact (treasury_ledger_iff StandardLedger.exact_transfers exact_burns (harmless_targets home)
    nowhere_undisturbed (fun _ h => h usdc) paid_run).1.mpr hpaid

/-- The contract still holds what was paid to it, and no bucket does. -/
theorem self_payment_unaccounted : alone.Run selfPaidRun.history selfPaidRun.state ∧
      selfPaidRun.state.store.held usdc = 6000 ∧
      Tokens.balance selfPaidRun.state.peers usdc home = some 8000 ∧
      Tokens.balance selfPaidRun.state.peers usdc home ≠
        some (selfPaidRun.state.store.held usdc) := by
  have hheld : selfPaidRun.state.store.held usdc = 6000 := by decide +kernel
  have hbalance : Tokens.balance selfPaidRun.state.peers usdc home = some 8000 := by decide +kernel
  refine ⟨self_paid_run, hheld, hbalance, ?_⟩
  rw [hheld, hbalance]
  decide

end Backit.Governance
