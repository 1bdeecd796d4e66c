import Backit.Platform.OnePayout
import Backit.Platform.RolloverFees

/-!
# Lineages of rollovers

Each rollover adds a link to the lineage of the market it came from, and the market it went to has
the longer lineage. The parent passes on its own link only, so a market shows the last link of its
lineage, which is all of it only for the first rollover of a chain. As long as nobody writes the
records of a market directly, a market's parent is the market whose rollover funded it.
-/

namespace Backit.Platform

open Soroban Contract Lib OutcomeManager PredictionMarket PredictionMarketFactory

/-- What stands at an address has this lineage. Only markets have one. -/
def Resident.Descends (lineage : List RolloverLink) : Resident → Prop
  | .market s => s.Descends lineage
  | .running => True
  | _ => lineage = []

def Label.isRollover : Label → Bool
  | .traded r => r.op.isRollover
  | _ => false

/-- The step writes the records of a market's lineage directly. -/
def Label.writesLineage : Label → Bool
  | .traded r => r.op.writesLineage
  | _ => false

section Keeps

variable {S : Type}

/-- No resident's lineage changes, and no running contract is replaced. -/
structure KeepsLineages (l₀ l₁ : Ledger S) : Prop where
  descends : ∀ address lineage, (l₀.resident address).Descends lineage →
    (l₁.resident address).Descends lineage
  running : ∀ address, l₀.resident address = .running → l₁.resident address = .running

namespace KeepsLineages

variable {l₀ l₁ l₂ : Ledger S} {address : Address} {r : Resident}

theorem of_resident (h : l₁.resident = l₀.resident) : KeepsLineages l₀ l₁ := by
  refine ⟨fun address _ => ?_, fun address => ?_⟩ <;> rw [h] <;> exact id

theorem trans (hfirst : KeepsLineages l₀ l₁) (hlater : KeepsLineages l₁ l₂) :
    KeepsLineages l₀ l₂ where
  descends address lineage h := hlater.descends address lineage (hfirst.descends address lineage h)
  running address h := hlater.running address (hfirst.running address h)

theorem set (hfree : l₀.resident address ≠ .running)
    (h : ∀ lineage, (l₀.resident address).Descends lineage → r.Descends lineage) (rest : S) :
    KeepsLineages l₀ ((l₀.withRest rest).set address r) := by
  refine ⟨fun other lineage hother => ?_, fun other hother => ?_⟩
  · by_cases heq : other = address
    · subst heq
      rw [Ledger.set_resident]
      exact h lineage hother
    · rwa [Ledger.set_resident_ne _ _ heq]
  · by_cases heq : other = address
    · subst heq
      exact absurd hother hfree
    · rwa [Ledger.set_resident_ne _ _ heq]

theorem put_back (hran : KeepsLineages (l₀.set address .running) l₁)
    (hfree : l₀.resident address ≠ .running)
    (h : ∀ lineage, (l₀.resident address).Descends lineage → r.Descends lineage) :
    KeepsLineages l₀ (l₁.set address r) := by
  refine ⟨fun other lineage hother => ?_, fun other hother => ?_⟩
  · by_cases heq : other = address
    · subst heq
      rw [Ledger.set_resident]
      exact h lineage hother
    · rw [Ledger.set_resident_ne _ _ heq]
      refine hran.descends other lineage ?_
      rwa [Ledger.set_resident_ne _ _ heq]
  · by_cases heq : other = address
    · subst heq
      exact absurd hother hfree
    · rw [Ledger.set_resident_ne _ _ heq]
      refine hran.running other ?_
      rwa [Ledger.set_resident_ne _ _ heq]

end KeepsLineages

variable [Strangers S] [Crypto] {env : Env} {address : Address} {l₀ l₁ : Ledger S}

theorem Reaches.keeps_lineages {registryOp : CallRegistry.MarketOp}
    {marketOp : PredictionMarket.MarketOp} (h : Reaches env address registryOp marketOp l₀ l₁)
    (hop : marketOp.writesLineage = false) : KeepsLineages l₀ l₁ := by
  cases h with
  | registry hresident _ =>
    refine .set (by simp [hresident]) (fun lineage h => ?_) _
    rw [hresident] at h
    exact h
  | market hresident hmade =>
    obtain ⟨effects, -, -, hstep⟩ := hmade
    refine .set (by simp [hresident]) (fun lineage h => ?_) _
    rw [hresident] at h
    exact PredictionMarket.Storage.Descends.step h hstep hop
  | stranger _ => exact .of_resident rfl

variable {effects : List (Effect Act)}

theorem calls_keep_lineages (h : Calls env l₀ effects l₁) : KeepsLineages l₀ l₁ := by
  induction h with
  | nil => exact .of_resident rfl
  | event _ ih => exact ih
  | resolveCall _ hcall ih => exact ih.trans ((resolve_call_reaches hcall).keeps_lineages rfl)
  | releaseEscrow _ hcall ih => exact ih.trans ((release_escrow_reaches hcall).keeps_lineages rfl)
  | markSettled _ hcall ih => exact ih.trans ((mark_settled_reaches hcall).keeps_lineages rfl)

theorem report_keeps_lineages [Network] {s : Settings} {t t' : Tally} {op : ReportOp}
    (h : ReportStep env s op t l₀ effects t' l₁) :
    KeepsLineages l₀ l₁ := by
  cases h with
  | decide _ _ _ _ hcall => exact (resolve_call_reaches hcall).keeps_lineages rfl
  | confirm _ _ _ _ hcall => exact (resolve_call_reaches hcall).keeps_lineages rfl
  | finalizeOutcome _ _ _ _ hcall => exact (resolve_call_reaches hcall).keeps_lineages rfl
  | _ => exact .of_resident rfl

theorem payout_keeps_lineages [Network] {s : Settings} {t : Tally} {op : PayoutOp}
    {p p' : Payouts} {payments : List Payment}
    (h : PayoutStep env s t op p l₀ payments effects p' l₁) : KeepsLineages l₀ l₁ := by
  cases h with
  | claimPayout _ _ _ _ _ _ hcalls => exact calls_keep_lineages hcalls
  | claimOnBehalf _ _ _ _ _ _ hcalls => exact calls_keep_lineages hcalls
  | batch _ _ _ _ _ _ _ _ hcalls => exact calls_keep_lineages hcalls
  | markSettled _ _ _ hcall => exact (mark_settled_reaches hcall).keeps_lineages rfl
  | _ => exact .of_resident rfl

theorem manager_action_keeps_lineages [Network] {action : OutcomeManager.Action} {u : Unit}
    {f f' : Frame OutcomeManager.Storage (Ledger S) Act}
    (h : run action.perform env f = .ok (u, f')) : KeepsLineages f.tokens f'.tokens := by
  cases action with
  | settings op =>
    obtain ⟨c, -, rfl⟩ := run_onSettings.mp h
    exact .of_resident rfl
  | report op =>
    obtain ⟨t, others, effects, hstep, rfl⟩ := ReportOp.steps h
    exact report_keeps_lineages hstep
  | payout op =>
    obtain ⟨payments, effects, p, others, hstep, rfl⟩ := PayoutOp.steps h
    exact payout_keeps_lineages hstep

section Markets

omit [Crypto]

/-- A call of a market makes one transition there, and a call of a stranger none. -/
theorem call_market_cases {marketOp : PredictionMarket.MarketOp} {α : Type}
    {entry : Market (Ledger S) α} {elsewhere : Option S}
    (hmakes : ∀ {env f f' a}, run entry env f = .ok (a, f') → Makes env marketOp f f')
    (h : l₀.callMarket env address entry elsewhere = some l₁) :
    (∃ s s' effects, l₀.resident address = .market s ∧
      Transition (l₀.callee env address) marketOp s effects s' ∧
      l₁ = (l₀.withRest l₁.rest).set address (.market s')) ∨
    l₀.resident address = .stranger ∧ l₁.resident = l₀.resident := by
  unfold Ledger.callMarket at h
  split at h
  · next s hresident =>
    obtain ⟨⟨a, l₂⟩, hvisit, rfl⟩ := Option.map_eq_some_iff.mp h
    obtain ⟨f, ⟨effects, -, -, hstep⟩, rfl⟩ := visit_market hmakes hvisit
    exact .inl ⟨s, f.store, effects, hresident, hstep, rfl⟩
  · next hresident =>
    obtain ⟨rest, -, rfl⟩ := Option.map_eq_some_iff.mp h
    exact .inr ⟨hresident, rfl⟩
  · cases h

theorem call_market_keeps_lineages {marketOp : PredictionMarket.MarketOp} {α : Type}
    {entry : Market (Ledger S) α} {elsewhere : Option S}
    (hmakes : ∀ {env f f' a}, run entry env f = .ok (a, f') → Makes env marketOp f f')
    (hop : marketOp.writesLineage = false)
    (h : l₀.callMarket env address entry elsewhere = some l₁) : KeepsLineages l₀ l₁ := by
  obtain ⟨s, s', effects, hresident, hstep, heq⟩ | ⟨-, heq⟩ := call_market_cases hmakes h
  · rw [heq]
    refine .set (by simp [hresident]) (fun lineage h => ?_) _
    rw [hresident] at h
    exact PredictionMarket.Storage.Descends.step h hstep hop
  · exact .of_resident heq

theorem transfer_keeps_lineages {token sender recipient : Address} {amount : Int}
    (h : Tokens.transfer env token sender recipient amount l₀ = some l₁) :
    KeepsLineages l₀ l₁ := by
  obtain ⟨rest, -, rfl⟩ := Option.map_eq_some_iff.mp h
  exact .of_resident rfl

theorem deploy_keeps_lineages [Deployer] {wasmHash salt : BytesN 32} {params : MarketParams}
    {market : Address}
    (h : MarketDeployer.deployV2 env wasmHash salt params l₀ = some (market, l₁)) :
    KeepsLineages l₀ l₁ := by
  simp only [MarketDeployer.deployV2] at h
  split at h
  · next hfree =>
    obtain ⟨⟨u, l₂⟩, hvisit, heq⟩ := Option.map_eq_some_iff.mp h
    cases heq
    obtain ⟨f, ⟨effects, -, -, hstep⟩, rfl⟩ := visit_market construct_makes hvisit
    cases hresident : l₀.resident (Deployer.contractAddress env.contract salt) with
    | stranger =>
      refine .set (by simp [hresident]) (fun lineage hlineage => ?_) _
      rw [hresident] at hlineage
      obtain rfl : lineage = [] := hlineage
      exact PredictionMarket.Storage.empty_descends.step hstep rfl
    | _ => simp [hresident, Resident.isStranger] at hfree
  · cases h

end Markets

variable [Network] [Deployer]

theorem deploy_market_keeps_lineages {creator market : Address} {args : MarketInitArgs}
    (h : Peers.deployMarket env address creator args l₀ = some (market, l₁)) :
    KeepsLineages l₀ l₁ := by
  simp only [Peers.deployMarket] at h
  split at h
  · next s hresident =>
    obtain ⟨f, hrun, rfl⟩ := Ledger.visit_eq_some.mp h
    obtain ⟨config, -, hdeploy, -⟩ := deploy_market_deploys hrun
    refine (deploy_keeps_lineages hdeploy).put_back (by simp [hresident]) fun lineage h => ?_
    rw [hresident] at h
    exact h
  · obtain ⟨⟨_, rest⟩, -, heq⟩ := Option.map_eq_some_iff.mp h
    cases heq
    exact .of_resident rfl
  · cases h

theorem claim_no_release_keeps_lineages {callId : Nat} {staker : Address}
    {stake winning losing : Int}
    (h : Peers.claimPayoutNoRelease env address callId staker stake winning losing l₀ = some l₁) :
    KeepsLineages l₀ l₁ := by
  obtain ⟨s, x, p', hresident, -, -, rfl⟩ | ⟨-, heq⟩ := claim_no_release_records h
  · refine .set (by simp [hresident]) (fun lineage h => ?_) l₀.rest
    rw [hresident] at h
    exact h
  · exact .of_resident heq

section Rollover

variable {user : Address} {rollover : RolloverConfig}
  {f f' : Frame PredictionMarket.Storage (Ledger S) PredictionMarket.Event}
  {config : MarketConfig} {call : Call} {terms : RolloverTerms} {newMarket : Address}
  {newCallId : Nat} {stages : RolloverStages (Ledger S)}

/-- Up to the writing of the chain a rollover keeps the lineages. -/
theorem rollover_keeps_lineages
    (h : RolledOver env user rollover f f' config call terms newMarket newCallId stages) :
    KeepsLineages f.tokens stages.topped := by
  obtain ⟨newEndTs, hcalls⟩ := h.calls
  have hstake : KeepsLineages stages.claimed stages.staked := by
    have hstake := hcalls.stake
    split at hstake
    · exact call_market_keeps_lineages stake_on_call_makes rfl hstake
    · exact .of_resident (congrArg Ledger.resident hstake)
  have hbonus : KeepsLineages stages.staked stages.topped := by
    have hbonus := hcalls.bonus
    split at hbonus
    · exact transfer_keeps_lineages hbonus
    · exact .of_resident (congrArg Ledger.resident hbonus)
  exact (deploy_market_keeps_lineages hcalls.deploy).trans <|
    (transfer_keeps_lineages hcalls.pay).trans <|
      (claim_no_release_keeps_lineages hcalls.claim).trans <| hstake.trans hbonus

/-- The link that a rollover adds. -/
def rolloverLink (env : Env) (config : MarketConfig) (call : Call) (terms : RolloverTerms) :
    RolloverLink :=
  ⟨config.callId, call.condition, terms.split.rolled, env.timestamp⟩

/-- The new market gets the link, unless a stranger is at its address. -/
theorem rollover_links
    (h : RolledOver env user rollover f f' config call terms newMarket newCallId stages) :
    (stages.topped.resident newMarket = .stranger ∧
      f'.tokens.resident = stages.topped.resident) ∨
    ∃ s s', stages.topped.resident newMarket = .market s ∧
      (∀ before, s'.Descends (before ++ [rolloverLink env config call terms])) ∧
      f'.tokens.resident = Function.update stages.topped.resident newMarket (.market s') := by
  obtain ⟨newEndTs, hcalls⟩ := h.calls
  rw [h.result]
  rcases call_market_cases store_rollover_chain_makes hcalls.chain with
    ⟨s, s₁, effects₁, hresident, hchain, heq₁⟩ | ⟨hresident, heq₁⟩ <;>
  rcases call_market_cases set_parent_call_makes hcalls.link with
    ⟨s₂, s', effects₂, hresident₁, hlink, heq₂⟩ | ⟨hresident₁, heq₂⟩
  · rw [heq₁, Ledger.set_resident] at hresident₁
    cases hresident₁
    refine .inr ⟨s, s', hresident, PredictionMarket.Storage.Descends.of_rollover hchain hlink, ?_⟩
    rw [heq₂, heq₁]
    exact Function.update_idem ..
  · rw [heq₁, Ledger.set_resident] at hresident₁
    cases hresident₁
  · rw [heq₁, hresident] at hresident₁
    cases hresident₁
  · exact .inl ⟨hresident, heq₂.trans heq₁⟩

end Rollover

section Steps

variable {outside : S → S → Prop} {w w' : World S} {l : Label}

/-- A step that is no rollover and does not write the records directly keeps the lineages. -/
theorem WorldStep.keeps_lineages (h : WorldStep outside w l w') (hroll : l.isRollover = false)
    (hdirect : l.writesLineage = false) : KeepsLineages w.ledger w'.ledger := by
  cases h with
  | elsewhere => exact .of_resident rfl
  | lapsed hresident =>
    refine .set (by simp [hresident]) (fun lineage h => ?_) w.ledger.rest
    rw [hresident] at h
    exact h
  | @deployed address kind hfree =>
    cases hresident : w.ledger.resident address with
    | stranger =>
      refine .set (by simp [hresident]) (fun lineage h => ?_) w.ledger.rest
      rw [hresident] at h
      obtain rfl : lineage = [] := h
      cases kind with
      | market => exact PredictionMarket.Storage.empty_descends
      | _ => rfl
    | _ => simp [hresident, Resident.isStranger] at hfree
  | produced hresident hinvoke =>
    obtain ⟨-, f, hrun, -, rfl⟩ := World.invoke_eq_some.mp hinvoke
    refine .put_back ?_ (by simp [hresident]) fun lineage h => by rwa [hresident] at h
    obtain heq | ⟨_, _, _, _, hdeploy⟩ := FactoryOp.deploys hrun
    · exact .of_resident (congrArg Ledger.resident heq)
    · exact deploy_keeps_lineages hdeploy
  | managed hresident hinvoke =>
    obtain ⟨-, f, hrun, rfl, rfl⟩ := World.invoke_eq_some.mp hinvoke
    exact (manager_action_keeps_lineages hrun).put_back (by simp [hresident]) fun lineage h => by
      rwa [hresident] at h
  | registered hresident hinvoke =>
    obtain ⟨-, f, hrun, rfl, rfl⟩ := World.invoke_eq_some.mp hinvoke
    exact .put_back (.of_resident (registry_action_resident hrun)) (by simp [hresident])
      fun lineage h => by rwa [hresident] at h
  | traded hresident hinvoke =>
    obtain ⟨-, f, hrun, rfl, rfl⟩ := World.invoke_eq_some.mp hinvoke
    obtain ⟨effects, -, hreplay, hstep⟩ := MarketOp.makes hroll hrun
    refine .put_back (.of_resident (replays_resident hreplay)) (by simp [hresident])
      fun lineage h => ?_
    rw [hresident] at h
    exact PredictionMarket.Storage.Descends.step h hstep hdirect

end Steps

end Keeps

section Runs

variable {S : Type} [Strangers S] [Crypto] [Network] [Deployer] {outside : S → S → Prop}

/-- The lineages after a rollover from a market to a child. -/
def extendLineage (l : Ledger S) (lineage : Address → List RolloverLink)
    (market child : Address) (link : RolloverLink) : Address → List RolloverLink :=
  if (l.resident child).isStranger = true then lineage
  else Function.update lineage child (lineage market ++ [link])

/-- The lineages that the rollovers of an execution give to the markets: the links of the rollovers
that lead to a market, one after the other, oldest first. -/
inductive Lineages (outside : S → S → Prop) :
    List Label → World S → (Address → List RolloverLink) → Prop where
  | fresh {w} : (platform outside).initial w → Lineages outside [] w fun _ => []
  | rolled {history w lineage env user rollover s f config call terms child newCallId stages} :
      Lineages outside history w lineage → w.Admits env →
      w.ledger.resident env.contract = .market s →
      run (MarketOp.claimAndRollover user config.callId rollover).perform env
        ⟨s, w.ledger.set env.contract .running, []⟩ = .ok ((), f) →
      RolledOver env user rollover ⟨s, w.ledger.set env.contract .running, []⟩ f config call terms
        child newCallId stages →
      Lineages outside
        (.traded ⟨env, .claimAndRollover user config.callId rollover, f.effects⟩ :: history)
        ⟨f.tokens.set env.contract (.market f.store), env.timestamp, env.sequence⟩
        (extendLineage (f.tokens.set env.contract (.market f.store)) lineage env.contract child
          (rolloverLink env config call terms))
  | other {history w l w' lineage} :
      Lineages outside history w lineage → WorldStep outside w l w' → l.isRollover = false →
      Lineages outside (l :: history) w' lineage

variable (S) in
/-- A rollover in the history moved the link's amount from the market of the link to the child. -/
def FundedBy (history : List Label) (child : Address) (link : RolloverLink) : Prop :=
  ∃ env user rollover config call terms newCallId,
    ∃ (f f' : Frame PredictionMarket.Storage (Ledger S) PredictionMarket.Event) (stages : _),
      RolledOver env user rollover f f' config call terms child newCallId stages ∧
      .traded ⟨env, .claimAndRollover user config.callId rollover, f'.effects⟩ ∈ history ∧
      link = rolloverLink env config call terms

theorem FundedBy.mono {history : List Label} {child : Address} {link : RolloverLink}
    (h : FundedBy S history child link) (l : Label) : FundedBy S (l :: history) child link := by
  obtain ⟨env, user, rollover, config, call, terms, newCallId, f, f', stages, hrolled, hmem,
    hlink⟩ := h
  exact ⟨env, user, rollover, config, call, terms, newCallId, f, f', stages, hrolled,
    .tail _ hmem, hlink⟩

section Rolled

variable {env : Env} {user : Address} {rollover : RolloverConfig} {s : PredictionMarket.Storage}
  {f : Frame PredictionMarket.Storage (Ledger S) PredictionMarket.Event} {config : MarketConfig}
  {call : Call} {terms : RolloverTerms} {child : Address} {newCallId : Nat}
  {stages : RolloverStages (Ledger S)} {l : Ledger S}

/-- After a rollover the residents have the extended lineages. -/
theorem rolled_descends {lineage : Address → List RolloverLink}
    (h : ∀ address, (l.resident address).Descends (lineage address))
    (hresident : l.resident env.contract = .market s)
    (hrolled : RolledOver env user rollover ⟨s, l.set env.contract .running, []⟩ f config call
      terms child newCallId stages) (address : Address) :
    ((f.tokens.set env.contract (.market f.store)).resident address).Descends
      (extendLineage (f.tokens.set env.contract (.market f.store)) lineage env.contract child
        (rolloverLink env config call terms) address) := by
  have hkeeps := rollover_keeps_lineages hrolled
  have hself : stages.topped.resident env.contract = .running :=
    hkeeps.running env.contract (Ledger.set_resident ..)
  have hother : ∀ a, a ≠ env.contract → (stages.topped.resident a).Descends (lineage a) := by
    intro a ha
    refine hkeeps.descends a _ ?_
    rw [Ledger.set_resident_ne _ _ ha]
    exact h a
  have hstore : (Resident.market f.store).Descends (lineage env.contract) := by
    have hs := h env.contract
    rw [hresident] at hs
    rw [hrolled.result]
    exact ⟨hs.unconfigured, hs.opened, hs.chain, hs.linked⟩
  have hchild : ∀ r : Resident, stages.topped.resident child = r → r ≠ .running →
      child ≠ env.contract := by
    rintro r hr hrunning rfl
    exact hrunning (hr.symm.trans hself)
  rcases rollover_links hrolled with ⟨hstranger, heq⟩ | ⟨s₁, s', hmarket, hlinked, heq⟩
  · have hne := hchild _ hstranger (by simp)
    have hthere : (f.tokens.set env.contract (.market f.store)).resident child = .stranger := by
      rw [Ledger.set_resident_ne _ _ hne, heq, hstranger]
    rw [extendLineage, if_pos (by rw [hthere]; rfl)]
    by_cases ha : address = env.contract
    · rw [ha, Ledger.set_resident]
      exact hstore
    · rw [Ledger.set_resident_ne _ _ ha, heq]
      exact hother address ha
  · have hne := hchild _ hmarket (by simp)
    have hthere : (f.tokens.set env.contract (.market f.store)).resident child = .market s' := by
      rw [Ledger.set_resident_ne _ _ hne, heq, Function.update_self]
    rw [extendLineage, if_neg (by simp [hthere, Resident.isStranger])]
    by_cases ha : address = env.contract
    · rw [ha, Ledger.set_resident, Function.update_of_ne hne.symm]
      exact hstore
    · by_cases hac : address = child
      · rw [hac, hthere, Function.update_self]
        exact hlinked _
      · rw [Ledger.set_resident_ne _ _ ha, heq, Function.update_of_ne hac,
          Function.update_of_ne hac]
        exact hother address ha

end Rolled

namespace Lineages

variable {history : List Label} {w : World S} {lineage : Address → List RolloverLink}

theorem execution (h : Lineages outside history w lineage) : (platform outside).Run history w := by
  induction h with
  | fresh hinitial => exact ⟨_, hinitial, .refl _ _⟩
  | rolled _ hadmits hresident hrun _ ih =>
    refine ih.tail (.traded hresident ?_) trivial
    exact World.invoke_eq_some.mpr ⟨hadmits, _, hrun, rfl, rfl⟩
  | other _ hstep _ ih => exact ih.tail hstep trivial

theorem path {history' : List Label} {w' : World S} (h : Lineages outside history w lineage)
    (hpath : System.Path (platform outside) (fun _ _ l => l.isRollover = false) history w
      history' w') : Lineages outside history' w' lineage := by
  induction hpath with
  | refl => exact h
  | tail _ hstep hroll ih => exact .other ih hstep hroll

/-- A rollover that pays a bonus extends the lineage of the market that gets the bonus. -/
theorem bonus {env : Env} {user child : Address} {callId : Nat} {rollover : RolloverConfig}
    {effects : List (Effect PredictionMarket.Event)} {w' : World S} {paid : Address × Int}
    {amount : Int} (h : Lineages outside history w lineage)
    (hstep : WorldStep outside w (.traded ⟨env, .claimAndRollover user callId rollover, effects⟩)
      w')
    (hpays : marketPayments effects = [paid, (child, amount)])
    (hchild : (w'.ledger.resident child).isStranger = false) :
    ∃ link : RolloverLink, link.callId = callId ∧
      Lineages outside (.traded ⟨env, .claimAndRollover user callId rollover, effects⟩ :: history)
        w' (Function.update lineage child (lineage env.contract ++ [link])) := by
  cases hstep with
  | traded hresident hinvoke =>
    obtain ⟨hadmits, f, hrun, rfl, rfl⟩ := World.invoke_eq_some.mp hinvoke
    obtain ⟨newCallId, hrolls⟩ := run_ignore.mp hrun
    obtain ⟨config, call, terms, market, stages, rfl, hrolled⟩ := claim_and_rollover_rolls hrolls
    have heffects : f.effects =
        rolloverEffects env config call user terms market newCallId := by
      rw [hrolled.result]
      exact List.append_nil _
    rw [heffects, rollover_payments, List.cons.injEq, paymentOf] at hpays
    have hrolls := h.rolled hadmits hresident hrun hrolled
    refine ⟨rolloverLink env config call terms, rfl, ?_⟩
    obtain ⟨-, hbonus⟩ := hpays
    split at hbonus
    · cases hbonus
      rwa [extendLineage, if_neg (by simp [hchild])] at hrolls
    · cases hbonus

theorem exist (h : (platform outside).Run history w) :
    ∃ lineage, Lineages outside history w lineage := by
  refine System.RunWhere.invariant (I := fun history w =>
    ∃ lineage, Lineages outside history w lineage) (fun w hw => ⟨_, .fresh hw⟩) ?_ h
  rintro history w l w' - ⟨lineage, hlineage⟩ hstep -
  by_cases hroll : l.isRollover = true
  · cases hstep with
    | @traded _ env op s effects hresident hinvoke =>
      cases op with
      | claimAndRollover user callId rollover =>
        obtain ⟨hadmits, f, hrun, rfl, rfl⟩ := World.invoke_eq_some.mp hinvoke
        obtain ⟨newCallId, hrolls⟩ := run_ignore.mp hrun
        obtain ⟨config, call, terms, child, stages, rfl, hrolled⟩ := claim_and_rollover_rolls hrolls
        exact ⟨_, .rolled hlineage hadmits hresident hrun hrolled⟩
      | _ => cases hroll
    | _ => cases hroll
  · exact ⟨lineage, .other hlineage hstep (by simpa using hroll)⟩

/-- As long as nobody writes them directly, the records of every market are those of its
lineage. -/
theorem descends (h : Lineages outside history w lineage)
    (hdirect : ∀ l ∈ history, l.writesLineage = false) (address : Address) :
    (w.ledger.resident address).Descends (lineage address) := by
  induction h generalizing address with
  | fresh hinitial =>
    rw [show _ = _ from hinitial]
    rfl
  | other _ hstep hroll ih =>
    have hkeeps := hstep.keeps_lineages hroll (hdirect _ (.head _))
    exact hkeeps.descends address _ (ih (fun l hl => hdirect l (.tail _ hl)) address)
  | @rolled history w lineage env user rollover s f config call terms child newCallId stages _ _
      hresident _ hrolled ih =>
    exact rolled_descends (ih fun l hl => hdirect l (.tail _ hl)) hresident hrolled address

/-- The last link of a lineage is that of a rollover to the market. -/
theorem funded (h : Lineages outside history w lineage) {address : Address} {link : RolloverLink}
    (hlink : (lineage address).getLast? = some link) : FundedBy S history address link := by
  induction h generalizing address with
  | fresh => cases hlink
  | other _ _ _ ih => exact (ih hlink).mono _
  | @rolled _ _ _ _ _ _ _ _ _ _ _ child _ _ _ _ _ _ hrolled ih =>
    unfold extendLineage at hlink
    split at hlink
    · exact (ih hlink).mono _
    · by_cases ha : address = child
      · rw [ha, Function.update_self, List.getLast?_concat] at hlink
        rw [ha]
        exact ⟨_, _, _, _, _, _, _, _, _, _, hrolled, .head _, (Option.some.inj hlink).symm⟩
      · rw [Function.update_of_ne ha] at hlink
        exact (ih hlink).mono _

end Lineages

variable {history : List Label} {w : World S} {lineage : Address → List RolloverLink}

/-- As long as nobody writes the records of a market directly, a market shows its whole lineage
exactly when that has at most one link, and its parent is the one whose rollover funded it. -/
theorem rollover_chain_complete_iff (h : Lineages outside history w lineage)
    (hdirect : ∀ l ∈ history, l.writesLineage = false) {address : Address}
    {f : Frame PredictionMarket.Storage (Ledger S) PredictionMarket.Event} {config : MarketConfig}
    (hresident : w.ledger.resident address = .market f.store)
    (hconfig : f.store.config = some config) (env : Env) :
    (run (getRolloverChain config.callId) env f = .ok (lineage address, f) ↔
      (lineage address).length ≤ 1) ∧
    run (getParentCall config.callId) env f =
      .ok ((lineage address).getLast?.map fun link => (link.callId, link.rolledAmount), f) ∧
    ∀ link, (lineage address).getLast? = some link → FundedBy S history address link := by
  have hdescends : f.store.Descends (lineage address) := by
    have hmarket := h.descends hdirect address
    rwa [hresident] at hmarket
  refine ⟨?_, hdescends.run_getParentCall hconfig, fun link hlink => h.funded hlink⟩
  rw [hdescends.run_getRolloverChain hconfig, Except.ok.injEq, Prod.mk.injEq]
  exact (and_iff_left rfl).trans PredictionMarket.Storage.Descends.last_eq_iff

end Runs

section Replay

variable {S : Type} [Strangers S] [Crypto] [Network] [Deployer]

/-- Inputs to markets and factories too. -/
inductive TradeInput where
  | base (input : Input)
  | trade (env : Env) (op : MarketOp)
  | produce (env : Env) (op : FactoryOp)

/-- Run an input on a world. -/
def TradeInput.next (w : World S) : TradeInput → Option (Label × World S)
  | .base input => w.next input
  | .trade env op =>
    match w.ledger.resident env.contract with
    | .market s =>
      (w.invoke .market env s op.perform).map fun (effects, w') =>
        (.traded ⟨env, op, effects⟩, w')
    | _ => none
  | .produce env op =>
    match w.ledger.resident env.contract with
    | .factory s => (w.invoke .factory env s op.perform).map fun (_, w') => (.produced env op, w')
    | _ => none

theorem TradeInput.next_step {outside : S → S → Prop} (w : World S) (input : TradeInput)
    (l : Label) (w' : World S) (h : TradeInput.next w input = some (l, w')) :
    (platform outside).step w l w' := by
  cases input with
  | base input => exact World.next_step w input l w' h
  | trade env op =>
    simp only [TradeInput.next] at h
    split at h
    · next s hresident =>
      obtain ⟨⟨effects, w''⟩, hinvoke, heq⟩ := Option.map_eq_some_iff.mp h
      cases heq
      exact .traded hresident hinvoke
    · cases h
  | produce env op =>
    simp only [TradeInput.next] at h
    split at h
    · next s hresident =>
      obtain ⟨⟨effects, w''⟩, hinvoke, heq⟩ := Option.map_eq_some_iff.mp h
      cases heq
      exact .produced hresident hinvoke
    · cases h

/-- What a market's label says happened to tokens and events. -/
def Label.marketEffects : Label → List (Effect PredictionMarket.Event)
  | .traded r => r.effects
  | _ => []

theorem Lineages.rolls {outside : S → S → Prop} {history : List Label} {w w' : World S}
    {lineage : Address → List RolloverLink} {env : Env} {user child : Address} {callId : Nat}
    {rollover : RolloverConfig} {l : Label} {paid : Address × Int} {amount : Int}
    (h : Lineages outside history w lineage)
    (hnext : TradeInput.next w (.trade env (.claimAndRollover user callId rollover)) = some (l, w'))
    (hpays : marketPayments l.marketEffects = [paid, (child, amount)])
    (hchild : (w'.ledger.resident child).isStranger = false) :
    ∃ link : RolloverLink, link.callId = callId ∧
      Lineages outside (l :: history) w'
        (Function.update lineage child (lineage env.contract ++ [link])) := by
  have hstep : WorldStep outside w l w' := TradeInput.next_step w _ l w' hnext
  simp only [TradeInput.next] at hnext
  split at hnext
  · obtain ⟨⟨effects, w''⟩, -, heq⟩ := Option.map_eq_some_iff.mp hnext
    cases heq
    exact h.bonus hstep hpays hchild
  · cases hnext

end Replay

/-- The step rolls nothing over. -/
def rollsNothing {S : Type} : List Label → World S → Label → Bool := fun _ _ l => !l.isRollover

theorem rolls_nothing_rolls {S : Type} (h : List Label) (w : World S) (l : Label)
    (hl : rollsNothing h w l = true) : l.isRollover = false := by
  simpa [rollsNothing] using hl

section Scenarios

/-- SHA-256 of the salts of three markets. -/
def marketDigests : Sha256.Table where
  entries :=
    [(ascii ['m', 'a', 'r', 'k', 'e', 't', ':'] ++ beBytes 8 1,
        ⟨beBytes 32 0x36359e33641a7fec900f754ebef0e7019588f047a532314bbdb0a30db5fd0960, by simp⟩),
      (ascii ['m', 'a', 'r', 'k', 'e', 't', ':'] ++ beBytes 8 2,
        ⟨beBytes 32 0x9bba49c341da18599b2267157c2f305c74b8e837257dfe30e76d561ff74c3e0d, by simp⟩),
      (ascii ['m', 'a', 'r', 'k', 'e', 't', ':'] ++ beBytes 8 3,
        ⟨beBytes 32 0x8856d86504b825f46dbd46ad22a30869011fc88808e5a21d504dd5cd2190a785, by simp⟩)]
  correct := by decide +kernel

/-- SHA-256; nobody checks a signature here. -/
abbrev marketCrypto : Crypto where
  sha256 := marketDigests.sha256
  ed25519Verify _ _ _ := false

/-- Another address for every deployer and salt. -/
abbrev saltedDeployer : Deployer where
  contractAddress deployer salt :=
    ⟨deployer.id * 2 ^ 256 + salt.bytes.foldl (fun n b => n * 256 + b.toNat) 0⟩

attribute [local instance] marketCrypto testNetwork saltedDeployer

/-- The address of the factory's market for a call. -/
def marketOf (callId : Nat) : Address :=
  Deployer.contractAddress PredictionMarket.factoryAddress (marketDeploySalt callId)

def managing (timestamp : Nat) (auths : List Address) (action : OutcomeManager.Action) :
    TradeInput :=
  .base (.manage ⟨OutcomeManager.home, timestamp, timestamp, auths⟩ action)

def producing (timestamp : Nat) (auths : List Address) (op : FactoryOp) : TradeInput :=
  .produce ⟨PredictionMarket.factoryAddress, timestamp, timestamp, auths⟩ op

def trading (callId timestamp : Nat) (auths : List Address) (op : MarketOp) : TradeInput :=
  .trade ⟨marketOf callId, timestamp, timestamp, auths⟩ op

/-- The only oracle resolves a call of the factory, and the admin settles it. -/
def resolving (callId timestamp : Nat) : List TradeInput :=
  [managing timestamp [OutcomeManager.adminAddress]
      (.settings (.setParameter (.registry (marketOf callId)))), managing timestamp []
      (.report (.submitResolutionObservation callId ⟨oracleA, 7, timestamp, timestamp⟩ signatureA)),
    managing timestamp [OutcomeManager.adminAddress]
      (.payout (.markSettled (marketOf callId) callId))]

/-- Alice rolls all that she won in a call over. -/
def rolling (callId timestamp : Nat) : TradeInput :=
  trading callId timestamp [PredictionMarket.alice]
    (.claimAndRollover PredictionMarket.alice callId wholePayout)

/-- Alice wins a thousand units against five hundred of Bob's in the factory's first market. -/
def firstMarket : List TradeInput :=
  [.base (.deploy OutcomeManager.home .manager),
    .base (.deploy PredictionMarket.factoryAddress .factory),
    managing 1 [OutcomeManager.adminAddress]
      (.settings (.initializeManager OutcomeManager.adminAddress [oracleA] 1 collector 100 3600)),
    managing 1 [OutcomeManager.adminAddress]
      (.settings (.setParameter (.resolutionConfig 1 0))), producing 1 [OutcomeManager.adminAddress]
      (.initializeFactory OutcomeManager.adminAddress OutcomeManager.home sampleHash 0),
    producing 1 [OutcomeManager.adminAddress] (.whitelistToken PredictionMarket.usdc),
    producing 2 [PredictionMarket.alice] (.deployMarket PredictionMarket.alice sampleArgs),
    trading 1 3 [PredictionMarket.alice] (.stakeOnCall PredictionMarket.alice 1 1000 1),
    trading 1 4 [PredictionMarket.bob] (.stakeOnCall PredictionMarket.bob 1 500 2)] ++
  resolving 1 100000

/-- Nothing happens elsewhere. -/
abbrev nowhere : StandardLedger → StandardLedger → Prop := fun _ _ => False

/-- What the market of a call shows of its chain. -/
def shownChain (callId : Nat) (w : World StandardLedger) : Option (List Nat) :=
  match w.ledger.resident (marketOf callId) with
  | .market s =>
    (run (getRolloverChain callId) ⟨marketOf callId, w.timestamp, w.sequence, []⟩
      ⟨s, w.ledger, []⟩).toOption.map fun shown => shown.1.map RolloverLink.callId
  | _ => none

/-- The parent that the market of a call shows. -/
def shownParent (callId : Nat) (w : World StandardLedger) : Option (Nat × Int) :=
  match w.ledger.resident (marketOf callId) with
  | .market s =>
    (run (getParentCall callId) ⟨marketOf callId, w.timestamp, w.sequence, []⟩
      ⟨s, w.ledger, []⟩).toOption.bind Prod.fst
  | _ => none

def firstSettled : System.Replayed (platform nowhere) TradeInput.next rollsNothing :=
  .of freshWorld rfl firstMarket (by decide +kernel)

/-- Someone names a parent of the first market, which no rollover funded. -/
def parentNamed : System.Replayed (platform nowhere) TradeInput.next rollsNothing :=
  .of freshWorld rfl (firstMarket ++ [trading 1 100001 [] (.setParentCall 1 999 5)])
    (by decide +kernel)

/-- Alice's first rollover. -/
def firstRolled : Option (Label × World StandardLedger) :=
  TradeInput.next firstSettled.state (rolling 1 100001)

/-- Alice's stake in the second market wins, and she rolls over again. -/
def secondRolled : Option ((List Label × World StandardLedger) × Label × World StandardLedger) := do
  let (l, w) ← firstRolled
  let settled ← System.replay TradeInput.next rollsNothing (resolving 2 101001)
    (l :: firstSettled.history, w)
  let rolled ← TradeInput.next settled.2 (rolling 2 101002)
  pure (settled, rolled)

/-- Nothing is written directly, and the bonus goes to the second market, which shows the first
call as its parent. -/
theorem first_rolled_view : firstRolled.map (fun (l, w) =>
    (marketPayments l.marketEffects, (w.ledger.resident (marketOf 2)).isStranger,
      (l :: firstSettled.history).all (!·.writesLineage), shownParent 2 w)) =
    some ([(PredictionMarket.alice, 1485), (marketOf 2, 14)], false, true, some (1, 1485)) := by
  decide +kernel

/-- Nothing is written directly, and the bonus goes to the third market, which shows a chain of one
call. -/
theorem second_rolled_view : secondRolled.map (fun (settled, l, w) =>
    (marketPayments l.marketEffects, (w.ledger.resident (marketOf 3)).isStranger,
      (l :: settled.1).all (!·.writesLineage), shownChain 3 w)) =
    some ([(PredictionMarket.alice, 1485), (marketOf 3, 14)], false, true, some [2]) := by
  decide +kernel

theorem first_rolled_lineages {l : Label} {w : World StandardLedger}
    (h : firstRolled = some (l, w)) :
    ∃ link : RolloverLink, link.callId = 1 ∧
      Lineages nowhere (l :: firstSettled.history) w
        (Function.update (fun _ => []) (marketOf 2) [link]) := by
  have hview := first_rolled_view
  rw [h, Option.map_some, Option.some.injEq, Prod.mk.injEq, Prod.mk.injEq] at hview
  have hopening : Lineages nowhere firstSettled.history firstSettled.state fun _ => [] :=
    (Lineages.fresh firstSettled.initial).path
      (System.replay_path TradeInput.next_step rolls_nothing_rolls firstSettled.replays)
  exact hopening.rolls h hview.1 hview.2.1

theorem second_rolled_lineages {settled : List Label × World StandardLedger} {l : Label}
    {w : World StandardLedger} (h : secondRolled = some (settled, l, w)) :
    ∃ first second : RolloverLink, first.callId = 1 ∧ second.callId = 2 ∧
      Lineages nowhere (l :: settled.1) w
        (Function.update (Function.update (fun _ => []) (marketOf 2) [first]) (marketOf 3)
          [first, second]) := by
  have hview := second_rolled_view
  rw [h, Option.map_some, Option.some.injEq, Prod.mk.injEq, Prod.mk.injEq] at hview
  simp only [secondRolled, Option.bind_eq_bind, Option.bind_eq_some_iff, Option.pure_def,
    Option.some.injEq, Prod.mk.injEq] at h
  obtain ⟨⟨l₁, w₁⟩, hfirst, ⟨history, w₂⟩, hreplay, ⟨_, _⟩, hrolled, rfl, rfl, rfl⟩ := h
  obtain ⟨first, hcall, hlineages⟩ := first_rolled_lineages hfirst
  have hsettled := hlineages.path
    (System.replay_path TradeInput.next_step rolls_nothing_rolls hreplay)
  obtain ⟨second, hcall', hboth⟩ := hsettled.rolls hrolled hview.1 hview.2.1
  refine ⟨first, second, hcall, hcall', ?_⟩
  rwa [show Env.contract _ = marketOf 2 from rfl, Function.update_self] at hboth

/-- A market that shows a parent is configured for its call. -/
theorem shown_parent_config {callId : Nat} {w : World StandardLedger} {parent : Nat × Int}
    (h : shownParent callId w = some parent) :
    ∃ s config, w.ledger.resident (marketOf callId) = .market s ∧ s.config = some config ∧
      config.callId = callId := by
  unfold shownParent at h
  split at h
  · next s hresident =>
    obtain ⟨_, hshown, -⟩ := Option.bind_eq_some_iff.mp h
    obtain ⟨_, _, hrun, -⟩ := ok_of_view (congrArg (Option.map id) hshown)
    simp only [getParentCall, run_requireConfig_bind, run_requireCallId_bind] at hrun
    obtain ⟨config, hconfig, hcall, -⟩ := hrun
    exact ⟨s, config, hresident, hconfig, hcall⟩
  · cases h

/-- After Alice's first rollover the second market shows its whole lineage. -/
theorem first_rollover_complete :
    ∃ history w lineage config,
      ∃ f : Frame PredictionMarket.Storage (Ledger StandardLedger) PredictionMarket.Event,
      Lineages nowhere history w lineage ∧
      w.ledger.resident (marketOf 2) = .market f.store ∧ f.store.config = some config ∧
      run (getRolloverChain config.callId) rolloverEnv f = .ok (lineage (marketOf 2), f) ∧
      ∃ link, lineage (marketOf 2) = [link] ∧ link.callId = 1 ∧
        FundedBy StandardLedger history (marketOf 2) link := by
  obtain ⟨⟨l, w⟩, hrolled, hview⟩ := Option.map_eq_some_iff.mp first_rolled_view
  obtain ⟨link, hcall, hlineages⟩ := first_rolled_lineages hrolled
  simp only [Prod.mk.injEq] at hview
  obtain ⟨-, -, hall, hshown⟩ := hview
  obtain ⟨s, config, hresident, hconfig, -⟩ := shown_parent_config hshown
  have hdirect : ∀ label ∈ l :: firstSettled.history, label.writesLineage = false := by
    intro label hmem
    simpa using List.all_eq_true.mp hall label hmem
  obtain ⟨hshows, -, hfunded⟩ := rollover_chain_complete_iff hlineages hdirect
    (f := ⟨s, w.ledger, []⟩) hresident hconfig rolloverEnv
  rw [Function.update_self] at hfunded
  refine ⟨_, w, _, config, ⟨s, w.ledger, []⟩, hlineages, hresident, hconfig, hshows.mpr ?_, link,
    Function.update_self .., hcall, hfunded link rfl⟩
  rw [Function.update_self]
  exact le_refl 1

/-- The market of two rollovers shows only the later one, and anyone can name a parent that no
rollover funded. -/
theorem first_ancestor_dropped : (∃ history w lineage, Lineages nowhere history w lineage ∧
      (∀ l ∈ history, l.writesLineage = false) ∧
      (lineage (marketOf 3)).map RolloverLink.callId = [1, 2] ∧ shownChain 3 w = some [2]) ∧
    (platform nowhere).RunWhere (fun _ _ l => l.isRollover = false) parentNamed.history
      parentNamed.state ∧
    shownParent 1 parentNamed.state = some (999, 5) := by
  refine ⟨?_, parentNamed.run TradeInput.next_step rolls_nothing_rolls, by decide +kernel⟩
  obtain ⟨⟨settled, l, w⟩, hrolled, hview⟩ := Option.map_eq_some_iff.mp second_rolled_view
  obtain ⟨first, second, hfirst, hsecond, hlineages⟩ := second_rolled_lineages hrolled
  simp only [Prod.mk.injEq] at hview
  obtain ⟨-, -, hdirect, hshown⟩ := hview
  refine ⟨_, w, _, hlineages, fun label hmem => ?_, ?_, hshown⟩
  · simpa using List.all_eq_true.mp hdirect label hmem
  · rw [Function.update_self, List.map_cons, List.map_singleton, hfirst, hsecond]

end Scenarios

end Backit.Platform
