import Backit.CallRegistry.Configuration

/-!
# The admin set stays operable

A nonempty admin set without repetitions and with a threshold between one and its size can always
bring a proposal to execution. The setter checks the threshold but not the repetitions; the
operations that proposals execute check neither. The condition under which each of them keeps the
set operable is exact.
-/

namespace Backit.CallRegistry

open Soroban Contract Lib

/-- A nonempty admin set has no repetitions, and its threshold is between one and its size. -/
def ContractConfig.Operable (config : ContractConfig) : Prop :=
  config.adminSet ≠ [] →
    config.adminSet.Nodup ∧ 1 ≤ config.adminThreshold ∧
      config.adminThreshold ≤ config.adminSet.length

/-- The stored configuration, if there is one, has an operable admin set. -/
def Storage.Operable (s : Storage) : Prop := ∀ config ∈ s.control.config, config.Operable

/-- The condition on an executed operation: a threshold that is set is within the size of the set,
the first member to join finds a threshold of one, and the members left after a removal still
reach the threshold. -/
def Operation.keepsAdmins (config : ContractConfig) : Operation → Bool
  | .setAdminThreshold threshold =>
    decide (config.adminSet = [] ∨ 1 ≤ threshold ∧ threshold ≤ config.adminSet.length)
  | .addAdmin _ => decide (config.adminSet ≠ [] ∨ config.adminThreshold = 1)
  | .removeAdmin admin =>
    decide (config.adminSet.filter (· ≠ admin) = [] ∨
      config.adminThreshold ≤ (config.adminSet.filter (· ≠ admin)).length)
  | _ => true

/-- A new admin set has no repetitions, and an executed operation meets its condition. -/
def Storage.keepsAdmins (s : Storage) : Label → Bool
  | .invoked ⟨_, .desk (.setAdminSet newAdmins _), _⟩ => decide newAdmins.Nodup
  | .invoked ⟨_, .executeAdminProposal _ proposalId, _⟩ =>
    (s.control.proposals proposalId).all fun proposal =>
      s.control.config.all proposal.operation.keepsAdmins
  | _ => true

/-- Setting a threshold, adding and removing a member keep an operable set operable exactly under
their conditions. -/
theorem Operation.operable_iff {config : ContractConfig} (h : config.Operable)
    (operation : Operation) :
    (operation.rewrite config).Operable ↔ operation.keepsAdmins config = true := by
  cases operation with
  | setFee | setMinStake | pause | unpause | upgrade | withdrawFees => exact iff_of_true h rfl
  | setAdminThreshold threshold =>
    simp only [Operation.keepsAdmins, decide_eq_true_eq, Operation.rewrite, ContractConfig.Operable]
    constructor
    · intro hoperable
      by_cases hempty : config.adminSet = []
      · exact .inl hempty
      · exact .inr (hoperable hempty).2
    · rintro (hempty | hbounds) hne
      · exact absurd hempty hne
      · exact ⟨(h hne).1, hbounds⟩
  | addAdmin admin =>
    simp only [Operation.keepsAdmins, decide_eq_true_eq, Operation.rewrite]
    split
    · next hmember => exact iff_of_true h (.inl (List.ne_nil_of_mem hmember))
    · next hnew =>
      have hgrown : config.adminSet ++ [admin] ≠ [] := by simp
      have hlength : (config.adminSet ++ [admin]).length = config.adminSet.length + 1 := by simp
      constructor
      · intro hoperable
        obtain ⟨-, hpos, hle⟩ := hoperable hgrown
        dsimp only at hpos hle
        by_cases hempty : config.adminSet = []
        · rw [hlength, hempty, List.length_nil] at hle
          exact .inr (by omega)
        · exact .inl hempty
      · intro hkeeps _
        have hnodup : config.adminSet.Nodup := by
          by_cases hempty : config.adminSet = []
          · rw [hempty]
            exact .nil
          · exact (h hempty).1
        refine ⟨hnodup.append (List.nodup_singleton admin) (List.disjoint_singleton.mpr hnew), ?_⟩
        dsimp only
        rw [hlength]
        rcases hkeeps with hne | hone
        · have hbounds := (h hne).2
          omega
        · omega
  | removeAdmin admin =>
    simp only [Operation.keepsAdmins, decide_eq_true_eq, Operation.rewrite, ContractConfig.Operable]
    constructor
    · intro hoperable
      by_cases hempty : config.adminSet.filter (· ≠ admin) = []
      · exact .inl hempty
      · exact .inr (hoperable hempty).2.2
    · rintro (hempty | hle) hne
      · exact absurd hempty hne
      · have hbefore : config.adminSet ≠ [] := by
          rintro hempty
          rw [hempty] at hne
          exact hne rfl
        exact ⟨(h hbefore).1.filter _, (h hbefore).2.1, hle⟩

/-- The members of an operable admin set can bring any proposal to execution: once all of them have
approved it, execution finds enough approvals. -/
theorem ContractConfig.Operable.executable {T : Type} {config : ContractConfig}
    (h : config.Operable) (hset : config.adminSet ≠ []) {proposal : Proposal}
    (happroved : ∀ a ∈ config.adminSet, a ∈ proposal.approvals) (env : Env)
    (f : Frame Storage T Event) :
    run (checkApprovals config proposal) env f = .ok ((), f) := by
  obtain ⟨hnodup, -, hle⟩ := h hset
  have hcount := (List.subperm_of_subset hnodup happroved).length_le
  unfold checkApprovals
  rw [if_pos hset, run_rejectIf]
  exact ⟨by omega, rfl⟩

section Runs

variable {T : Type} [Tokens T] [Crypto] {self : Address} {outside : T → T → Prop} {w w' : World T}
  {l : Label} {history : List Label}

/-- From a state with an operable admin set, a step leads to another exactly if it meets the
condition. -/
theorem operable_step_iff (h : w.store.Operable) (hstep : (registry self outside).step w l w') :
    w'.store.Operable ↔ w.store.keepsAdmins l = true := by
  cases hstep with
  | elsewhere => exact iff_of_true h rfl
  | @invoked env action f _ _ _ hrun =>
    cases action with
    | market op =>
      refine iff_of_true ?_ rfl
      unfold Storage.Operable
      rw [(MarketOp.steps hrun).control]
      exact h
    | desk op =>
      obtain ⟨desk, hdesk, rfl⟩ := run_onDesk.mp hrun
      have hchange := (DeskOp.steps hdesk).change
      change (∀ config ∈ desk.configuration.contract, config.Operable) ↔ _
      change DeskChange env w.store.configuration op desk.configuration at hchange
      generalize desk.configuration = after at hchange
      have hkept : ∀ config ∈ w.store.configuration.contract, config.Operable := h
      cases hchange with
      | kept hop =>
        refine iff_of_true hkept ?_
        cases op <;> first | rfl | cases hop
      | initialised =>
        refine iff_of_true ?_ rfl
        rintro _ ⟨⟩ hset
        exact absurd rfl hset
      | trustline | governance | xlmSac | maxDuration => exact iff_of_true hkept rfl
      | @rewritten _ config hconfig _ hbounds =>
        have hbefore : config.Operable := hkept config hconfig
        cases op with
        | setAdminSet newAdmins newThreshold =>
          obtain ⟨hpos, hle⟩ := hbounds _ _ rfl
          simp only [Option.mem_def, Option.some.injEq, forall_eq',
            Storage.keepsAdmins, decide_eq_true_eq]
          constructor
          · intro hoperable
            have hne : newAdmins ≠ [] := by
              rintro rfl
              rw [List.length_nil] at hle
              omega
            exact (hoperable hne).1
          · intro hnodup _
            exact ⟨hnodup, hpos, hle⟩
        | _ =>
          refine iff_of_true ?_ rfl
          rintro _ ⟨⟩
          exact hbefore
    | executeAdminProposal caller proposalId =>
      obtain ⟨proposal, config, hproposal, -, -, hconfig, -, -, -, hexec⟩ :=
        execute_admin_proposal_executes hrun
      change w.store.control.proposals proposalId = some proposal at hproposal
      change w.store.control.config = some config at hconfig
      have hbefore : config.Operable := h config hconfig
      have hafter : f.store.control.config = some (proposal.operation.rewrite config) := by
        rw [hexec.configured]
      have hcondition : w.store.keepsAdmins
          (.invoked ⟨env, .executeAdminProposal caller proposalId, f.effects⟩) =
            proposal.operation.keepsAdmins config := by
        simp only [Storage.keepsAdmins, hproposal, hconfig, Option.all_some]
      rw [hcondition, ← Operation.operable_iff hbefore]
      unfold Storage.Operable
      rw [hafter]
      simp only [Option.mem_def, Option.some.injEq, forall_eq']

/-- The steps of the run meet the condition. -/
abbrev keepsAdmins : System.Guard (World T) Label := fun _ w l => w.store.keepsAdmins l = true

/-- The steps of the run start from operable admin sets. -/
abbrev fromOperable : System.Guard (World T) Label := fun _ w _ => w.store.Operable

/-- The admin set is operable throughout a run exactly if every step meets its condition, and then
a proposal that all members have approved has enough approvals to be executed. -/
theorem admin_set_operable_iff :
    ((registry self outside).RunWhere fromOperable history w ∧ w.store.Operable ↔
        (registry self outside).RunWhere keepsAdmins history w) ∧
      ((registry self outside).RunWhere keepsAdmins history w →
        ∀ config ∈ w.store.control.config, config.adminSet ≠ [] →
          ∀ proposal : Proposal, (∀ a ∈ config.adminSet, a ∈ proposal.approvals) →
            ∀ env (f : Frame Storage T Event),
              run (checkApprovals config proposal) env f = .ok ((), f)) := by
  have hforward : ∀ {h : List Label} {s : World T},
      (registry self outside).RunWhere keepsAdmins h s →
        (registry self outside).RunWhere fromOperable h s ∧ s.store.Operable := by
    intro h s run
    refine run.invariant (I := fun h s =>
      (registry self outside).RunWhere fromOperable h s ∧ s.store.Operable) ?_ ?_
    · intro s hs
      refine ⟨.start hs, ?_⟩
      rw [show s.store = Storage.empty from hs]
      rintro _ ⟨⟩
    · rintro h s l s' - ⟨hrun, hoperable⟩ hstep hguard
      exact ⟨hrun.tail hstep hoperable, (operable_step_iff hoperable hstep).mpr hguard⟩
  refine ⟨⟨?_, hforward⟩, fun run config hconfig hset proposal happroved env f => ?_⟩
  · rintro ⟨run, hlast⟩
    refine run.invariant (I := fun h s => s.store.Operable →
      (registry self outside).RunWhere keepsAdmins h s) (fun s hs _ => .start hs) ?_ hlast
    intro h s l s' _ ih hstep hoperable hafter
    exact (ih hoperable).tail hstep ((operable_step_iff hoperable hstep).mp hafter)
  · exact ((hforward run).2 config hconfig).executable hset happroved env f

end Runs

section Scenario

attribute [local instance] noCrypto

/-- Alice and Bob are the admin set and both must approve. They remove Bob. -/
def removalScript : List (Env × Action) :=
  [at_ 1 [adminAddress] (.desk (.initializeContract adminAddress managerAddress 0)),
    at_ 2 [adminAddress] (.desk (.setAdminSet [alice, bob] 2)),
    at_ 3 [alice] (.desk (.proposeAdminOperation alice (.removeAdmin bob) 0)),
    at_ 4 [alice] (.desk (.approveAdminProposal alice 1)),
    at_ 5 [bob] (.desk (.approveAdminProposal bob 1)),
    at_ 6 [alice] (.executeAdminProposal alice 1)]

def removalRun : Replayed (T := StandardLedger) home anything :=
  .of freshWorld fresh_world_empty removalScript (by decide +kernel)

/-- Two of one member must approve. -/
theorem threshold_out_of_reach :
    (registry home fun _ _ => False).Run removalRun.history removalRun.world ∧
      (removalRun.world.store.control.config.map fun c => (c.adminSet, c.adminThreshold)) =
        some ([alice], 2) ∧
      ¬ removalRun.world.store.Operable := by
  have hset : (removalRun.world.store.control.config.map fun c =>
      (c.adminSet, c.adminThreshold)) = some ([alice], 2) := by decide +kernel
  refine ⟨removalRun.run anything_allowed, hset, fun hoperable => ?_⟩
  obtain ⟨config, hconfig, hpair⟩ := Option.map_eq_some_iff.mp hset
  obtain ⟨hadmins, hthreshold⟩ := Prod.mk.inj hpair
  have hle := (hoperable config hconfig (by simp [hadmins])).2.2
  rw [hadmins, hthreshold, List.length_singleton] at hle
  omega

end Scenario

end Backit.CallRegistry
