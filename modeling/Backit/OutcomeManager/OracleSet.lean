import Backit.OutcomeManager.Executions

/-!
# Oracles and their retirement

## The set of oracles

The oracles are kept twice, as a map and as a list, and the quorum must stay within their number.
Adding an oracle and setting the quorum keep that, and so does removing an oracle while the others
still make a quorum. The scheduled removal writes only one of the two copies.
-/

namespace Backit.OutcomeManager

open Soroban Lib

/-- The list names exactly the keys of the map, once each, and a quorum of them can be reached. -/
structure OracleSetOk (s : Settings) : Prop where
  copies : ∃ oracles, s.oracles = some oracles ∧ s.oracleList.Nodup ∧
    (∀ key, key ∈ s.oracleList ↔ key ∈ oracles) ∧
    oracles.entries.length ≤ maxOracles ∧
    ∃ quorum, s.quorum = some quorum ∧ 1 ≤ quorum ∧ quorum ≤ oracles.entries.length

/-- The condition on an operation under which it keeps the set of oracles sound: no key is
initialised twice, a removed oracle leaves a quorum behind, and a scheduled removal is executed
only once the oracle is no longer in the map. -/
def KeepsOracleSet (s : Settings) : SettingsOp → Prop
  | .initializeManager _ oracles _ _ _ _ => oracles.Nodup
  | .removeOracle oracle =>
    oracle ∈ s.oracles.getD ∅ → s.quorum.getD 0 < (s.oracles.getD ∅).entries.length
  | .executeOracleRemoval oracle => oracle ∉ s.oracles.getD ∅
  | _ => True

instance KeepsOracleSet.decidable (s : Settings) :
    (op : SettingsOp) → Decidable (KeepsOracleSet s op)
  | .initializeManager _ oracles _ _ _ _ => inferInstanceAs (Decidable oracles.Nodup)
  | .removeOracle _ => inferInstanceAs (Decidable (_ → _))
  | .executeOracleRemoval _ => inferInstanceAs (Decidable (¬ _))
  | .addOracle _ => inferInstanceAs (Decidable True)
  | .setQuorum _ => inferInstanceAs (Decidable True)
  | .scheduleOracleRemoval _ _ => inferInstanceAs (Decidable True)
  | .setParameter _ => inferInstanceAs (Decidable True)

/-- Every operation on the settings meets the condition. -/
abbrev soundOracleOps {R : Type} : System.Guard (World R) Label := fun _ w l =>
  ∀ r ∈ l.onSettings, KeepsOracleSet w.store.settings r.2

/-- The two copies of the set, and the bounds on the quorum, as they are kept by the steps. -/
structure OracleCopies (s : Settings) (oracles : Map (BytesN 32) Bool) (quorum : Nat) : Prop where
  map : s.oracles = some oracles
  threshold : s.quorum = some quorum
  list : s.oracleList.Perm oracles.keys
  pos : 1 ≤ quorum
  le : quorum ≤ oracles.keys.length
  max : oracles.keys.length ≤ maxOracles

variable {s : Settings} {history : List Label} {oracles : Map (BytesN 32) Bool}

theorem OracleCopies.ok {quorum : Nat} (h : OracleCopies s oracles quorum) : OracleSetOk s := by
  have hlength : oracles.entries.length = oracles.keys.length := (List.length_map _).symm
  refine ⟨oracles, h.map, h.list.nodup_iff.mpr oracles.keys_nodup, fun key => ?_, ?_, quorum,
    h.threshold, h.pos, ?_⟩
  · rw [h.list.mem_iff, ← AList.mem_keys]
  · rw [hlength]
    exact h.max
  · rw [hlength]
    exact h.le

theorem keys_insert_fresh {oracle : BytesN 32}
    (h : oracle ∉ oracles) : (oracles.insert oracle true).keys = oracle :: oracles.keys := by
  rw [AList.keys_insert, List.erase_of_not_mem (by rwa [← AList.mem_keys])]

/-- The map of a list without repetitions has the list's keys. -/
theorem oracle_map_keys {oracles : List (BytesN 32)} (h : oracles.Nodup) :
    (oracleMap oracles).keys.Perm oracles := by
  suffices hfold : ∀ (rest : List (BytesN 32)) (m : Map (BytesN 32) Bool),
      (m.keys ++ rest).Nodup →
      (rest.foldl (fun m oracle => m.insert oracle true) m).keys.Perm (m.keys ++ rest) by
    simpa [oracleMap] using hfold oracles ∅ (by simpa using h)
  intro rest
  induction rest with
  | nil => intro m _; simp
  | cons oracle rest ih =>
    intro m hnodup
    have hfresh : oracle ∉ m := by
      intro hmem
      rw [List.nodup_append] at hnodup
      exact hnodup.2.2 oracle (AList.mem_keys.mp hmem) oracle (by simp) rfl
    have hmiddle : (oracle :: m.keys ++ rest).Perm (m.keys ++ oracle :: rest) :=
      List.perm_middle.symm
    rw [List.foldl_cons]
    refine (ih (m.insert oracle true) ?_).trans ?_
    · rw [keys_insert_fresh hfresh]
      exact hmiddle.nodup_iff.mpr hnodup
    · rw [keys_insert_fresh hfresh]
      exact hmiddle

theorem filter_ne_perm {list : List (BytesN 32)} (h : list.Perm oracles.keys) (oracle : BytesN 32) :
    (list.filter (· ≠ oracle)).Perm (oracles.erase oracle).keys := by
  rw [AList.keys_erase, oracles.keys_nodup.erase_eq_filter]
  have hfilter := h.filter (· ≠ oracle)
  refine hfilter.trans (.of_eq ?_)
  exact List.filter_congr fun x _ => by rw [Bool.eq_iff_iff]; simp

/-- Every operation that meets the condition keeps the copies in agreement. -/
theorem SettingsChange.keeps_copies {env : Env} {op : SettingsOp} {s s' : Settings}
    (h : SettingsChange env op s s') (hop : KeepsOracleSet s op)
    (hinv : s.admin ≠ none → ∃ oracles quorum, OracleCopies s oracles quorum) :
    s'.admin ≠ none → ∃ oracles quorum, OracleCopies s' oracles quorum := by
  intro _
  have hadmin : ∀ {admin}, s.admin = some admin → ∃ oracles quorum,
      OracleCopies s oracles quorum := fun h => hinv (by simp [h])
  cases h with
  | @initializeManager _ admin oracles quorum _ _ _ _ _ hpos hle hmax _ =>
    have hkeys := oracle_map_keys hop
    refine ⟨oracleMap oracles, quorum, rfl, rfl, hkeys.symm, hpos, ?_, ?_⟩
    · rw [hkeys.length_eq]
      exact hle
    · rw [hkeys.length_eq]
      exact hmax
  | @addOracle _ admin oracles oracle ha _ horacles hfresh hmax =>
    obtain ⟨known, quorum, hcopies⟩ := hadmin ha
    obtain rfl : known = oracles := Option.some.inj (hcopies.map.symm.trans horacles)
    have hkeys := keys_insert_fresh hfresh
    refine ⟨known.insert oracle true, quorum, rfl, hcopies.threshold, ?_, hcopies.pos, ?_, ?_⟩
    · rw [hkeys]
      exact (List.perm_append_singleton oracle s.oracleList).trans (hcopies.list.cons oracle)
    · rw [hkeys, List.length_cons]
      exact hcopies.le.trans (Nat.le_succ _)
    · rw [hkeys, List.length_cons, ← hcopies.list.length_eq]
      exact hmax
  | keepOracle ha => exact hadmin ha
  | @removeOracle _ admin oracles oracle ha _ horacles =>
    obtain ⟨known, quorum, hcopies⟩ := hadmin ha
    obtain rfl : known = oracles := Option.some.inj (hcopies.map.symm.trans horacles)
    have hlist := filter_ne_perm hcopies.list oracle
    have hkeys : (known.erase oracle).keys = known.keys.erase oracle := AList.keys_erase _ _
    refine ⟨known.erase oracle, quorum, rfl, hcopies.threshold, hlist, hcopies.pos, ?_, ?_⟩
    · by_cases hmem : oracle ∈ known
      · have hlt : quorum < known.entries.length := by
          simpa [hcopies.map, hcopies.threshold] using
            hop (by simpa [hcopies.map] using hmem)
        have hlength : known.entries.length = known.keys.length := (List.length_map _).symm
        rw [hkeys, List.length_erase_of_mem (AList.mem_keys.mp hmem)]
        omega
      · rw [hkeys, List.erase_of_not_mem (by rwa [← AList.mem_keys])]
        exact hcopies.le
    · rw [hkeys]
      exact (List.length_erase_le).trans hcopies.max
  | @setQuorum _ admin oracles quorum ha _ horacles hpos hle =>
    obtain ⟨known, _, hcopies⟩ := hadmin ha
    obtain rfl : known = oracles := Option.some.inj (hcopies.map.symm.trans horacles)
    have hlength : known.entries.length = known.keys.length := (List.length_map _).symm
    exact ⟨known, quorum, hcopies.map, rfl, hcopies.list, hpos, hlength ▸ hle, hcopies.max⟩
  | scheduleOracleRemoval ha _ _ =>
    obtain ⟨known, quorum, hcopies⟩ := hadmin ha
    exact ⟨known, quorum, hcopies.map, hcopies.threshold, hcopies.list, hcopies.pos, hcopies.le,
      hcopies.max⟩
  | @executeOracleRemoval _ admin oracle _ ha _ _ _ =>
    obtain ⟨known, quorum, hcopies⟩ := hadmin ha
    have hfresh : oracle ∉ known := by simpa [hcopies.map] using (show oracle ∉ _ from hop)
    -- The oracle has left both copies already, so erasing it from the map changes nothing.
    have hsame : (known.erase oracle).keys = known.keys := by
      rw [AList.keys_erase, List.erase_of_not_mem (by rwa [← AList.mem_keys])]
    refine ⟨known.erase oracle, quorum, ?_, hcopies.threshold, ?_, hcopies.pos, ?_, ?_⟩
    · simp [hcopies.map]
    · rw [hsame]
      exact hcopies.list
    · rw [hsame]
      exact hcopies.le
    · rw [hsame]
      exact hcopies.max
  | @setParameter _ admin parameter ha _ =>
    obtain ⟨known, quorum, hcopies⟩ := hadmin ha
    refine ⟨known, quorum, ?_⟩
    cases parameter <;>
      exact ⟨hcopies.map, hcopies.threshold, hcopies.list, hcopies.pos, hcopies.le, hcopies.max⟩

section Runs

variable {R : Type} [Registries R] [Crypto] [Network] {self : Address} {outside : R → R → Prop}

/-- The oracle-set invariant: in every initialised state of every run whose operations meet the
condition, the list and the map name the same oracles and a quorum of them can be reached. -/
theorem oracle_set_sound {history : List Label} {w : World R}
    (run : (manager self outside).RunWhere soundOracleOps history w)
    (hinit : w.store.settings.admin ≠ none) : OracleSetOk w.store.settings := by
  suffices hcopies : w.store.settings.admin ≠ none →
      ∃ oracles quorum, OracleCopies w.store.settings oracles quorum by
    obtain ⟨oracles, quorum, h⟩ := hcopies hinit
    exact h.ok
  refine run.invariant (I := fun _ w => w.store.settings.admin ≠ none →
    ∃ oracles quorum, OracleCopies w.store.settings oracles quorum) ?_ ?_
  · intro s hs
    rw [show s.store = Storage.empty from hs]
    exact fun h => absurd rfl h
  · intro h s l s' _ ih hstep hguard
    cases hstep.moves with
    | settings _ _ _ hchange _ => exact hchange.keeps_copies (hguard _ rfl) ih
    | report => exact ih
    | payout => exact ih
    | lapsed => exact ih
    | elsewhere => exact ih

end Runs

section Scenario

attribute [local instance] noCrypto testNetwork

/-- The admin adds a third oracle. -/
def thirdOracleScript : List Input :=
  [opening, at_ 2 [adminAddress] (.settings (.addOracle oracleC))]

/-- The admin removes one of the two oracles that make the quorum. -/
def removalScript : List Input :=
  [opening, at_ 2 [adminAddress] (.settings (.removeOracle oracleB))]

def soundly : List Label → World WillingRegistries → Label → Bool := fun _ w l =>
  decide (∀ r ∈ l.onSettings, KeepsOracleSet w.store.settings r.2)

def thirdOracleRun : Replayed soundly :=
  .of freshWorld fresh_world_initial thirdOracleScript (by decide +kernel)

def removalRun : Replayed System.anything :=
  .of freshWorld fresh_world_initial removalScript (by decide +kernel)

/-- Three oracles and a quorum of two. -/
theorem oracle_set_sound_with_third : OracleSetOk thirdOracleRun.state.store.settings :=
  oracle_set_sound (thirdOracleRun.run World.next_step fun _ _ _ h => of_decide_eq_true h)
    (by decide +kernel)

/-- One oracle is left and the quorum is still two. -/
theorem quorum_out_of_reach :
    (manager home fun _ (_ : WillingRegistries) => False).Run removalRun.history
        removalRun.state ∧
      removalRun.state.store.settings.admin = some adminAddress ∧
      removalRun.state.store.settings.quorum = some 2 ∧
      removalRun.state.store.settings.oracleList = [oracleA] ∧
      ¬ OracleSetOk removalRun.state.store.settings := by
  have hquorum : removalRun.state.store.settings.quorum = some 2 := by decide +kernel
  have hcount : removalRun.state.store.settings.oracles.map (·.entries.length) = some 1 := by
    decide +kernel
  refine ⟨removalRun.run World.next_step System.anything_allowed, by decide +kernel, hquorum,
    by decide +kernel, ?_⟩
  rintro ⟨oracles, horacles, -, -, -, quorum, hset, -, hle⟩
  rw [horacles, Option.map_some, Option.some.injEq] at hcount
  rw [hset, Option.some.injEq] at hquorum
  omega

end Scenario

/-!
## Retired oracles

The admin schedules the removal of an oracle for a ledger, and the removal is executed by a later
call. A decree is what the admin has said last about a key: the ledger from which on it is
retired, until it is added again after the removal was executed. Submissions only look at the map
of oracles, so a key whose removal is due and not executed still has a voice.
-/

/-- The admin's last word about a key: the ledger of its removal, and whether the removal has been
executed. -/
structure Decree where
  removal : Option Nat
  executed : Bool
  deriving DecidableEq

/-- No removal has been scheduled. -/
def Decree.none : Decree := ⟨Option.none, false⟩

/-- What an operation on the settings makes of the decree about a key. -/
def Decree.after (key : BytesN 32) (d : Decree) : SettingsOp → Decree
  | .scheduleOracleRemoval oracle effectiveLedger =>
    if oracle = key then ⟨some effectiveLedger, false⟩ else d
  | .executeOracleRemoval oracle => if oracle = key then { d with executed := true } else d
  | .addOracle oracle => if oracle = key ∧ d.executed = true then .none else d
  | _ => d

/-- The decree about a key after a history. -/
def decree (key : BytesN 32) : List Label → Decree
  | [] => .none
  | l :: history =>
    match l.onSettings with
    | some (_, op) => (decree key history).after key op
    | Option.none => decree key history

/-- The removal of the key has taken effect at the ledger. -/
abbrev Retired (history : List Label) (key : BytesN 32) (ledger : Nat) : Prop :=
  ∃ effectiveLedger ∈ (decree key history).removal, effectiveLedger ≤ ledger

/-- The key's removal is due at the ledger and has not been executed. -/
abbrev DueRemoval (s : Settings) (key : BytesN 32) (ledger : Nat) : Prop :=
  ∃ effectiveLedger ∈ s.pendingOracleRemoval key, effectiveLedger ≤ ledger

/-- The key that an operation submits with. -/
def ReportOp.submitter : ReportOp → Option (BytesN 32)
  | .submitOutcome _ signed _ => some signed.oraclePubkey
  | .submitOutcomeForMarket signed _ => some signed.oraclePubkey
  | .submitPriceObservation _ _ _ oraclePubkey _ => some oraclePubkey
  | .submitResolutionObservation _ observation _ => some observation.oracle
  | _ => none

/-- No submission in the history was made with a key that was retired by then. -/
def NoVoice : List Label → Prop
  | [] => True
  | l :: history =>
    (∀ r ∈ l.onReport, ∀ key ∈ r.2.submitter, ¬ Retired history key r.1.sequence) ∧
      NoVoice history

/-- Every submission is made with a key whose removal is not due. -/
abbrev timelySubmissions {R : Type} : System.Guard (World R) Label := fun _ w l =>
  ∀ r ∈ l.onReport, ∀ key ∈ r.2.submitter, ¬ DueRemoval w.store.settings key r.1.sequence

/-- The settings carry out the decrees: a removal that has not been executed is pending, and after
it has been executed the key is not in the map. -/
structure Enacted (history : List Label) (s : Settings) : Prop where
  pending : ∀ key, s.pendingOracleRemoval key =
    if (decree key history).executed = true then none else (decree key history).removal
  gone : ∀ key, (decree key history).executed = true → key ∉ s.oracles.getD ∅
  silent : s.admin = none → ∀ key, decree key history = .none

theorem Enacted.empty : Enacted [] Storage.empty.settings where
  pending _ := rfl
  gone _ h := by cases h
  silent _ _ := rfl

/-- A label that is no operation on the settings leaves the decrees alone. -/
theorem Enacted.mono {l : Label} (hl : l.onSettings = none)
    (h : Enacted history s) : Enacted (l :: history) s := by
  have hdecree : ∀ key, decree key (l :: history) = decree key history := by
    intro key
    simp only [decree, hl]
  refine ⟨fun key => ?_, fun key => ?_, fun hadmin key => ?_⟩
  · rw [hdecree]
    exact h.pending key
  · rw [hdecree]
    exact h.gone key
  · rw [hdecree]
    exact h.silent hadmin key

/-- Settings that differ in neither the admin's presence, nor the removals, nor by a new key in the
map carry out unchanged decrees. -/
theorem Enacted.of_same {history later : List Label} {s s' : Settings} (h : Enacted history s)
    (hdecree : ∀ key, decree key later = decree key history)
    (hpending : s'.pendingOracleRemoval = s.pendingOracleRemoval)
    (hgone : ∀ key, key ∈ s'.oracles.getD ∅ → key ∈ s.oracles.getD ∅) (hadmin' : s'.admin ≠ none) :
    Enacted later s' := by
  refine ⟨fun key => ?_, fun key hexecuted hmem => ?_, fun hnone => absurd hnone hadmin'⟩
  · rw [hdecree, hpending]
    exact h.pending key
  · rw [hdecree] at hexecuted
    exact h.gone key hexecuted (hgone key hmem)

/-- The settings carry out the decrees after every operation on them. -/
theorem SettingsChange.enacts {env : Env} {op : SettingsOp} {s s' : Settings} {l : Label}
    (hl : l.onSettings = some (env, op))
    (h : SettingsChange env op s s') (hinv : Enacted history s) : Enacted (l :: history) s' := by
  have hdecree : ∀ key, decree key (l :: history) = (decree key history).after key op := by
    intro key
    simp only [decree, hl]
  cases h with
  | @initializeManager _ admin oracles quorum feeCollector feeBps window hnone =>
    have hsilent : ∀ key, decree key (l :: history) = .none := fun key => by
      rw [hdecree, hinv.silent hnone]
      rfl
    refine ⟨fun key => ?_, fun key hexecuted => ?_, fun _ => hsilent⟩
    · show s.pendingOracleRemoval key = _
      rw [hinv.pending, hinv.silent hnone, hsilent]
    · rw [hsilent] at hexecuted
      cases hexecuted
  | @addOracle _ admin oracles oracle hadmin _ horacles hfresh _ =>
    refine ⟨fun key => ?_, fun key hexecuted => ?_, fun hnone => ?_⟩
    · show s.pendingOracleRemoval key = _
      rw [hinv.pending, hdecree, Decree.after]
      -- A key that is added after its removal was executed starts afresh.
      split <;> split <;> simp_all [Decree.none]
    · rw [hdecree, Decree.after] at hexecuted
      split at hexecuted
      · cases hexecuted
      · next hkeep =>
        have hne : key ≠ oracle := fun heq => hkeep ⟨heq.symm, hexecuted⟩
        have hgone := hinv.gone key hexecuted
        rw [horacles] at hgone
        show key ∉ oracles.insert oracle true
        rw [AList.mem_insert]
        rintro (heq | hmem)
        · exact hne heq
        · exact hgone hmem
    · exact absurd (hadmin.symm.trans hnone) (by simp)
  | @keepOracle _ admin oracles oracle hadmin _ horacles hmem =>
    refine hinv.of_same (fun key => ?_) rfl (fun _ hkey => hkey)
      (by simp [hadmin])
    rw [hdecree, Decree.after, if_neg]
    rintro ⟨rfl, hexecuted⟩
    exact hinv.gone oracle hexecuted (by simpa [horacles] using hmem)
  | @removeOracle _ admin oracles oracle hadmin _ horacles =>
    refine hinv.of_same (fun key => hdecree key) rfl (fun key hmem => ?_)
      (by simp [hadmin])
    rw [horacles]
    exact (AList.mem_erase.mp hmem).2
  | setQuorum hadmin =>
    exact hinv.of_same (fun key => hdecree key) rfl (fun _ hkey => hkey)
      (by simp [hadmin])
  | @scheduleOracleRemoval _ admin oracle effectiveLedger hadmin _ _ =>
    refine ⟨fun key => ?_, fun key hexecuted => ?_, fun hnone => ?_⟩
    · show Function.update s.pendingOracleRemoval oracle (some effectiveLedger) key = _
      rw [hdecree, Decree.after]
      by_cases hkey : oracle = key
      · subst hkey
        simp
      · rw [Function.update_of_ne (Ne.symm hkey), if_neg hkey]
        exact hinv.pending key
    · rw [hdecree, Decree.after] at hexecuted
      split at hexecuted
      · cases hexecuted
      · exact hinv.gone key hexecuted
    · exact absurd (hadmin.symm.trans hnone) (by simp)
  | @executeOracleRemoval _ admin oracle effectiveLedger hadmin _ _ _ =>
    refine ⟨fun key => ?_, fun key hexecuted => ?_, fun hnone => ?_⟩
    · show Function.update s.pendingOracleRemoval oracle none key = _
      rw [hdecree, Decree.after]
      by_cases hkey : oracle = key
      · subst hkey
        simp
      · rw [Function.update_of_ne (Ne.symm hkey), if_neg hkey]
        exact hinv.pending key
    · rw [hdecree, Decree.after] at hexecuted
      show key ∉ (s.oracles.getD ∅).erase oracle
      rw [AList.mem_erase]
      rintro ⟨hne, hmem⟩
      rw [if_neg (Ne.symm hne)] at hexecuted
      exact hinv.gone key hexecuted hmem
    · exact absurd (hadmin.symm.trans hnone) (by simp)
  | @setParameter _ admin parameter hadmin _ =>
    cases parameter <;>
      exact hinv.of_same (fun key => hdecree key) rfl (fun _ hkey => hkey)
        (by simp [Parameter.write, hadmin])

theorem Enacted.retired (h : Enacted history s)
    {key : BytesN 32} {ledger : Nat} (hdue : DueRemoval s key ledger) :
    Retired history key ledger := by
  obtain ⟨effectiveLedger, hpending, hle⟩ := hdue
  rw [h.pending] at hpending
  split at hpending
  · cases hpending
  · exact ⟨effectiveLedger, hpending, hle⟩

/-- A retired key that is still in the map is one whose removal is due. -/
theorem Enacted.due (h : Enacted history s)
    {key : BytesN 32} {ledger : Nat} (hretired : Retired history key ledger)
    (hmem : key ∈ s.oracles.getD ∅) : DueRemoval s key ledger := by
  obtain ⟨effectiveLedger, hremoval, hle⟩ := hretired
  refine ⟨effectiveLedger, ?_, hle⟩
  rw [h.pending, if_neg fun hexecuted => h.gone key hexecuted hmem]
  exact hremoval

/-- An accepted submission is made with a key of the map. -/
theorem ReportStep.submitter_authorised {R : Type} [Registries R] [Crypto] [Network] {env : Env}
    {op : ReportOp} {t t' : Tally} {others others' : R}
    {effects : List (Effect Act)} (h : ReportStep env s op t others effects t' others')
    {key : BytesN 32} (hkey : key ∈ op.submitter) : key ∈ s.oracles.getD ∅ := by
  have hmember : s.authorises key → key ∈ s.oracles.getD ∅ := by
    rintro ⟨oracles, horacles, hmem⟩
    simpa [horacles] using hmem
  refine hmember ?_
  cases h with
  | vote hsubmits haccepted => cases hsubmits <;> cases hkey <;> exact haccepted.authorised
  | decide hsubmits haccepted => cases hsubmits <;> cases hkey <;> exact haccepted.authorised
  | price hauth =>
    cases hkey
    exact hauth
  | observe hobserved =>
    cases hkey
    exact hobserved.authorised
  | confirm hobserved =>
    cases hkey
    exact hobserved.authorised
  | finalizeOutcome => cases hkey
  | disputeOutcome => cases hkey

section Runs

variable {R : Type} [Registries R] [Crypto] [Network] {self : Address} {outside : R → R → Prop}
  {guard : System.Guard (World R) Label} {history : List Label} {w : World R}

theorem decrees_enacted (run : (manager self outside).RunWhere guard history w) :
    Enacted history w.store.settings := by
  refine run.invariant (I := fun h w => Enacted h w.store.settings) ?_ ?_
  · intro s hs
    rw [show s.store = Storage.empty from hs]
    exact .empty
  · intro h s l s' _ ih hstep _
    cases hstep.moves with
    | settings _ _ _ hchange _ => exact hchange.enacts rfl ih
    | report => exact ih.mono rfl
    | payout => exact ih.mono rfl
    | lapsed => exact ih.mono rfl
    | elsewhere => exact ih.mono rfl

/-- Timely submissions are exactly those that retired keys have no part in. -/
theorem no_voice_iff_timely (run : (manager self outside).Run history w) :
    NoVoice history ↔ (manager self outside).RunWhere timelySubmissions history w := by
  constructor
  · refine run.invariant (I := fun h w => NoVoice h →
      (manager self outside).RunWhere timelySubmissions h w) ?_ ?_
    · exact fun s hs _ => .start hs
    · intro h s l s' hrun ih hstep _ hvoice
      refine (ih hvoice.2).tail hstep fun r hr key hkey hdue => ?_
      exact hvoice.1 r hr key hkey ((decrees_enacted hrun).retired hdue)
  · intro hrun
    refine hrun.invariant (I := fun h _ => NoVoice h) (fun _ _ => trivial) ?_
    intro h s l s' hprefix ih hstep hguard
    refine ⟨fun r hr key hkey hretired => ?_, ih⟩
    have henacted := decrees_enacted hprefix
    cases hstep.moves with
    | report _ _ _ hreport =>
      cases hr
      exact hguard _ rfl key hkey
        (henacted.due hretired (hreport.submitter_authorised hkey))
    | settings => cases hr
    | payout => cases hr
    | lapsed => cases hr
    | elsewhere => cases hr

end Runs

section Scenario

attribute [local instance] scenarioCrypto testNetwork

/-- The removal of the second oracle at ledger 10 is scheduled and executed. -/
def retiredScript : List Input :=
  [opening,
    at_ 2 [adminAddress] (.settings (.scheduleOracleRemoval oracleB 10)),
    submits 5 oracleB signatureB,
    at_ 12 [adminAddress] (.settings (.executeOracleRemoval oracleB))]

/-- The removal is scheduled, and the oracle reports ten ledgers after it was due. -/
def overdueScript : List Input :=
  [opening,
    at_ 2 [adminAddress] (.settings (.scheduleOracleRemoval oracleB 10)),
    submits 20 oracleB signatureB]

def retiredRun : Replayed System.anything :=
  .of freshWorld fresh_world_initial retiredScript (by decide +kernel)

def overdueRun : Replayed System.anything :=
  .of freshWorld fresh_world_initial overdueScript (by decide +kernel)

end Scenario

end Backit.OutcomeManager
