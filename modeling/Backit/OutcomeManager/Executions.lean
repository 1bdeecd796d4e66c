import Backit.Lib.Transition
import Backit.OutcomeManager.ClaimSteps

/-!
# Executions of the manager

A world is the manager's storage, the registries and the ledger's clock. A step is a successful
invocation at a time no earlier than the last one, the lapse of a temporary entry, or something
that happens to the registries elsewhere. `Move` lists what a step can do.
-/

namespace Backit.OutcomeManager

open Soroban Contract Lib

/-- An invocation of an entry point that writes. -/
inductive Action where
  | settings (op : SettingsOp)
  | report (op : ReportOp)
  | payout (op : PayoutOp)
  deriving DecidableEq

/-- What a ledger close leaves for the next invocation. -/
structure World (R : Type) where
  store : Storage
  others : R
  timestamp : Nat
  sequence : Nat

/-- A successful invocation: its environment, its entry point and arguments, and its effects, most
recent first. -/
structure Receipt where
  env : Env
  action : Action
  effects : List (Effect Act)

inductive Label where
  | invoked (receipt : Receipt)
  | lapsed (key : TempKey)
  | elsewhere

namespace Label

/-- The operation on the settings that a label stands for, if it does, and its environment. -/
def onSettings : Label → Option (Env × SettingsOp)
  | .invoked ⟨env, .settings op, _⟩ => some (env, op)
  | _ => none

/-- The operation on the tally that a label stands for. -/
def onReport : Label → Option (Env × ReportOp)
  | .invoked ⟨env, .report op, _⟩ => some (env, op)
  | _ => none

/-- The operation on the payouts that a label stands for. -/
def onPayout : Label → Option (Env × PayoutOp)
  | .invoked ⟨env, .payout op, _⟩ => some (env, op)
  | _ => none

end Label

variable {R : Type} [Registries R] [Crypto] [Network]

/-- Run an invocation. -/
def Action.perform : Action → Manager R Unit
  | .settings op => onSettings op.perform
  | .report op => op.perform
  | .payout op => op.perform

/-- The frame an invocation starts from. -/
def World.frame (w : World R) : Frame Storage R Act := ⟨w.store, w.others, []⟩

/-- The world after a temporary entry has lapsed. -/
def World.lapse (w : World R) (key : TempKey) : World R :=
  { w with store := w.store.onTally (·.lapse key) }

/-- One step of the world around the manager at address `self`. The relation `outside` bounds what
happens to the registries elsewhere. -/
inductive WorldStep (self : Address) (outside : R → R → Prop) :
    World R → Label → World R → Prop where
  | invoked {w env action f} :
      env.contract = self → w.timestamp ≤ env.timestamp → w.sequence ≤ env.sequence →
      run action.perform env w.frame = .ok ((), f) →
      WorldStep self outside w (.invoked ⟨env, action, f.effects⟩)
        ⟨f.store, f.tokens, env.timestamp, env.sequence⟩
  | lapsed {w key} : WorldStep self outside w (.lapsed key) (w.lapse key)
  | elsewhere {w others} :
      outside w.others others → WorldStep self outside w .elsewhere { w with others := others }

/-- The manager at address `self`, from a fresh deployment on. -/
def manager (self : Address) (outside : R → R → Prop) : System (World R) Label where
  initial w := w.store = Storage.empty
  step := WorldStep self outside

/-- What a step does to the settings, the tally, the payouts and the registries. -/
inductive Move (self : Address) (outside : R → R → Prop) : World R → Label → World R → Prop where
  | settings {s t p others now ledger env op effects s'} :
      env.contract = self → now ≤ env.timestamp → ledger ≤ env.sequence →
      SettingsChange env op s s' → (∀ e ∈ effects, ∃ event, e = .event (.event event)) →
      Move self outside ⟨⟨s, t, p⟩, others, now, ledger⟩
        (.invoked ⟨env, .settings op, effects⟩) ⟨⟨s', t, p⟩, others, env.timestamp, env.sequence⟩
  | report {s t p others now ledger env op effects t' others'} :
      env.contract = self → now ≤ env.timestamp → ledger ≤ env.sequence →
      ReportStep env s op t others effects t' others' →
      Move self outside ⟨⟨s, t, p⟩, others, now, ledger⟩
        (.invoked ⟨env, .report op, effects⟩) ⟨⟨s, t', p⟩, others', env.timestamp, env.sequence⟩
  | payout {s t p others now ledger env op payments effects p' others'} :
      env.contract = self → now ≤ env.timestamp → ledger ≤ env.sequence →
      PayoutStep env s t op p others payments effects p' others' →
      Move self outside ⟨⟨s, t, p⟩, others, now, ledger⟩
        (.invoked ⟨env, .payout op, effects⟩) ⟨⟨s, t, p'⟩, others', env.timestamp, env.sequence⟩
  | lapsed {s t p others now ledger key} :
      Move self outside ⟨⟨s, t, p⟩, others, now, ledger⟩ (.lapsed key)
        ⟨⟨s, t.lapse key, p⟩, others, now, ledger⟩
  | elsewhere {s t p others now ledger others'} : outside others others' →
      Move self outside ⟨⟨s, t, p⟩, others, now, ledger⟩ .elsewhere
        ⟨⟨s, t, p⟩, others', now, ledger⟩

variable {self : Address} {outside : R → R → Prop} {w w' : World R} {l : Label}

theorem WorldStep.moves (h : WorldStep self outside w l w') : Move self outside w l w' := by
  cases h with
  | lapsed => exact .lapsed
  | elsewhere hout => exact .elsewhere hout
  | @invoked env action f hself htime hledger hrun =>
    cases action with
    | settings op =>
      obtain ⟨c, hc, rfl⟩ := run_onSettings.mp hrun
      refine .settings hself htime hledger (SettingsOp.changes hc) ?_
      intro e he
      simp only [World.frame, List.append_nil, List.mem_map] at he
      obtain ⟨event, -, rfl⟩ := he
      exact ⟨event, rfl⟩
    | report op =>
      obtain ⟨t, others, effects, hstep, rfl⟩ := ReportOp.steps hrun
      have heffects : effects ++ [] = effects := List.append_nil effects
      simp only [Frame.afterReport, World.frame, heffects]
      exact .report hself htime hledger hstep
    | payout op =>
      obtain ⟨payments, effects, p, others, hstep, rfl⟩ := PayoutOp.steps hrun
      have heffects : effects ++ [] = effects := List.append_nil effects
      simp only [Frame.afterCalls, World.frame, heffects]
      exact .payout hself htime hledger hstep

theorem WorldStep.on_settings (h : WorldStep self outside w l w') {env : Env} {op : SettingsOp}
    (hl : l.onSettings = some (env, op)) :
    SettingsChange env op w.store.settings w'.store.settings ∧ w'.store.tally = w.store.tally := by
  cases h.moves with
  | settings _ _ _ hchange =>
    cases hl
    exact ⟨hchange, rfl⟩
  | report => cases hl
  | payout => cases hl
  | lapsed => cases hl
  | elsewhere => cases hl

theorem WorldStep.settings_kept (h : WorldStep self outside w l w') (hl : l.onSettings = none) :
    w'.store.settings = w.store.settings := by
  cases h.moves with
  | settings => cases hl
  | report => rfl
  | payout => rfl
  | lapsed => rfl
  | elsewhere => rfl

theorem fee_valid_of_run {guard : System.Guard (World R) Label} {history : List Label}
    (run : (manager self outside).RunWhere guard history w) :
    w.store.settings.feeBps ≤ Shared.maxFeeBps := by
  refine run.invariant (I := fun _ w => w.store.settings.feeBps ≤ Shared.maxFeeBps) ?_ ?_
  · intro w hw
    rw [show w.store = Storage.empty from hw]
    exact Nat.zero_le _
  · intro _ w l w' _ hfee hstep _
    cases hl : l.onSettings with
    | none =>
      rw [WorldStep.settings_kept hstep hl]
      exact hfee
    | some r => exact (WorldStep.on_settings hstep hl).1.fee_valid hfee

/-- An input of a script: an invocation, or the lapse of a temporary entry. -/
inductive Input where
  | invoke (env : Env) (action : Action)
  | lapse (key : TempKey)

/-- Run an input on a world. -/
def World.next (self : Address) (w : World R) : Input → Option (Label × World R)
  | .invoke env action =>
    if env.contract = self ∧ w.timestamp ≤ env.timestamp ∧ w.sequence ≤ env.sequence then
      match run action.perform env w.frame with
      | .ok (_, f) =>
        some (.invoked ⟨env, action, f.effects⟩, ⟨f.store, f.tokens, env.timestamp, env.sequence⟩)
      | .error _ => none
    else none
  | .lapse key => some (.lapsed key, w.lapse key)

theorem World.next_step (w : World R) (input : Input) (l : Label) (w' : World R)
    (h : w.next self input = some (l, w')) : (manager self outside).step w l w' := by
  cases input with
  | lapse key =>
    cases h
    exact .lapsed
  | invoke env action =>
    unfold World.next at h
    dsimp only at h
    split at h
    · next hchecks =>
      obtain ⟨hself, htime, hledger⟩ := hchecks
      split at h
      · next f hrun =>
        cases h
        exact .invoked hself htime hledger hrun
      · cases h
    · cases h

theorem World.next_get {w : World R} {input : Input} (h : (w.next self input).isSome = true) :
    (manager self outside).step w ((w.next self input).get h).1 ((w.next self input).get h).2 :=
  w.next_step input _ _ (Option.some_get h).symm

/-- Registries that accept every call. There is no factory. -/
inductive WillingRegistries where
  | mk

instance : Registries WillingRegistries where
  resolveCall _ _ _ _ _ others := some others
  releaseEscrow _ _ _ _ _ others := some others
  markSettled _ _ _ others := some others
  getMarket _ _ _ := none

/-- The manager's address in the scenarios that follow the theorems. -/
def home : Address := ⟨200⟩

def adminAddress : Address := ⟨201⟩

def collector : Address := ⟨202⟩

def marketAddress : Address := ⟨203⟩

def oracleA : BytesN 32 :=
  ⟨beBytes 32 0x0c3eb0cb6df8613f35dcf805a326f38e90ccbde2db8cb90fa538ad608bd49b2a, by simp⟩

def oracleB : BytesN 32 :=
  ⟨beBytes 32 0x9f4672178a2df62526ad9d40a26f0cc2b93a7971530a2e965e5085f3a1d3fb99, by simp⟩

def oracleC : BytesN 32 :=
  ⟨beBytes 32 0xf7c09c039bf5d0dbc03e2459a1ba9316f771c7ded8061512882eed90d0acbee4, by simp⟩

/-- A fresh deployment. -/
def freshWorld : World WillingRegistries where
  store := Storage.empty
  others := .mk
  timestamp := 0
  sequence := 0

theorem fresh_world_initial :
    (manager home fun _ (_ : WillingRegistries) => False).initial freshWorld := rfl

/-- A replayed script of the scenarios. -/
abbrev Replayed (allowed : List Label → World WillingRegistries → Label → Bool) :=
  System.Replayed (manager home fun _ (_ : WillingRegistries) => False) (World.next home) allowed

/-- An invocation of the manager at a time, with the addresses that authorise it. -/
def at_ (timestamp : Nat) (auths : List Address) (action : Action) : Input :=
  .invoke ⟨home, timestamp, timestamp, auths⟩ action

/-- Initialise the manager with two oracles and a quorum of two. -/
def opening : Input :=
  at_ 1 [adminAddress]
    (.settings (.initializeManager adminAddress [oracleA, oracleB] 2 collector 100 3600))

/-- The network of the scenarios, and the XDR encoding of contract addresses. -/
abbrev testNetwork : Network where
  networkId := ⟨beBytes 32 0xcee0302d59844d32bdca915c8203dd44b33fbb7edc19051ea37abedf28ecd472,
    by simp⟩
  addressXdr a := beBytes 4 18 ++ beBytes 4 1 ++ beBytes 32 a.id

/-- The message of the reports in the scenarios: call 1 went up, at price 7 and time 1000. -/
def reportMessage : Bytes := Shared.buildMessage 1 1 7 1000

/-- Two signatures of the first oracle over the message. -/
def signatureA : BytesN 64 :=
  ⟨beBytes 64 0xafbc3e6d40421baaec8c9a634d17a29e897615507a341bcb0c2d69d9736d3584613e919deb098ab93c8bbfdc97c1d4b0d2dfef2ffdad43757e9e2838df3aef0c,
    by simp⟩

def secondSignatureA : BytesN 64 :=
  ⟨beBytes 64 0xd8ad7c9010ff24b4c675f4417f0c1faece37222904f9b05e3d2302d98def4e78a1923cb91d358673aaf0306b627c4f2aea779b3aa044d1cf388a759b743ccb03,
    by simp⟩

/-- A signature of the second oracle over the message. -/
def signatureB : BytesN 64 :=
  ⟨beBytes 64 0x0874a5dda52e1f352c239b28cd89ea953fa7417f18ccf55ff3de3dbc03cdbefcc3d2479c37d3c03393d26abc0b00b1ce0c30776a9c3ce3bd03eaebe9d45f6905,
    by simp⟩

/-- A report of an oracle in the scenarios. -/
def report (oracle : BytesN 32) (signature : BytesN 64) : SignedOutcome where
  callId := 1
  outcome := 1
  price := 7
  timestamp := 1000
  oraclePubkey := oracle
  signature := signature
  callId_lt := by decide
  price_mem := by decide
  timestamp_lt := by decide

/-- What the manager at its address in the scenarios hashes for a signature of an oracle. -/
def hashed (oracle : BytesN 32) (signature : BytesN 64) : Bytes :=
  oracle.bytes ++ reportMessage ++ signature.bytes ++ testNetwork.networkId.bytes ++
    testNetwork.addressXdr home

/-- The digests of the message and of its signatures. -/
def reportDigests : Sha256.Table where
  entries :=
    [(reportMessage,
        ⟨beBytes 32 0x9b1d3cbe2f28caf7d55981b6475d75f91ca7a98eba2ce0b0970bce280c6a80d6, by simp⟩),
      (hashed oracleA signatureA,
        ⟨beBytes 32 0xc691a0342d6a39761c9e96d38f75933002a8ee164d3fb09d473ee9a66ce243c8, by simp⟩),
      (hashed oracleA secondSignatureA,
        ⟨beBytes 32 0x0778d2bf4e684241c538a977a134966052778b45d4f1d4c5c0d8791bc0223077, by simp⟩),
      (hashed oracleB signatureB,
        ⟨beBytes 32 0xc8c3eb313caacae68c1752a0dbf27999a4eb90ff25360488ff6079755f1017e2, by simp⟩)]
  correct := by decide +kernel

/-- SHA-256, and the signatures of the scenarios. -/
abbrev scenarioCrypto : Crypto where
  sha256 := reportDigests.sha256
  ed25519Verify key message signature :=
    decide (message = reportMessage) &&
      decide ((key, signature) ∈
        [(oracleA, signatureA), (oracleA, secondSignatureA), (oracleB, signatureB)])

/-- An oracle submits its report of call 1, which ended at 1000. -/
def submits (timestamp : Nat) (oracle : BytesN 32) (signature : BytesN 64) : Input :=
  at_ timestamp [] (.report (.submitOutcome marketAddress (report oracle signature) 1000))

/-- Cryptography for scenarios that neither hash nor verify. -/
abbrev noCrypto : Crypto where
  sha256 _ := oracleA
  ed25519Verify _ _ _ := false

end Backit.OutcomeManager
