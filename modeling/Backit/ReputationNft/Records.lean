import Backit.Lib.SecondaryIndex
import Backit.ReputationNft.Badges

/-!
# The badge records agree

The badges, the lists of the users and the marks are written one after the other when a badge is
handed out and when it is revoked. After every operation the list of a user holds exactly the ids of
the user's badges, and a type is marked for a user exactly when the user holds a badge of it. A
badge stays with its recipient until it is revoked, and its id is never given again.
-/

namespace Backit.ReputationNft

open Soroban Contract Lib

section Steps

variable {P : Type} {env : Env} {f f' : Frame Storage P Event}

/-- The administrator authorised the invocation. -/
def Storage.Administered (s : Storage) (env : Env) : Prop :=
  ∃ config, s.config = some config ∧ config.admin ∈ env.auths

/-- What a successful invocation does to the storage. -/
inductive BadgeStep (env : Env) (s : Storage) : Storage → Prop where
  | unchanged : BadgeStep env s s
  | configured {admin} : s.config = none → admin ∈ env.auths → BadgeStep env s (s.setConfig ⟨admin⟩)
  | handedOut {badge} :
      s.Administered env → s.badgeAwarded badge.badgeType badge.recipient = false →
      badge.tokenId = s.badgeCounter + 1 → badge.mintedAt = env.timestamp →
      BadgeStep env s (s.withBadge badge)
  | revoked {id badge} : s.Administered env → s.getBadge id = some badge →
      BadgeStep env s (s.withoutBadge id badge)

theorem run_requireAdmin_bind {α : Type} {k : Unit → Reputation P α} {a : α} :
    run (requireAdmin >>= k) env f = .ok (a, f') ↔
      f.store.Administered env ∧ run (k ()) env f = .ok (a, f') := by
  simp only [requireAdmin, Contract.bind_assoc, run_steps, Storage.Administered]
  constructor
  · rintro ⟨config, hconfig, hauth, h⟩
    exact ⟨⟨config, hconfig, hauth⟩, h⟩
  · rintro ⟨⟨config, hconfig, hauth⟩, h⟩
    exact ⟨config, hconfig, hauth, h⟩

theorem hand_out_store {recipient : Address} {badgeType metadataUri : String} {tier id : Nat}
    (h : run (handOut recipient badgeType metadataUri tier : Reputation P Nat) env f =
      .ok (id, f')) :
    f'.store = f.store.withBadge
      ⟨f.store.badgeCounter + 1, recipient, badgeType, metadataUri, env.timestamp, tier⟩ := by
  simp only [handOut, nextBadgeId, Contract.bind_assoc, run_steps] at h
  obtain ⟨-, -, rfl⟩ := h
  rfl

theorem award_badge_steps {recipient : Address} {badgeType metadataUri : String} {id : Nat}
    (h : run (awardBadge recipient badgeType metadataUri : Reputation P Nat) env f =
      .ok (id, f')) : BadgeStep env f.store f'.store := by
  simp only [awardBadge, run_requireAdmin_bind, run_steps] at h
  obtain ⟨hadmin, hfresh, h⟩ := h
  rw [hand_out_store h]
  exact .handedOut hadmin (by simpa using hfresh) rfl rfl

theorem mint_steps {recipient : Address} {badgeId metadataUri : String} {tier id : Nat}
    (h : run (mint recipient badgeId tier metadataUri : Reputation P Nat) env f = .ok (id, f')) :
    BadgeStep env f.store f'.store := by
  simp only [mint, run_requireAdmin_bind, run_steps] at h
  obtain ⟨hadmin, -, -, hfresh, h⟩ := h
  rw [hand_out_store h]
  exact .handedOut hadmin (by simpa using hfresh) rfl rfl

theorem revoke_steps {tokenId : Nat}
    (h : run (revoke tokenId : Reputation P Unit) env f = .ok ((), f')) :
    BadgeStep env f.store f'.store := by
  simp only [revoke, run_requireAdmin_bind, run_steps] at h
  obtain ⟨hadmin, badge, hbadge, rfl⟩ := h
  exact .revoked hadmin hbadge

/-- The contract knows no statistics, so nobody is found to have earned a badge. -/
theorem run_checkAndAwardBadges (user : Address) :
    run (checkAndAwardBadges user : Reputation P (List Nat)) env f = .ok ([], f) := rfl

/-- Every successful invocation is one of the listed steps. -/
theorem ReputationOp.steps {op : ReputationOp}
    (h : run (op.perform : Reputation P Unit) env f = .ok ((), f')) :
    BadgeStep env f.store f'.store := by
  cases op with
  | initializeReputation admin =>
    simp only [ReputationOp.perform, ReputationNft.initializeReputation, run_steps] at h
    obtain ⟨hnone, hauth, rfl⟩ := h
    exact .configured (by simpa using hnone) hauth
  | awardBadge recipient badgeType metadataUri =>
    obtain ⟨_, h⟩ := run_ignore.mp h
    exact award_badge_steps h
  | mint recipient badgeId tier metadataUri =>
    obtain ⟨_, h⟩ := run_ignore.mp h
    exact mint_steps h
  | revoke tokenId => exact revoke_steps h
  | checkAndAwardBadges user =>
    obtain ⟨_, h⟩ := run_ignore.mp h
    rw [run_checkAndAwardBadges] at h
    cases h
    exact .unchanged
  | transferFrom spender sender recipient tokenId => cases h
  | transfer sender recipient tokenId => cases h

end Steps

/-- A user holds a badge of a type. -/
def Storage.Holds (s : Storage) (user : Address) (badgeType : String) (id : Nat) : Prop :=
  ∃ badge, s.getBadge id = some badge ∧ badge.recipient = user ∧ badge.badgeType = badgeType

/-- The lists, the marks and the badges agree. -/
structure Storage.Consistent (s : Storage) : Prop where
  listed : Indexes Badge.recipient s.badge s.userBadges
  marked : ∀ badgeType user,
    s.badgeAwarded badgeType user = true ↔ ∃ id, s.Holds user badgeType id
  single : ∀ user badgeType id id',
    s.Holds user badgeType id → s.Holds user badgeType id' → id = id'

/-- No id beyond the counter has been given to a badge, and every badge has its own id. -/
def Storage.Numbered (s : Storage) : Prop :=
  ∀ id badge, s.getBadge id = some badge → badge.tokenId = id ∧ id ≤ s.badgeCounter

section Updates

variable {s : Storage} {badge : Badge} {id : Nat}

@[simp] theorem Storage.getBadge_withBadge (j : Nat) :
    (s.withBadge badge).getBadge j = if j = badge.tokenId then some badge else s.getBadge j := by
  show (s.badge.insert badge.tokenId badge).lookup j = _
  split
  · next hj =>
    subst hj
    exact AList.lookup_insert _
  · next hj => exact AList.lookup_insert_ne hj

@[simp] theorem Storage.getBadge_withoutBadge (j : Nat) :
    (s.withoutBadge id badge).getBadge j = if j = id then none else s.getBadge j := by
  show (s.badge.erase id).lookup j = _
  split
  · next hj =>
    subst hj
    exact AList.lookup_erase _ _
  · next hj => exact AList.lookup_erase_ne hj

theorem Storage.badgeAwarded_setBadgeAwarded (s : Storage) (badgeType other : String)
    (user who : Address) (awarded : Bool) :
    (s.setBadgeAwarded badgeType user awarded).badgeAwarded other who =
      if other = badgeType ∧ who = user then awarded else s.badgeAwarded other who := by
  simp only [Storage.setBadgeAwarded, Function.update_apply]
  split_ifs <;> simp_all

/-- Handing out a badge gives its recipient a badge of its type. -/
theorem Storage.holds_withBadge (hfresh : s.getBadge badge.tokenId = none) {user : Address}
    {badgeType : String} {j : Nat} :
    (s.withBadge badge).Holds user badgeType j ↔
      j = badge.tokenId ∧ badge.recipient = user ∧ badge.badgeType = badgeType ∨
        s.Holds user badgeType j := by
  unfold Storage.Holds
  rw [Storage.getBadge_withBadge]
  split
  · next hj =>
    subst hj
    simp [hfresh]
  · next hj => simp [hj]

theorem Storage.holds_withoutBadge {user : Address} {badgeType : String} {j : Nat} :
    (s.withoutBadge id badge).Holds user badgeType j ↔ j ≠ id ∧ s.Holds user badgeType j := by
  unfold Storage.Holds
  rw [Storage.getBadge_withoutBadge]
  split
  · next hj => simp [hj]
  · next hj => simp [hj]

end Updates

namespace Storage.Consistent

variable {s : Storage} {badge : Badge} {id : Nat}

theorem empty : Storage.empty.Consistent where
  listed := .empty
  marked badgeType user := by simp [Storage.Holds, Storage.empty, Storage.getBadge]
  single user badgeType j j' hj _ := by
    obtain ⟨_, hstored, -⟩ := hj
    cases hstored

/-- A user without the mark is handed a badge under a fresh id. -/
theorem withBadge (h : s.Consistent) (hfresh : s.getBadge badge.tokenId = none)
    (hunmarked : s.badgeAwarded badge.badgeType badge.recipient = false) :
    (s.withBadge badge).Consistent where
  listed := h.listed.insert hfresh
  marked badgeType user := by
    show (s.setBadgeAwarded badge.badgeType badge.recipient true).badgeAwarded badgeType user =
      true ↔ _
    rw [badgeAwarded_setBadgeAwarded]
    simp only [holds_withBadge hfresh]
    split
    · next hsame =>
      obtain ⟨rfl, rfl⟩ := hsame
      exact ⟨fun _ => ⟨badge.tokenId, .inl ⟨rfl, rfl, rfl⟩⟩, fun _ => rfl⟩
    · next hother =>
      rw [h.marked]
      constructor
      · rintro ⟨j, hj⟩
        exact ⟨j, .inr hj⟩
      · rintro ⟨j, ⟨-, huser, htype⟩ | hj⟩
        · exact absurd ⟨htype.symm, huser.symm⟩ hother
        · exact ⟨j, hj⟩
  single user badgeType j j' hj hj' := by
    -- Nobody who holds a badge of the type is without the mark.
    have hnone : ∀ k, ¬ s.Holds badge.recipient badge.badgeType k := fun k hk => by
      rw [(h.marked _ _).mpr ⟨k, hk⟩] at hunmarked
      cases hunmarked
    obtain ⟨rfl, rfl, rfl⟩ | hj := (holds_withBadge hfresh).mp hj
    · obtain ⟨rfl, -⟩ | hj' := (holds_withBadge hfresh).mp hj'
      · rfl
      · exact absurd hj' (hnone j')
    · obtain ⟨rfl, rfl, rfl⟩ | hj' := (holds_withBadge hfresh).mp hj'
      · exact absurd hj (hnone j)
      · exact h.single user badgeType j j' hj hj'

/-- Revoking a user's only badge of a type clears the mark. -/
theorem withoutBadge (h : s.Consistent) (hbadge : s.getBadge id = some badge) :
    (s.withoutBadge id badge).Consistent where
  listed := h.listed.erase hbadge
  marked badgeType user := by
    have hheld : s.Holds badge.recipient badge.badgeType id := ⟨badge, hbadge, rfl, rfl⟩
    show (s.setBadgeAwarded badge.badgeType badge.recipient false).badgeAwarded badgeType user =
      true ↔ _
    rw [badgeAwarded_setBadgeAwarded]
    simp only [holds_withoutBadge]
    split
    · next hsame =>
      obtain ⟨rfl, rfl⟩ := hsame
      constructor
      · intro hfalse
        cases hfalse
      · rintro ⟨j, hj, hholds⟩
        exact absurd (h.single _ _ _ _ hholds hheld) hj
    · next hother =>
      rw [h.marked]
      constructor
      · rintro ⟨j, hj⟩
        refine ⟨j, ?_, hj⟩
        rintro rfl
        obtain ⟨_, hstored, huser, htype⟩ := hj
        rw [hbadge, Option.some.injEq] at hstored
        subst hstored
        exact hother ⟨htype.symm, huser.symm⟩
      · rintro ⟨j, -, hj⟩
        exact ⟨j, hj⟩
  single user badgeType j j' hj hj' :=
    h.single user badgeType j j' (holds_withoutBadge.mp hj).2 (holds_withoutBadge.mp hj').2

variable {env : Env} {s' : Storage}

theorem step (h : s.Consistent) (hnumbered : s.Numbered) (hstep : BadgeStep env s s') :
    s'.Consistent := by
  cases hstep with
  | unchanged => exact h
  | configured => exact ⟨h.listed, h.marked, h.single⟩
  | handedOut _ hunmarked hid _ =>
    refine h.withBadge (Option.eq_none_iff_forall_ne_some.mpr fun badge hstored => ?_) hunmarked
    have := (hnumbered _ _ hstored).2
    omega
  | revoked _ hbadge => exact h.withoutBadge hbadge

end Storage.Consistent

namespace BadgeStep

variable {env : Env} {s s' : Storage} {id : Nat} {badge : Badge}

theorem numbered (h : s.Numbered) (hstep : BadgeStep env s s') : s'.Numbered := by
  intro j badge hbadge
  cases hstep with
  | unchanged => exact h j badge hbadge
  | configured => exact h j badge hbadge
  | handedOut _ _ hid _ =>
    rw [Storage.getBadge_withBadge] at hbadge
    show _ ∧ j ≤ Badge.tokenId _
    split at hbadge
    · cases hbadge
      exact ⟨by omega, by omega⟩
    · have := h j badge hbadge
      exact ⟨this.1, by omega⟩
  | revoked =>
    rw [Storage.getBadge_withoutBadge] at hbadge
    split at hbadge
    · cases hbadge
    · exact h j badge hbadge

/-- A badge that is there after a step and whose id was given before is the badge it was. -/
theorem badge_kept (hid : id ≤ s.badgeCounter) (hstep : BadgeStep env s s')
    (hafter : s'.getBadge id = some badge) : s.getBadge id = some badge := by
  cases hstep with
  | unchanged => exact hafter
  | configured => exact hafter
  | handedOut _ _ hfresh _ =>
    rw [Storage.getBadge_withBadge, if_neg (by omega)] at hafter
    exact hafter
  | revoked =>
    rw [Storage.getBadge_withoutBadge] at hafter
    split at hafter
    · cases hafter
    · exact hafter

theorem counter_mono (hstep : BadgeStep env s s') : s.badgeCounter ≤ s'.badgeCounter := by
  cases hstep with
  | unchanged => exact le_rfl
  | configured => exact le_rfl
  | handedOut _ _ hid _ =>
    show s.badgeCounter ≤ Badge.tokenId _
    omega
  | revoked => exact le_rfl

end BadgeStep

section Run

variable {P : Type} {self : Address} {outside : P → P → Prop}

/-- The executions of the badge contract. -/
def reputation (self : Address) (outside : P → P → Prop) :
    System (Deployment Storage P) (Happening ReputationOp Event) :=
  contractSystem ReputationOp.perform self outside fun d => d.store = Storage.empty

variable {history later : List (Happening ReputationOp Event)} {d d' : Deployment Storage P}

theorem reputation_step {l : Happening ReputationOp Event}
    (h : (reputation self outside).step d l d') : ∃ env, BadgeStep env d.store d'.store := by
  cases h with
  | @invoked env _ _ _ hrun => exact ⟨env, ReputationOp.steps hrun⟩
  | elsewhere => exact ⟨⟨self, 0, 0, []⟩, .unchanged⟩

theorem records_of_run (run : (reputation self outside).Run history d) :
    d.store.Consistent ∧ d.store.Numbered := by
  refine run.invariant (I := fun _ d => d.store.Consistent ∧ d.store.Numbered) ?_ ?_
  · intro d hd
    rw [show d.store = Storage.empty from hd]
    refine ⟨.empty, fun id badge hbadge => ?_⟩
    cases hbadge
  · intro h d l d' _ ih hstep _
    obtain ⟨env, hbadge⟩ := reputation_step hstep
    exact ⟨ih.1.step ih.2 hbadge, hbadge.numbered ih.2⟩

/-- A badge that exists at the end of a path and whose id had been given at its start is the badge
that the id was given to. -/
theorem badge_kept_of_path
    (path : System.Path (reputation self outside) System.anyStep history d later d') {id : Nat}
    (hid : id ≤ d.store.badgeCounter) : ∀ badge, d'.store.getBadge id = some badge →
      d.store.getBadge id = some badge := by
  suffices H : d.store.badgeCounter ≤ d'.store.badgeCounter ∧ ∀ badge,
      d'.store.getBadge id = some badge → d.store.getBadge id = some badge from H.2
  induction path with
  | refl => exact ⟨le_rfl, fun _ h => h⟩
  | tail _ hstep _ ih =>
    obtain ⟨env, hbadge⟩ := reputation_step hstep
    refine ⟨ih.1.trans hbadge.counter_mono, fun badge hafter => ?_⟩
    exact ih.2 badge (hbadge.badge_kept (hid.trans ih.1) hafter)

/-- Along every execution the badge records agree, and a badge stays the badge it was, with its
recipient, as long as it exists. -/
theorem badges_consistent (run : (reputation self outside).Run history d) : d.store.Consistent ∧
      ∀ later d', System.Path (reputation self outside) System.anyStep history d later d' →
        ∀ id before after, d.store.getBadge id = some before →
          d'.store.getBadge id = some after → after.recipient = before.recipient := by
  obtain ⟨hconsistent, hnumbered⟩ := records_of_run run
  refine ⟨hconsistent, fun later d' path id before after hbefore hafter => ?_⟩
  have hkept := badge_kept_of_path path (hnumbered _ _ hbefore).2 after hafter
  rw [hbefore, Option.some.injEq] at hkept
  rw [hkept]

end Run

def home : Address := ⟨910⟩

def admin : Address := ⟨1⟩

def alice : Address := ⟨2⟩

/-- The administrator invokes the contract at its address. -/
def asAdmin (timestamp : Nat) (op : ReputationOp) : Env × ReputationOp :=
  (⟨home, timestamp, timestamp, [admin]⟩, op)

def freshContract : Deployment Storage Unit := ⟨Storage.empty, (), 0, 0⟩

theorem fresh_contract_initial :
    (reputation home fun _ (_ : Unit) => False).initial freshContract := rfl

/-- Alice is awarded a badge, loses it, and is given one of the same type again. -/
def awardedAgainRun :
    System.Replayed (reputation home fun _ (_ : Unit) => False)
      (Deployment.next ReputationOp.perform home) System.anything :=
  .of freshContract fresh_contract_initial
    [asAdmin 1 (.initializeReputation admin),
      asAdmin 2 (.awardBadge alice badgeEarly "ipfs://early"),
      asAdmin 3 (.revoke 1),
      asAdmin 4 (.mint alice badgeEarly 3 "ipfs://early")] (by decide +kernel)

theorem badges_consistent_of_alice : awardedAgainRun.state.store.Consistent ∧
      awardedAgainRun.state.store.userBadges alice = [2] :=
  have run : (reputation home fun _ (_ : Unit) => False).Run awardedAgainRun.history
      awardedAgainRun.state := awardedAgainRun.run Deployment.next_step System.anything_allowed
  ⟨(badges_consistent run).1, by decide +kernel⟩

end Backit.ReputationNft
