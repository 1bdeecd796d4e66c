import Backit.Lib.ProRata
import Backit.Soroban.Disbursements
import Backit.Tournaments.Brackets

/-!
# What a settled bracket contest pays

The entrants are ranked by their scores, then by whether they have the champion, then by when they
entered. The prizes of the others are rounded down, and the first gets the rest of the pool.
-/

namespace Backit.Tournaments

open Soroban Contract Lib

variable {T β : Type} {env : Env} {f f' : Frame Storage T Event} {b : β}

@[simp] theorem run_contestOf_bind (id : Nat) (k : BracketContest → Contest T β) :
    run (contestOf id >>= k) env f = .ok (b, f') ↔
      ∃ c, f.store.contest.lookup id = some c ∧ run (k c) env f = .ok (b, f') := by
  simp only [contestOf, Contract.bind_assoc, run_steps]

@[simp] theorem run_picksOf_bind (id : Nat) (user : Address) (k : List Nat → Contest T β) :
    run (picksOf id user >>= k) env f = .ok (b, f') ↔
      ∃ p, f.store.picks id user = some p ∧ run (k p) env f = .ok (b, f') := by
  simp only [picksOf, Contract.bind_assoc, run_steps]

/-- An entrant's bracket is stored, and has a champion. -/
def Picked (s : Storage) (id : Nat) (user : Address) : Prop :=
  ∃ p, s.picks id user = some p ∧ 14 < p.length

/-- What an entrant is ranked by: its score, and whether its champion is the right one. -/
def keyOf (s : Storage) (id : Nat) (results : List Nat) (user : Address) : Int × Bool :=
  let p := (s.picks id user).getD []
  (score p results, p[14]? == results[14]?)

theorem run_rankingKeys_bind {id champion : Nat} {results : List Nat}
    (hchampion : results[14]? = some champion) (list : List Address)
    (k : List (Int × Bool) → Contest T β) :
    run (rankingKeys id results champion list >>= k) env f = .ok (b, f') ↔
      (∀ user ∈ list, Picked f.store id user) ∧
        run (k (list.map (keyOf f.store id results))) env f = .ok (b, f') := by
  induction list generalizing k with
  | nil => simp [rankingKeys]
  | cons user rest ih =>
    simp only [rankingKeys, Contract.bind_assoc, run_picksOf_bind, run_steps, ih,
      List.forall_mem_cons, List.map_cons]
    constructor
    · rintro ⟨p, hp, pick, hpick, hrest, h⟩
      have hkey : keyOf f.store id results user = (score p results, pick == champion) := by
        simp [keyOf, hp, hpick, hchampion]
      refine ⟨⟨⟨p, hp, (List.getElem?_eq_some_iff.mp hpick).1⟩, hrest⟩, ?_⟩
      rw [hkey]
      exact h
    · rintro ⟨⟨⟨p, hp, hlength⟩, hrest⟩, h⟩
      have hkey : keyOf f.store id results user = (score p results, p[14] == champion) := by
        simp [keyOf, hp, hchampion, List.getElem?_eq_getElem hlength]
      rw [hkey] at h
      exact ⟨p, hp, p[14], List.getElem?_eq_getElem hlength, hrest, h⟩

/-- The entrants in the order of their rank. -/
def rankedEntrants (s : Storage) (id : Nat) (results : List Nat) : List Address :=
  (sinkingSort (KeyBefore ((s.entrants id).map (keyOf s id results)))
    (List.range (s.entrants id).length)).filterMap ((s.entrants id)[·]?)

/-- The prizes of the first `k`. -/
def prizeList (pool : Int) (k : Nat) : List Int :=
  let shares := prizeShares.take k
  let others := shares.tail.map (proRata pool shares.sum)
  (pool - others.sum) :: others

theorem sum_prize_list (pool : Int) (k : Nat) : (prizeList pool k).sum = pool := by
  simp [prizeList]

theorem share_pos {k : Nat} {share : Int} (h : share ∈ prizeShares.take k) :
    0 < share ∧ share ≤ 50 := by
  have hmem := List.mem_of_mem_take h
  simp only [prizeShares, List.mem_cons, List.not_mem_nil, or_false] at hmem
  omega

theorem prize_list_nonneg {pool : Int} (hpool : 0 ≤ pool) (k : Nat) :
    ∀ prize ∈ prizeList pool k, 0 ≤ prize := by
  cases k with
  | zero =>
    intro prize hprize
    obtain rfl := List.mem_singleton.mp hprize
    simpa using hpool
  | succ k =>
    obtain ⟨others, hothers⟩ : ∃ others, prizeShares.take (k + 1) = 50 :: others := ⟨_, rfl⟩
    have hpos : ∀ share ∈ others, 0 < share := fun share h =>
      (share_pos (hothers ▸ List.mem_cons_of_mem 50 h)).1
    have hsum : 0 ≤ others.sum := List.sum_nonneg fun share h => (hpos share h).le
    have hle : (others.map (proRata pool (50 + others.sum))).sum ≤ pool :=
      sum_proRata_le hpool (by omega) others (by omega)
    intro prize hprize
    simp only [prizeList, hothers, List.tail_cons, List.sum_cons, List.mem_cons] at hprize
    rcases hprize with rfl | hprize
    · omega
    · obtain ⟨share, hshare, rfl⟩ := List.mem_map.mp hprize
      exact proRata_nonneg hpool (by omega) (hpos share hshare).le

/-- Splitting fails only where a product overflows: the sums stay within the pool. By induction on
the shares. -/
theorem run_splitPool_bind {pool total paid : Int} {shares : List Int} (hpool : 0 ≤ pool)
    (htotal : 0 < total) (hshares : ∀ share ∈ shares, 0 < share) (hpaid : 0 ≤ paid)
    (hle : paid + (shares.map (proRata pool total)).sum ≤ pool) (k : List Int × Int → Contest T β) :
    run (splitPool pool total paid shares >>= k) env f = .ok (b, f') ↔
      (∀ share ∈ shares, pool * share ≤ i128Max) ∧
        run (k (shares.map (proRata pool total),
          paid + (shares.map (proRata pool total)).sum)) env f = .ok (b, f') := by
  induction shares generalizing paid k with
  | nil => simp [splitPool]
  | cons share rest ih =>
    obtain ⟨hshare, hrest⟩ := List.forall_mem_cons.mp hshares
    have hprize : (pool * share).tdiv total = proRata pool total share := by
      rw [tdiv_eq_div (mul_nonneg hpool hshare.le), proRata, mul_comm]
    have hnonneg := proRata_nonneg hpool htotal hshare.le
    have hothers : 0 ≤ (rest.map (proRata pool total)).sum := by
      refine List.sum_nonneg fun x hx => ?_
      obtain ⟨y, hy, rfl⟩ := List.mem_map.mp hx
      exact proRata_nonneg hpool htotal (hrest y hy).le
    rw [List.map_cons, List.sum_cons] at hle
    have hmin : i128Min ≤ 0 := by decide
    have hproduct : InI128 (pool * share) ↔ pool * share ≤ i128Max :=
      and_iff_right (hmin.trans (mul_nonneg hpool hshare.le))
    have hwhole : pool ≤ pool * share := le_mul_of_one_le_right hpool hshare
    have hsum : pool * share ≤ i128Max → InI128 (paid + proRata pool total share) :=
      fun h => ⟨by omega, by omega⟩
    simp only [splitPool, Contract.bind_assoc, run_steps, hprize, hproduct,
      ih hrest (show 0 ≤ paid + proRata pool total share by omega) (by omega), List.map_cons,
      List.sum_cons, List.forall_mem_cons, ← add_assoc]
    constructor
    · rintro ⟨hfirst, -, hfits, h⟩
      exact ⟨⟨hfirst, hfits⟩, h⟩
    · rintro ⟨⟨hfirst, hfits⟩, h⟩
      exact ⟨hfirst, hsum hfirst, hfits, h⟩

/-- The prizes can be computed exactly when the largest product can. -/
theorem run_prizesOf_bind {pool : Int} {k : Nat} (hpool : 0 ≤ pool) (hk : 0 < k)
    (cont : List Int → Contest T β) :
    run (prizesOf pool k >>= cont) env f = .ok (b, f') ↔
      pool * 50 ≤ i128Max ∧ run (cont (prizeList pool k)) env f = .ok (b, f') := by
  obtain ⟨rest, hshares⟩ : ∃ rest, prizeShares.take k = 50 :: rest := by
    cases k with
    | zero => cases hk
    | succ k => exact ⟨_, rfl⟩
  have hpos : ∀ share ∈ prizeShares.take k, 0 < share := fun share h => (share_pos h).1
  have hrest : ∀ share ∈ rest, 0 < share := fun share h => hpos share (hshares ▸ .tail _ h)
  have hothers : 0 ≤ rest.sum := List.sum_nonneg fun share h => (hrest share h).le
  have htotal : 0 < (prizeShares.take k).sum := by
    rw [hshares, List.sum_cons]
    omega
  have hfits : (∀ share ∈ prizeShares.take k, pool * share ≤ i128Max) ↔ pool * 50 ≤ i128Max := by
    constructor
    · intro h
      exact h 50 (hshares ▸ .head _)
    · intro h share hmem
      exact (mul_le_mul_of_nonneg_left (share_pos hmem).2 hpool).trans h
  have hsum := sum_proRata_le hpool htotal _ le_rfl
  have hnonneg : ∀ share ∈ prizeShares.take k,
      0 ≤ proRata pool (prizeShares.take k).sum share :=
    fun share h => proRata_nonneg hpool htotal (hpos share h).le
  have htail : 0 ≤ (rest.map (proRata pool (prizeShares.take k).sum)).sum := by
    refine List.sum_nonneg fun x hx => ?_
    obtain ⟨share, hmem, rfl⟩ := List.mem_map.mp hx
    exact hnonneg share (hshares ▸ .tail _ hmem)
  have hhead := hnonneg 50 (hshares ▸ .head _)
  simp only [prizesOf, Contract.bind_assoc]
  rw [run_splitPool_bind hpool htotal hpos le_rfl (by omega), hfits]
  refine and_congr_right fun hproduct => ?_
  have hmin : i128Min ≤ 0 := by decide
  simp only [prizeList, run_steps]
  generalize hwhole : (prizeShares.take k).sum = total at *
  rw [hshares] at hsum ⊢
  simp only [List.map_cons, List.sum_cons, List.headD_cons, List.tail_cons] at hsum ⊢
  have hfirst : proRata pool total 50 + (pool - (0 + (proRata pool total 50 +
      (rest.map (proRata pool total)).sum))) = pool - (rest.map (proRata pool total)).sum := by
    omega
  rw [hfirst, and_iff_right ⟨by omega, by omega⟩, and_iff_right ⟨by omega, by omega⟩]

section Payment

variable [Tokens T]

theorem prize_list_length (pool : Int) {k : Nat} (hk : 0 < k) (hle : k ≤ 3) :
    (prizeList pool k).length = k := by
  simp only [prizeList, prizeShares, List.length_cons, List.length_map, List.length_tail,
    List.length_take, List.length_nil]
  omega

/-- What the entrants with some indices are paid. -/
def paymentsOf (list : List Address) (pairs : List (Nat × Int)) : List (Address × Int) :=
  pairs.filterMap fun p => list[p.1]?.map (·, p.2)

/-- Payments as effects, most recent first. -/
def paymentEffects (token sender : Address) (paid : List (Address × Int)) : List (Effect Event) :=
  (paid.map fun p => .transfer token sender p.1 p.2).reverse

/-- The prizes are paid one after the other, by induction on them. -/
theorem run_payPrizes_bind {token : Address} {list : List Address} {pairs : List (Nat × Int)}
    (hpairs : ∀ p ∈ pairs, p.1 < list.length) (k : Unit → Contest T β) :
    run (payPrizes token list pairs >>= k) env f = .ok (b, f') ↔
      ∃ tokens, payEach env token f.tokens (paymentsOf list pairs) = some tokens ∧
        run (k ()) env ⟨f.store, tokens,
          paymentEffects token env.contract (paymentsOf list pairs) ++ f.effects⟩ =
            .ok (b, f') := by
  induction pairs generalizing f with
  | nil => simp [payPrizes, paymentsOf, paymentEffects]
  | cons p rest ih =>
    obtain ⟨i, prize⟩ := p
    obtain ⟨hi, hrest⟩ := List.forall_mem_cons.mp hpairs
    have hwho : list[i]? = some list[i] := List.getElem?_eq_getElem hi
    have hcons : paymentsOf list ((i, prize) :: rest) =
        (list[i], prize) :: paymentsOf list rest := by
      simp [paymentsOf, hwho]
    simp only [payPrizes, Contract.bind_assoc, hwho, run_unwrap_some, run_steps, ih hrest,
      Frame.record, hcons, pay_each_cons]
    constructor
    · rintro ⟨t, htransfer, tokens, hpaid, h⟩
      refine ⟨tokens, ⟨t, htransfer, hpaid⟩, ?_⟩
      simpa [paymentEffects] using h
    · rintro ⟨tokens, ⟨t, htransfer, hpaid⟩, h⟩
      refine ⟨t, htransfer, tokens, hpaid, ?_⟩
      simpa [paymentEffects] using h

theorem payments_of_zip {list : List Address} {order : List Nat} {prizes : List Int} {k : Nat}
    (horder : ∀ i ∈ order, i < list.length) (hk : prizes.length ≤ k) :
    paymentsOf list ((order.take k).zip prizes) = (order.filterMap (list[·]?)).zip prizes := by
  induction order generalizing prizes k with
  | nil => simp [paymentsOf]
  | cons i rest ih =>
    obtain ⟨hi, hrest⟩ := List.forall_mem_cons.mp horder
    have hwho : list[i]? = some list[i] := List.getElem?_eq_getElem hi
    cases prizes with
    | nil => simp [paymentsOf]
    | cons prize prizes =>
      obtain ⟨k, rfl⟩ : ∃ m, k = m + 1 := ⟨k - 1, by rw [List.length_cons] at hk; omega⟩
      have := ih hrest (Nat.le_of_succ_le_succ hk)
      simp only [paymentsOf] at this
      simp [paymentsOf, hwho, this]

theorem run_payPool_bind {c : BracketContest} {list : List Address} {order : List Nat}
    (hpool : 0 ≤ c.pool) (horder : order.Perm (List.range list.length)) (k : Unit → Contest T β) :
    run (payPool c list order >>= k) env f = .ok (b, f') ↔
      (list ≠ [] → c.pool * 50 ≤ i128Max) ∧
        ∃ tokens, payEach env c.token f.tokens ((order.filterMap (list[·]?)).zip
            (prizeList c.pool (min list.length 3))) = some tokens ∧
          run (k ()) env ⟨f.store, tokens,
            paymentEffects c.token env.contract ((order.filterMap (list[·]?)).zip
              (prizeList c.pool (min list.length 3))) ++ f.effects⟩ = .ok (b, f') := by
  cases hlist : list with
  | nil =>
    subst hlist
    obtain rfl := List.perm_nil.mp horder
    simp [payPool, paymentEffects]
  | cons first rest =>
    have hk : 0 < min list.length 3 := by
      rw [hlist, List.length_cons]
      omega
    have hin : ∀ i ∈ order, i < list.length := fun i hi =>
      List.mem_range.mp (horder.mem_iff.mp hi)
    have hlength := prize_list_length c.pool hk (Nat.min_le_right ..)
    have hpayments := payments_of_zip hin hlength.le
    have hpairs : ∀ p ∈ (order.take (min list.length 3)).zip
        (prizeList c.pool (min list.length 3)), p.1 < list.length := fun p hp =>
      hin p.1 (List.mem_of_mem_take (List.of_mem_zip hp).1)
    rw [← hlist]
    simp only [payPool, hk, if_true, Contract.bind_assoc, run_prizesOf_bind hpool hk,
      run_payPrizes_bind hpairs, hpayments]
    simp [hlist]

/-- What a contest pays. -/
def payments (s : Storage) (id : Nat) (c : BracketContest) : List (Address × Int) :=
  (rankedEntrants s id c.results).zip (prizeList c.pool (min (s.entrants id).length 3))

/-- A finalisation that succeeds. -/
structure BracketFinalizes (env : Env) (f : Frame Storage T Event) (id : Nat)
    (c : BracketContest) (tokens : T) : Prop where
  stored : f.store.contest.lookup id = some c
  unfinalized : c.finalized = false
  complete : c.results.length = games
  picked : ∀ user ∈ f.store.entrants id, Picked f.store id user
  computed : f.store.entrants id ≠ [] → c.pool * 50 ≤ i128Max
  paid : payEach env c.token f.tokens (payments f.store id c) = some tokens

/-- A contest of which all rounds are resolved is finalised when it can pay its pool. -/
theorem run_finalizeBracket {id : Nat}
    (hpool : ∀ c, f.store.contest.lookup id = some c → 0 ≤ c.pool) :
    run (finalizeBracket id) env f = .ok ((), f') ↔
      ∃ c tokens, BracketFinalizes env f id c tokens ∧
        f' = ⟨f.store.setContest id { c with finalized := true }, tokens,
          paymentEffects c.token env.contract (payments f.store id c) ++ f.effects⟩ := by
  have hperm : ∀ keys, (sinkingSort (KeyBefore keys)
      (List.range (f.store.entrants id).length)).Perm
      (List.range (f.store.entrants id).length) := fun _ => sinkingSort_perm _
  simp only [finalizeBracket, run_contestOf_bind, run_steps, not_not, Bool.not_eq_true]
  constructor
  · rintro ⟨c, hc, hopen, hcomplete, champion, hchampion, h⟩
    rw [run_rankingKeys_bind hchampion] at h
    obtain ⟨hpicked, h⟩ := h
    rw [run_payPool_bind (hpool c hc) (hperm _)] at h
    obtain ⟨hcomputed, tokens, hpaid, h⟩ := h
    rw [run_modifyStore] at h
    exact ⟨c, tokens, ⟨hc, hopen, hcomplete, hpicked, hcomputed, hpaid⟩, h⟩
  · rintro ⟨c, tokens, ⟨hc, hopen, hcomplete, hpicked, hcomputed, hpaid⟩, rfl⟩
    have hlast : 14 < c.results.length := by
      rw [hcomplete]
      decide
    refine ⟨c, hc, hopen, hcomplete, c.results[14], List.getElem?_eq_getElem hlast, ?_⟩
    rw [run_rankingKeys_bind (List.getElem?_eq_getElem hlast)]
    refine ⟨hpicked, ?_⟩
    rw [run_payPool_bind (hpool c hc) (hperm _)]
    refine ⟨hcomputed, tokens, hpaid, ?_⟩
    rw [run_modifyStore]
    rfl

end Payment

end Backit.Tournaments
